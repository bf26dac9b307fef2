import Intake.Proofs.Number.Denoted
import Intake.Proofs.Text.Lines
import Intake.Table.Basic
import Mathlib.Data.List.Chain
import Mathlib.Data.List.SplitBy

/-!
# Outlines of token tables

The text of a table is the outline of its tokens, written down.

There are four groups.

* Tokens.  `listedTokens` says which tokens a table lists, and
  `tokens_of_readable` that these are read.
* Layout.  `layOut_splitBy` lays tokens out run by run.
* Outlines.  `outline` divides tokens into paragraphs and these into lines,
  `written` is an outline as text, and `layOut_eq_written` is the layout on
  the three levels of an outline.
* Texts.  `text_of_readable` puts the three together.
-/

namespace Intake.Table

open Text Number

/-! ## Tokens -/

/-- What a cell counts as: plain digits as their number, everything else as zero. -/
def cellValue (cell : List Char) : Nat := if isPlain cell then plainValue cell else 0

/-- The cells of a row. -/
def cells (row : List Char) : List (List Char) := splitWhere (· == '\t') row

/-- Whether a row has a cell for a word. -/
def HasWord (row : List Char) : Prop := wordColumn < (cells row).length

instance : DecidablePred HasWord := fun _ => Nat.decLt _ _

/-- The token that a row lists. -/
def listedToken? (row : List Char) : Option Token :=
  let word := (cells row).getD wordColumn []
  if HasWord row ∧ ¬ allBlank word then
    some ⟨cellValue ((cells row).getD 2 []), cellValue ((cells row).getD 3 []),
      cellValue ((cells row).getD 4 []), trim word⟩
  else none

/-- The tokens that a table lists, in the order of its rows.  The first row holds the
headings. -/
def listedTokens (table : List Char) : List Token := (lines table).tail.filterMap listedToken?

/-- Where a row has a word, the cells for its block, paragraph and line are not too long
for a number. -/
def Readable (row : List Char) : Prop :=
  HasWord row → ∀ cell ∈ ((cells row).drop 2).take 3, cell.length ≤ maxDigitsRead

instance : DecidablePred Readable := fun row =>
  inferInstanceAs (Decidable (HasWord row → ∀ cell ∈ ((cells row).drop 2).take 3,
    cell.length ≤ maxDigitsRead))

theorem cellNumber_of_length_le {cell : List Char} (h : cell.length ≤ maxDigitsRead) :
    cellNumber cell = .ok (cellValue cell) := by
  rw [cellNumber, cellValue, ← isPlain, ofAsciiDigits, if_pos h, ← plainValue]
  split <;> rfl

theorem rowToken?_of_readable {row : List Char} (h : Readable row) :
    rowToken? row = .ok (listedToken? row) := by
  have hcells : splitWhere (· == '\t') row = cells row := rfl
  simp only [rowToken?, hcells]
  rw [listedToken?]
  by_cases hword : HasWord row
  · have hlength : 11 < (cells row).length := hword
    have hcell : ∀ i ≤ 11, (cells row)[i]? = some ((cells row).getD i []) := by
      intro i hi
      have hlt : i < (cells row).length := by omega
      rw [List.getD_eq_getElem?_getD, List.getElem?_eq_getElem hlt, Option.getD_some]
    have hshort : ∀ i, 2 ≤ i → i < 5 → ((cells row).getD i []).length ≤ maxDigitsRead := by
      intro i hlow hhigh
      refine h hword _ (List.mem_of_getElem? (i := i - 2) ?_)
      rw [List.getElem?_take_of_lt (by omega), List.getElem?_drop, Nat.add_sub_cancel' hlow,
        hcell i (by omega)]
    have hblank : (trim ((cells row).getD wordColumn [])).isEmpty =
        allBlank ((cells row).getD wordColumn []) := by
      rw [Bool.eq_iff_iff, List.isEmpty_iff, trim_eq_nil_iff, allBlank, List.all_eq_true]
    rw [hcell 2 (by decide), hcell 3 (by decide), hcell 4 (by decide),
      hcell wordColumn (by decide)]
    simp only [hblank, hword, true_and, cellNumber_of_length_le (hshort 2 (by decide) (by decide)),
      cellNumber_of_length_le (hshort 3 (by decide) (by decide)),
      cellNumber_of_length_le (hshort 4 (by decide) (by decide))]
    cases allBlank ((cells row).getD wordColumn []) <;> rfl
  · have hnone : (cells row)[wordColumn]? = none := List.getElem?_eq_none (not_lt.1 hword)
    rw [hnone, if_neg (fun h => hword h.1)]
    split
    · rename_i hsome
      cases hsome
    · rfl

theorem rowTokens_of_readable {rows : List (List Char)} (h : ∀ row ∈ rows, Readable row) :
    rowTokens rows = .ok (rows.filterMap listedToken?) := by
  have hrows : rows.mapM rowToken? = .ok (rows.map listedToken?) := by
    induction rows with
    | nil => rfl
    | cons row rest ih =>
      obtain ⟨hrow, hrest⟩ := List.forall_mem_cons.1 h
      rw [List.mapM_cons, rowToken?_of_readable hrow, ih hrest]
      rfl
  rw [rowTokens, hrows]
  show Except.ok ((rows.map listedToken?).filterMap id) = _
  rw [List.filterMap_map]
  rfl

theorem tokens_of_readable {table : List Char} (h : ∀ row ∈ (lines table).tail, Readable row) :
    tokens table = .ok (listedTokens table) := rowTokens_of_readable h

/-! ## Layout -/

theorem layOut_singleton (t : Token) : layOut [t] = t.word := List.append_nil _

theorem layOut_cons_cons (a b : Token) (ts : List Token) :
    layOut (a :: b :: ts) = a.word ++ gap a b ++ layOut (b :: ts) := by
  simp only [layOut, List.map_cons, List.zipWith_cons_cons, List.flatten_cons, placed,
    List.append_assoc]

theorem layOut_append {xs ys : List Token} (hxs : xs ≠ []) (hys : ys ≠ []) :
    layOut (xs ++ ys) = layOut xs ++ gap (xs.getLast hxs) (ys.head hys) ++ layOut ys := by
  induction xs with
  | nil => exact absurd rfl hxs
  | cons a xs ih =>
    cases xs with
    | nil =>
      obtain ⟨b, ys, rfl⟩ := List.exists_cons_of_ne_nil hys
      rw [layOut_singleton, List.singleton_append, layOut_cons_cons]
      rfl
    | cons b xs =>
      rw [List.cons_append, List.cons_append, layOut_cons_cons, layOut_cons_cons,
        ← List.cons_append, ih (List.cons_ne_nil b xs), List.getLast_cons (List.cons_ne_nil b xs)]
      simp only [List.append_assoc]

/-- Groups with the same gap behind each of them are joined by it. -/
theorem layOut_flatten {sep : List Char} {groups : List (List Token)} (hne : [] ∉ groups)
    (hgaps : groups.IsChain fun a b => ∀ x ∈ a.getLast?, ∀ y ∈ b.head?, gap x y = sep) :
    layOut groups.flatten = joinWith sep (groups.map layOut) := by
  induction groups with
  | nil => rfl
  | cons g groups ih =>
    cases groups with
    | nil => rw [List.flatten_singleton, List.map_singleton, joinWith_singleton]
    | cons g' groups =>
      obtain ⟨hg, hrest⟩ := not_or.1 (List.mem_cons.not.1 hne)
      obtain ⟨hg', -⟩ := not_or.1 (List.mem_cons.not.1 hrest)
      rw [List.isChain_cons_cons] at hgaps
      have hhead : (g' :: groups).flatten.head? = g'.head? := by
        obtain ⟨a, g', rfl⟩ := List.exists_cons_of_ne_nil (Ne.symm hg')
        rfl
      have hflat : (g' :: groups).flatten ≠ [] := by
        intro hnil
        rw [hnil] at hhead
        exact hg' (List.head?_eq_none_iff.1 hhead.symm).symm
      have hgap : gap (g.getLast (Ne.symm hg)) ((g' :: groups).flatten.head hflat) = sep := by
        refine hgaps.1 _ (List.getLast?_eq_some_getLast _) _ ?_
        rw [← hhead]
        exact List.head?_eq_some_head hflat
      have hjoin : joinWith sep ((g :: g' :: groups).map layOut) =
          layOut g ++ sep ++ joinWith sep ((g' :: groups).map layOut) :=
        joinWith_cons sep (layOut g) (List.cons_ne_nil _ _)
      rw [List.flatten_cons, layOut_append (Ne.symm hg) hflat, hgap, ih hrest hgaps.2, hjoin]

/-- Tokens are laid out run by run where the same gap stands between any two runs. -/
theorem layOut_splitBy {sep : List Char} {r : Token → Token → Bool} {ts : List Token}
    (hgaps : ts.IsChain fun a b => r a b = false → gap a b = sep) :
    layOut ts = joinWith sep ((ts.splitBy r).map layOut) := by
  have hne := List.nil_notMem_splitBy r ts
  have hends := List.isChain_getLast_head_splitBy r ts
  rw [← List.flatten_splitBy r ts, List.isChain_flatten hne] at hgaps
  have hjoints : (ts.splitBy r).IsChain
      fun a b => ∀ x ∈ a.getLast?, ∀ y ∈ b.head?, gap x y = sep := by
    rw [List.isChain_iff_getElem] at hends ⊢
    intro i hi
    obtain ⟨ha, hb, hother⟩ := hends i hi
    intro x hx y hy
    refine List.isChain_iff_getElem.1 hgaps.2 i hi x hx y hy ?_
    rw [← hother, List.getLast_of_mem_getLast? hx, List.head_of_mem_head? hy]
  have hflatten := layOut_flatten hne hjoints
  rwa [List.flatten_splitBy] at hflatten

/-! ## Outlines -/

/-- Whether two tokens of a paragraph stand in one line. -/
def sameLine (a b : Token) : Bool := a.line == b.line

/-- Tokens as paragraphs, and each of these as lines: the longest runs of tokens that
follow each other in one paragraph, and in it in one line. -/
def outline (ts : List Token) : List (List (List Token)) :=
  (ts.splitBy sameParagraph).map fun paragraph => paragraph.splitBy sameLine

/-- A line as text. -/
def writtenLine (line : List Token) : List Char := joinWith [' '] (line.map Token.word)

/-- A paragraph as text. -/
def writtenParagraph (paragraph : List (List Token)) : List Char :=
  joinWith ['\n'] (paragraph.map writtenLine)

/-- An outline as text. -/
def written (paragraphs : List (List (List Token))) : List Char :=
  joinWith ['\n', '\n'] (paragraphs.map writtenParagraph)

/-- No token is lost, doubled or moved. -/
theorem flatten_outline (ts : List Token) : (outline ts).flatten.flatten = ts := by
  have hparagraphs : (outline ts).map List.flatten = ts.splitBy sameParagraph := by
    rw [outline, List.map_map]
    refine (List.map_congr_left fun paragraph _ => ?_).trans (List.map_id _)
    exact List.flatten_splitBy sameLine paragraph
  rw [List.flatten_flatten, hparagraphs, List.flatten_splitBy]

theorem gap_of_otherParagraph {a b : Token} (h : sameParagraph a b = false) :
    gap a b = ['\n', '\n'] := by
  simp [gap, h]

theorem gap_of_otherLine {a b : Token} (hparagraph : sameParagraph a b = true)
    (hline : sameLine a b = false) : gap a b = ['\n'] := by
  have hne : (a.line != b.line) = true := by
    rw [bne, ← sameLine, hline]
    rfl
  rw [gap, hparagraph, if_neg (by decide), if_pos hne]

theorem gap_of_sameLine {a b : Token} (hparagraph : sameParagraph a b = true)
    (hline : sameLine a b = true) : gap a b = [' '] := by
  have heq : (a.line != b.line) = false := by
    rw [bne, ← sameLine, hline]
    rfl
  rw [gap, hparagraph, if_neg (by decide), heq, if_neg (by decide)]

theorem layOut_eq_writtenLine {line : List Token}
    (hparagraph : line.IsChain fun a b => sameParagraph a b = true)
    (hline : line.IsChain fun a b => sameLine a b = true) : layOut line = writtenLine line := by
  induction line with
  | nil => rfl
  | cons a line ih =>
    cases line with
    | nil => rw [layOut_singleton, writtenLine, List.map_singleton, joinWith_singleton]
    | cons b line =>
      rw [List.isChain_cons_cons] at hparagraph hline
      rw [layOut_cons_cons, gap_of_sameLine hparagraph.1 hline.1, ih hparagraph.2 hline.2,
        writtenLine, writtenLine, List.map_cons, List.map_cons, List.map_cons,
        joinWith_cons _ a.word (List.cons_ne_nil b.word _)]

theorem layOut_eq_writtenParagraph {paragraph : List Token}
    (hparagraph : paragraph.IsChain fun a b => sameParagraph a b = true) :
    layOut paragraph = writtenParagraph (paragraph.splitBy sameLine) := by
  have hgaps : paragraph.IsChain fun a b => sameLine a b = false → gap a b = ['\n'] :=
    hparagraph.imp fun _ _ => gap_of_otherLine
  rw [layOut_splitBy hgaps, writtenParagraph]
  refine congrArg _ (List.map_congr_left fun line hmem => ?_)
  have hline : line.IsChain fun a b => sameParagraph a b = true := by
    rw [← List.flatten_splitBy sameLine paragraph,
      List.isChain_flatten (List.nil_notMem_splitBy sameLine paragraph)] at hparagraph
    exact hparagraph.1 line hmem
  exact layOut_eq_writtenLine hline (List.isChain_of_mem_splitBy hmem)

/-- Tokens are laid out as their outline is written. -/
theorem layOut_eq_written (ts : List Token) : layOut ts = written (outline ts) := by
  have hgaps : ts.IsChain fun a b => sameParagraph a b = false → gap a b = ['\n', '\n'] :=
    List.isChain_iff_getElem.2 fun _ _ => gap_of_otherParagraph
  rw [layOut_splitBy hgaps, written, outline, List.map_map]
  refine congrArg _ (List.map_congr_left fun paragraph hmem => ?_)
  exact layOut_eq_writtenParagraph (List.isChain_of_mem_splitBy hmem)

/-- The words of an outline as text are the words of its tokens, in order. -/
theorem words_written (paragraphs : List (List (List Token))) :
    words (written paragraphs) = paragraphs.flatten.flatten.flatMap fun t => words t.word := by
  have hspace : ∀ c ∈ [' '], isBlank c = true := List.forall_mem_singleton.2 rfl
  have hnewline : ∀ c ∈ ['\n'], isBlank c = true := List.forall_mem_singleton.2 rfl
  have hblankLine : ∀ c ∈ ['\n', '\n'], isBlank c = true := List.forall_mem_cons.2 ⟨rfl, hnewline⟩
  have hline : ∀ line, words (writtenLine line) = line.flatMap fun t => words t.word := by
    intro line
    rw [writtenLine, words_joinWith (List.cons_ne_nil _ _) hspace, List.flatMap_map]
  have hparagraph : ∀ paragraph, words (writtenParagraph paragraph) =
      paragraph.flatten.flatMap fun t => words t.word := by
    intro paragraph
    rw [writtenParagraph, words_joinWith (List.cons_ne_nil _ _) hnewline, List.flatMap_map]
    simp only [hline, List.flatten_eq_flatMap, List.flatMap_assoc, id]
  rw [written, words_joinWith (List.cons_ne_nil _ _) hblankLine, List.flatMap_map]
  simp only [hparagraph, List.flatten_eq_flatMap, List.flatMap_assoc, id]

/-! ## Texts -/

/-- The text of a table is the outline of the tokens that it lists, and no token is lost,
doubled or moved. -/
theorem text_of_readable {table : List Char} (h : ∀ row ∈ (lines table).tail, Readable row) :
    text table = .ok (written (outline (listedTokens table))) ∧
      (outline (listedTokens table)).flatten.flatten = listedTokens table ∧
      words (written (outline (listedTokens table))) =
        (listedTokens table).flatMap fun t => words t.word := by
  refine ⟨?_, flatten_outline _, ?_⟩
  · rw [text, tokens_of_readable h, ← layOut_eq_written]
    rfl
  · rw [words_written, flatten_outline]

/-- A table with two blocks, a row without a word and a row that is too short. -/
def twoBlocks : List Char :=
  "level\tpage_num\tblock_num\tpar_num\tline_num\tword_num\t".toList ++
    "left\ttop\twidth\theight\tconf\ttext\n".toList ++
    "5\t1\t1\t1\t1\t1\t10\t10\t50\t20\t95\t Invoice \n".toList ++
    "5\t1\t1\t1\t1\t2\t70\t10\t20\t20\t95\t42\n".toList ++
    "4\t1\t1\t1\t2\t0\t10\t40\t50\t20\t-1\t \n".toList ++
    "5\t1\t1\t1\t2\t1\t10\t40\t50\t20\t95\tTotal\n".toList ++
    "5\t1\t2\n".toList ++
    "5\t1\t-\t1\t2\t1\t10\t80\t50\t20\t95\tAcme".toList

theorem text_of_readable_twoBlocks :
    (∀ row ∈ (lines twoBlocks).tail, Readable row) ∧
      text twoBlocks = .ok "Invoice 42\nTotal\n\nAcme".toList := by
  have h : ∀ row ∈ (lines twoBlocks).tail, Readable row := by decide +kernel
  have houtline : written (outline (listedTokens twoBlocks)) =
      "Invoice 42\nTotal\n\nAcme".toList := by decide +kernel
  exact ⟨h, (text_of_readable h).1.trans (congrArg _ houtline)⟩

end Intake.Table
