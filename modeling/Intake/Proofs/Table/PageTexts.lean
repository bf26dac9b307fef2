import Intake.Proofs.Table.Outline
import Intake.Proofs.Text.Normal
import Intake.Table.Pages

/-!
# Page texts

The texts of several pages, joined.  The spacing of the joined text is made normal as a
whole, and that comes to the same as making each page's normal by itself: no run of
blanks or newlines reaches over the border of two pages.

There are three groups.

* Paragraphs.  `Paragraphed` lines have full lines at both ends and no two blank lines in a
  row; `lines_normalize` goes line by line there, and `normalize_joinWith` page by page.
* Tokens.  `paragraphed_layOut` says that tokens are laid out in such lines.
* Pages.  `joinTexts_of_readable` is the result.
-/

namespace Intake.Text

/-! ## Paragraphs -/

/-- Lines in paragraphs: every line is full or empty, no two empty lines follow each other,
and both ends are full. -/
structure Paragraphed (ls : List (List Char)) : Prop where
  each : ∀ l ∈ ls, l = [] ∨ isFull l = true
  alone : ls.IsChain fun a b => a ≠ [] ∨ b ≠ []
  first : ∀ l ∈ ls.head?, isFull l = true
  last : ∀ l ∈ ls.getLast?, isFull l = true

section Paragraphs

variable {s t l : List Char} {ls xs ys : List (List Char)}

theorem paragraphed_singleton (h : isFull l = true) : Paragraphed [l] where
  each := List.forall_mem_singleton.2 (Or.inr h)
  alone := .singleton l
  first := fun _ hl => Option.some.inj hl ▸ h
  last := fun _ hl => Option.some.inj hl ▸ h

/-- Paragraphs that follow each other without a blank line between them. -/
theorem Paragraphed.append (hxs : Paragraphed xs) (hys : Paragraphed ys) (hx : xs ≠ [])
    (hy : ys ≠ []) : Paragraphed (xs ++ ys) where
  each := List.forall_mem_append.2 ⟨hxs.each, hys.each⟩
  alone := by
    refine List.isChain_append.2 ⟨hxs.alone, hys.alone, fun a ha b _ => Or.inl ?_⟩
    exact ne_nil_of_isFull (hxs.last a ha)
  first := by
    rw [List.head?_append_of_ne_nil xs hx]
    exact hxs.first
  last := by
    rw [List.getLast?_append_of_ne_nil xs hy]
    exact hys.last

/-- Paragraphs with one blank line between them. -/
theorem Paragraphed.append_blank (hxs : Paragraphed xs) (hys : Paragraphed ys) (hx : xs ≠ [])
    (hy : ys ≠ []) : Paragraphed (xs ++ [] :: ys) where
  each := List.forall_mem_append.2 ⟨hxs.each, List.forall_mem_cons.2 ⟨Or.inl rfl, hys.each⟩⟩
  alone := by
    refine List.isChain_append.2 ⟨hxs.alone, List.isChain_cons.2 ⟨fun b hb => Or.inr ?_, hys.alone⟩,
      fun a ha b _ => Or.inl ?_⟩
    · exact ne_nil_of_isFull (hys.first b hb)
    · exact ne_nil_of_isFull (hxs.last a ha)
  first := by
    rw [List.head?_append_of_ne_nil xs hx]
    exact hxs.first
  last := by
    rw [List.getLast?_append_of_ne_nil xs (List.cons_ne_nil _ _), List.getLast?_cons_of_ne_nil hy]
    exact hys.last

/-- A line that is longer in front is full as well. -/
theorem Paragraphed.lengthen (h : Paragraphed (l :: ls)) (hs : isFull s = true) :
    Paragraphed ((s ++ l) :: ls) := by
  have hfull : isFull (s ++ l) = true := by
    obtain ⟨c, hc, hblank⟩ := isFull_iff.1 hs
    exact isFull_iff.2 ⟨c, List.mem_append_left l hc, hblank⟩
  obtain ⟨-, hrest⟩ := List.forall_mem_cons.1 h.each
  refine ⟨List.forall_mem_cons.2 ⟨Or.inr hfull, hrest⟩, ?_, ?_, ?_⟩
  · exact List.isChain_cons.2 ⟨fun _ _ => Or.inl (ne_nil_of_isFull hfull),
      (List.isChain_cons.1 h.alone).2⟩
  · exact fun _ hl => Option.some.inj hl ▸ hfull
  · cases ls with
    | nil => exact fun _ hl => Option.some.inj hl ▸ hfull
    | cons l' ls => exact h.last

/-- Where no two empty lines follow each other there is nothing to close up. -/
theorem closeUp_eq_self (h : ls.IsChain fun a b => a ≠ [] ∨ b ≠ []) : closeUp ls = ls := by
  induction ls with
  | nil => rfl
  | cons l rest ih =>
    obtain ⟨hnext, hrest⟩ := List.isChain_cons.1 h
    rw [closeUp, ih hrest, if_neg]
    rintro ⟨hl, hhead, -⟩
    exact (hnext [] hhead).elim (fun hne => hne hl) fun hne => hne rfl

theorem lines_trim (h : ∀ l ∈ lines s, trim l = l) (hfirst : ∀ l ∈ (lines s).head?, l ≠ [])
    (hlast : ∀ l ∈ (lines s).getLast?, l ≠ []) : lines (trim s) = lines s := by
  obtain ⟨lead, core, trail, hlines, hlead, htrail, htrim⟩ := exists_lines_trim h
  have hleadNil : lead = [] := by
    cases lead with
    | nil => rfl
    | cons l lead => exact absurd (hlead l List.mem_cons_self) (hfirst l (by simp [hlines]))
  have htrailNil : trail = [] := by
    rcases List.eq_nil_or_concat' trail with rfl | ⟨init, l, rfl⟩
    · rfl
    · exact absurd (htrail l (by simp)) (hlast l (by simp [hlines]))
  rw [hleadNil, htrailNil, List.nil_append, List.append_nil] at hlines
  rw [htrim, if_neg, hlines]
  rw [← hlines]
  exact lines_ne_nil s

theorem isFull_respaced (h : '\n' ∉ l) : isFull (respaced l) = isFull l := by
  rw [← trim_squeezeBlanks h, isFull_trim, isFull_squeezeBlanks]

/-- In paragraphs the spacing is made normal in each line by itself. -/
theorem lines_normalize (h : Paragraphed (lines s)) :
    lines (normalize s) = (lines s).map respaced := by
  have hsqueezed : lines (squeezeNewlines (squeezeBlanks s)) = (lines s).map squeezeBlanks := by
    obtain ⟨l, rest, hlines⟩ := List.exists_cons_of_ne_nil (lines_ne_nil s)
    have halone := h.alone
    rw [hlines] at halone
    have hrest : (rest.map squeezeBlanks).IsChain fun a b => a ≠ [] ∨ b ≠ [] := by
      simp only [List.isChain_map, ne_eq, squeezeBlanks_eq_nil_iff]
      exact (List.isChain_cons.1 halone).2
    have hblanks := lines_squeezeBlanks s
    rw [hlines, List.map_cons] at hblanks
    rw [lines_squeezeNewlines hblanks, closeUp_eq_self hrest, hlines, List.map_cons]
  have htrimmed : lines (trimLines (squeezeNewlines (squeezeBlanks s))) =
      (lines s).map respaced := by
    rw [lines_trimLines, hsqueezed, List.map_map]
    refine List.map_congr_left fun l hl => ?_
    exact trim_squeezeBlanks (newline_notMem_of_mem_lines hl)
  have hends : ∀ l ∈ lines s, isFull l = true → respaced l ≠ [] := by
    intro l hl hfull
    rw [← isFull_respaced (newline_notMem_of_mem_lines hl)] at hfull
    exact ne_nil_of_isFull hfull
  rw [normalize, lines_trim trim_of_mem_lines_trimLines, htrimmed]
  · rw [htrimmed, List.head?_map]
    intro l hl
    obtain ⟨l', hl', rfl⟩ := Option.map_eq_some_iff.1 hl
    exact hends l' (List.mem_of_mem_head? hl') (h.first l' hl')
  · rw [htrimmed, List.getLast?_map]
    intro l hl
    obtain ⟨l', hl', rfl⟩ := Option.map_eq_some_iff.1 hl
    exact hends l' (List.mem_of_getLast? hl') (h.last l' hl')

theorem normal_normalize (h : Paragraphed (lines s)) : Normal (normalize s) := by
  refine normal_normalize_iff.2 ?_
  rintro ⟨g, hg, -, l, hl, hne⟩
  obtain ⟨before, x, y, rest, hlines, -, -, hblank⟩ := mem_between_iff.1 hg
  have hmem : l ∈ lines s := by simp [hlines, hl]
  rcases h.each l hmem with hnil | hfull
  · exact hne hnil
  · exact absurd (hblank l hl) (by rw [hfull]; exact Bool.noConfusion)

theorem lines_append_of_notMem (hs : '\n' ∉ s) (t : List Char) :
    lines (s ++ t) = (lines t).modifyHead (s ++ ·) := by
  obtain ⟨l, ls, hlines⟩ := List.exists_cons_of_ne_nil (lines_ne_nil t)
  rw [hlines, List.modifyHead_cons]
  induction s with
  | nil => exact hlines
  | cons c s ih =>
    obtain ⟨hc, hrest⟩ := not_or.1 (List.mem_cons.not.1 hs)
    rw [List.cons_append, lines_cons (Ne.symm hc), ih hrest]
    rfl

theorem lines_append_blankLine (s t : List Char) :
    lines (s ++ ['\n', '\n'] ++ t) = lines s ++ [] :: lines t := by
  rw [List.append_assoc, List.cons_append, lines_append_newline, List.cons_append,
    List.nil_append, lines_newline_cons]

theorem normalize_append_blankLine (hs : Paragraphed (lines s)) (ht : Paragraphed (lines t)) :
    normalize (s ++ ['\n', '\n'] ++ t) = normalize s ++ ['\n', '\n'] ++ normalize t := by
  have hwhole : Paragraphed (lines (s ++ ['\n', '\n'] ++ t)) := by
    rw [lines_append_blankLine]
    exact hs.append_blank ht (lines_ne_nil s) (lines_ne_nil t)
  have hlines : lines (normalize (s ++ ['\n', '\n'] ++ t)) =
      lines (normalize s ++ ['\n', '\n'] ++ normalize t) := by
    rw [lines_normalize hwhole, lines_append_blankLine, lines_append_blankLine, List.map_append,
      List.map_cons, lines_normalize hs, lines_normalize ht]
    rfl
  rw [← joinWith_lines (normalize (s ++ ['\n', '\n'] ++ t)), hlines, joinWith_lines]

/-- Texts in paragraphs are put together with blank lines, and the spacing is made normal
in each of them by itself. -/
theorem normalize_joinWith {pages : List (List Char)} (h : ∀ p ∈ pages, Paragraphed (lines p)) :
    normalize (joinWith ['\n', '\n'] pages) = joinWith ['\n', '\n'] (pages.map normalize) ∧
      (pages ≠ [] → Paragraphed (lines (joinWith ['\n', '\n'] pages))) := by
  induction pages with
  | nil => exact ⟨rfl, fun hne => absurd rfl hne⟩
  | cons p rest ih =>
    obtain ⟨hp, hrest⟩ := List.forall_mem_cons.1 h
    by_cases hnil : rest = []
    · rw [hnil, List.map_singleton, joinWith_singleton, joinWith_singleton]
      exact ⟨rfl, fun _ => hp⟩
    · obtain ⟨hjoin, hparagraphed⟩ := ih hrest
      have hmap : rest.map normalize ≠ [] := by rwa [ne_eq, List.map_eq_nil_iff]
      rw [joinWith_cons _ _ hnil, List.map_cons, joinWith_cons _ _ hmap, ← hjoin,
        normalize_append_blankLine hp (hparagraphed hnil), lines_append_blankLine]
      exact ⟨rfl, fun _ => hp.append_blank (hparagraphed hnil) (lines_ne_nil _) (lines_ne_nil _)⟩

end Paragraphs

end Intake.Text

namespace Intake.Table

open Text

/-! ## Tokens -/

theorem infix_of_mem_cells {row cell : List Char} (h : cell ∈ cells row) : cell <:+: row := by
  have hjoin := infix_joinWith ['\t'] h
  rwa [cells, splitWhere_eq_splitOnP, ← List.splitOn_eq_splitOnP, joinWith,
    List.intercalate_splitOn] at hjoin

/-- The word of a listed token is full and stands in one line. -/
theorem word_of_mem_listedTokens {table : List Char} {t : Token} (h : t ∈ listedTokens table) :
    isFull t.word = true ∧ '\n' ∉ t.word := by
  obtain ⟨row, hrow, htoken⟩ := List.mem_filterMap.1 h
  have hline : '\n' ∉ row := newline_notMem_of_mem_lines (List.mem_of_mem_tail hrow)
  rw [listedToken?] at htoken
  split at htoken
  · rename_i hword
    obtain ⟨hcell, hblank⟩ := hword
    obtain rfl := Option.some.inj htoken
    have hmem : (cells row).getD wordColumn [] ∈ cells row := by
      rw [List.getD_eq_getElem?_getD, List.getElem?_eq_getElem hcell, Option.getD_some]
      exact List.getElem_mem hcell
    refine ⟨?_, fun hnewline => hline ?_⟩
    · rw [isFull_trim, isFull]
      simpa using hblank
    · exact (infix_of_mem_cells hmem).subset ((trim_isInfix _).subset hnewline)
  · cases htoken

/-- Tokens are laid out in paragraphs. -/
theorem paragraphed_layOut {ts : List Token} (hne : ts ≠ [])
    (h : ∀ t ∈ ts, isFull t.word = true ∧ '\n' ∉ t.word) : Paragraphed (lines (layOut ts)) := by
  induction ts with
  | nil => exact absurd rfl hne
  | cons a ts ih =>
    obtain ⟨⟨hfull, hline⟩, hrest⟩ := List.forall_mem_cons.1 h
    have hword : Paragraphed [a.word] := paragraphed_singleton hfull
    cases ts with
    | nil =>
      rw [layOut_singleton, lines_of_notMem hline]
      exact hword
    | cons b ts =>
      have hlater := ih (List.cons_ne_nil b ts) hrest
      have hlaterNe := lines_ne_nil (layOut (b :: ts))
      rw [layOut_cons_cons, gap]
      split
      · rw [lines_append_blankLine, lines_of_notMem hline]
        exact hword.append_blank hlater (List.cons_ne_nil _ _) hlaterNe
      · split
        · rw [List.append_assoc, List.singleton_append, lines_append_newline,
            lines_of_notMem hline]
          exact hword.append hlater (List.cons_ne_nil _ _) hlaterNe
        · obtain ⟨l, ls, hlines⟩ := List.exists_cons_of_ne_nil hlaterNe
          have hspaced : '\n' ∉ a.word ++ [' '] := by simpa using hline
          have hspacedFull : isFull (a.word ++ [' ']) = true := by
            rw [isFull_iff] at hfull ⊢
            exact hfull.imp fun c hc => ⟨List.mem_append_left _ hc.1, hc.2⟩
          rw [hlines] at hlater
          rw [lines_append_of_notMem hspaced, hlines, List.modifyHead_cons]
          exact hlater.lengthen hspacedFull

end Intake.Table

namespace Intake.Pages

open Text

/-! ## Pages -/

/-- Pages can be read, and each text that is not empty is in paragraphs. -/
theorem exists_texts {tables : List String}
    (h : ∀ table ∈ tables, ∀ row ∈ (lines table.toList).tail, Table.Readable row) :
    ∃ texts, tables.mapM Table.textOf = .ok texts ∧
      ∀ text ∈ texts, text.isEmpty = false → Paragraphed (lines text.toList) := by
  induction tables with
  | nil => exact ⟨[], rfl, List.forall_mem_nil _⟩
  | cons table tables ih =>
    obtain ⟨htable, hrest⟩ := List.forall_mem_cons.1 h
    obtain ⟨texts, htexts, hparagraphed⟩ := ih hrest
    have htext : Table.textOf table =
        .ok (String.ofList (Table.layOut (Table.listedTokens table.toList))) := by
      rw [Table.textOf, Table.text, Table.tokens_of_readable htable]
      rfl
    refine ⟨String.ofList (Table.layOut (Table.listedTokens table.toList)) :: texts, ?_,
      List.forall_mem_cons.2 ⟨fun hne => ?_, hparagraphed⟩⟩
    · rw [List.mapM_cons, htext, htexts]
      rfl
    · rw [String.toList_ofList]
      refine Table.paragraphed_layOut ?_ fun t => Table.word_of_mem_listedTokens
      intro hnone
      rw [hnone] at hne
      exact absurd hne (by decide)

theorem toList_joinTexts (texts : List String) :
    (joinTexts texts).toList =
      normalize (joinWith ['\n', '\n'] ((texts.filter (! ·.isEmpty)).map String.toList)) := by
  rw [joinTexts, normalized, String.toList_ofList, String.toList_intercalate]
  rfl

/-- The texts of pages stay apart when they are joined: each page's spacing is made normal
by itself, and one blank line stands between two pages.  The joined text is normal, so it
has no three newlines in a row and is left as it is. -/
theorem joinTexts_of_readable {tables : List String}
    (h : ∀ table ∈ tables, ∀ row ∈ (lines table.toList).tail, Table.Readable row) :
    ∃ texts, tables.mapM Table.textOf = .ok texts ∧
      joinTexts texts = "\n\n".intercalate ((texts.filter (! ·.isEmpty)).map normalized) ∧
      (∀ text ∈ texts, Normal (normalized text).toList) ∧
      ¬ ['\n', '\n', '\n'] <:+: (joinTexts texts).toList ∧
      normalized (joinTexts texts) = joinTexts texts := by
  obtain ⟨texts, htexts, hparagraphed⟩ := exists_texts h
  have hpages : ∀ page ∈ (texts.filter (! ·.isEmpty)).map String.toList,
      Paragraphed (lines page) := by
    intro page hpage
    obtain ⟨text, htext, rfl⟩ := List.mem_map.1 hpage
    obtain ⟨hmem, hne⟩ := List.mem_filter.1 htext
    exact hparagraphed text hmem (by simpa using hne)
  obtain ⟨hjoin, hwhole⟩ := normalize_joinWith hpages
  have hnormal : Normal (joinTexts texts).toList := by
    rw [toList_joinTexts]
    by_cases hnone : (texts.filter (! ·.isEmpty)).map String.toList = []
    · rw [hnone]
      decide
    · exact normal_normalize (hwhole hnone)
  refine ⟨texts, htexts, ?_, fun text htext => ?_, hnormal.sparse, ?_⟩
  · rw [← String.toList_inj, toList_joinTexts, hjoin, String.toList_intercalate, List.map_map,
      List.map_map]
    have hmap : String.toList ∘ normalized = normalize ∘ String.toList :=
      funext fun text => String.toList_ofList
    rw [hmap]
    rfl
  · rw [normalized, String.toList_ofList]
    cases hne : text.isEmpty with
    | true =>
      rw [String.isEmpty_iff.1 hne]
      decide
    | false => exact normal_normalize (hparagraphed text htext hne)
  · rw [normalized, hnormal.normalize_eq, String.ofList_toList]

/-- A page whose last word holds a wide blank, an empty page and a page with two paragraphs. -/
def threeTables : List String :=
  ["h\n5\t1\t1\t1\t1\t1\t0\t0\t9\t9\t90\tTotal\n5\t1\t1\t1\t1\t2\t0\t0\t9\t9\t90\t4\u2003\u20032",
    "h\n5\t1\t1\t1\t1\t1\t0\t0\t9\t9\t90\t ",
    "h\n5\t1\t1\t1\t1\t1\t0\t0\t9\t9\t90\tAcme\n5\t1\t2\t1\t1\t1\t0\t0\t9\t9\t90\tPaid"]

theorem joinTexts_of_readable_threeTables :
    (∀ table ∈ threeTables, ∀ row ∈ (lines table.toList).tail, Table.Readable row) ∧
      ∃ texts, threeTables.mapM Table.textOf = .ok texts ∧
        joinTexts texts = "Total 4 2\n\nAcme\n\nPaid" := by
  have h : ∀ table ∈ threeTables, ∀ row ∈ (lines table.toList).tail, Table.Readable row := by
    decide +kernel
  obtain ⟨texts, htexts, hjoin, -⟩ := joinTexts_of_readable h
  have hread : threeTables.mapM Table.textOf =
      .ok ["Total 4\u2003\u20032", "", "Acme\n\nPaid"] := by decide +kernel
  obtain rfl := Except.ok.inj (hread.symm.trans htexts)
  exact ⟨h, _, htexts, hjoin.trans (by decide +kernel)⟩

end Intake.Pages
