import Intake.Proofs.Text.Stripped
import Mathlib.Data.List.Infix

/-!
# Lines and words

Texts that are cut into pieces, and pieces that are joined.

There are three groups.

* Pieces.  `splitWhere_eq_splitOnP` says which pieces a text is cut into.
* Lines.  `joinWith_lines` and `lines_joinWith` say that joining lines undoes the
  cutting and the other way round.
* Words.  `words_append_blank` cuts the words of a text at a blank, and
  `words_joinWith` finds the words of joined pieces.
-/

namespace Intake.Text

/-! ## Pieces -/

theorem splitWhere_cons (sep : Char → Bool) (c : Char) (s : List Char) :
    splitWhere sep (c :: s) =
      if sep c then [] :: splitWhere sep s else (splitWhere sep s).modifyHead (c :: ·) := by
  obtain ⟨piece, rest, hpieces⟩ := List.exists_cons_of_ne_nil (splitWhere_ne_nil sep s)
  simp only [splitWhere, List.foldr_cons] at hpieces ⊢
  rw [hpieces]
  rfl

theorem splitWhere_eq_splitOnP (sep : Char → Bool) (s : List Char) :
    splitWhere sep s = s.splitOnP sep := by
  induction s with
  | nil => rfl
  | cons c s ih => rw [splitWhere_cons, List.splitOnP_cons_eq_if_modifyHead, ih]

/-- No piece holds a separator. -/
theorem eq_false_of_mem_splitWhere {sep : Char → Bool} {s piece : List Char}
    (h : piece ∈ splitWhere sep s) : ∀ c ∈ piece, sep c = false := by
  rw [splitWhere_eq_splitOnP] at h
  induction s generalizing piece with
  | nil =>
    rw [List.splitOnP_nil, List.mem_singleton] at h
    rw [h]
    exact List.forall_mem_nil _
  | cons c s ih =>
    rw [List.splitOnP_cons_eq_if_modifyHead] at h
    obtain ⟨first, rest, hpieces⟩ := List.exists_cons_of_ne_nil (List.splitOnP_ne_nil sep s)
    rw [hpieces] at h ih
    split at h
    · rcases List.mem_cons.1 h with rfl | h
      · exact List.forall_mem_nil _
      · exact ih h
    · rename_i hc
      rcases List.mem_cons.1 h with rfl | h
      · exact List.forall_mem_cons.2 ⟨by simpa using hc, ih List.mem_cons_self⟩
      · exact ih (List.mem_cons_of_mem _ h)

theorem joinWith_singleton (sep piece : List Char) : joinWith sep [piece] = piece :=
  List.intercalate_singleton

theorem joinWith_cons (sep piece : List Char) {rest : List (List Char)} (h : rest ≠ []) :
    joinWith sep (piece :: rest) = piece ++ sep ++ joinWith sep rest :=
  List.intercalate_cons_of_ne_nil h

theorem joinWith_append (sep : List Char) {xs ys : List (List Char)} (hxs : xs ≠ [])
    (hys : ys ≠ []) : joinWith sep (xs ++ ys) = joinWith sep xs ++ sep ++ joinWith sep ys := by
  induction xs with
  | nil => exact absurd rfl hxs
  | cons x xs ih =>
    rw [List.cons_append, joinWith_cons sep x (List.append_ne_nil_of_right_ne_nil xs hys)]
    by_cases hnil : xs = []
    · rw [hnil, List.nil_append, joinWith_singleton]
    · rw [ih hnil, joinWith_cons sep x hnil]
      simp only [List.append_assoc]

theorem head?_joinWith (sep : List Char) {piece : List Char} (h : piece ≠ [])
    (rest : List (List Char)) : (joinWith sep (piece :: rest)).head? = piece.head? := by
  obtain ⟨c, piece, rfl⟩ := List.exists_cons_of_ne_nil h
  by_cases hrest : rest = []
  · rw [hrest, joinWith_singleton]
  · rw [joinWith_cons _ _ hrest]
    rfl

theorem getLast?_joinWith (sep : List Char) {piece : List Char} (h : piece ≠ [])
    (init : List (List Char)) : (joinWith sep (init ++ [piece])).getLast? = piece.getLast? := by
  by_cases hinit : init = []
  · rw [hinit, List.nil_append, joinWith_singleton]
  · rw [joinWith_append _ hinit (List.cons_ne_nil _ _), joinWith_singleton, List.getLast?_append,
      List.getLast?_eq_some_getLast h, Option.some_or]

theorem mem_joinWith {sep : List Char} {pieces : List (List Char)} {c : Char}
    (h : c ∈ joinWith sep pieces) : c ∈ sep ∨ ∃ piece ∈ pieces, c ∈ piece := by
  induction pieces with
  | nil => cases h
  | cons piece rest ih =>
    by_cases hrest : rest = []
    · rw [hrest, joinWith_singleton] at h
      exact Or.inr ⟨piece, List.mem_cons_self, h⟩
    · rw [joinWith_cons _ _ hrest, List.append_assoc, List.mem_append, List.mem_append] at h
      rcases h with h | h | h
      · exact Or.inr ⟨piece, List.mem_cons_self, h⟩
      · exact Or.inl h
      · exact (ih h).imp_right fun ⟨piece', hmem, hc⟩ => ⟨piece', List.mem_cons_of_mem _ hmem, hc⟩

theorem infix_joinWith (sep : List Char) {pieces : List (List Char)} {piece : List Char}
    (h : piece ∈ pieces) : piece <:+: joinWith sep pieces := by
  induction pieces with
  | nil => cases h
  | cons first rest ih =>
    by_cases hrest : rest = []
    · rw [hrest, List.mem_singleton] at h
      rw [hrest, joinWith_singleton, h]
    · rw [joinWith_cons _ _ hrest]
      rcases List.mem_cons.1 h with rfl | h
      · exact ((List.prefix_append _ _).trans (List.prefix_append _ _)).isInfix
      · exact (ih h).trans (List.suffix_append _ _).isInfix

/-! ## Lines -/

theorem lines_eq_splitOn (s : List Char) : lines s = s.splitOn '\n' := by
  rw [lines, splitWhere_eq_splitOnP, List.splitOn_eq_splitOnP]

theorem lines_ne_nil (s : List Char) : lines s ≠ [] := splitWhere_ne_nil _ s

theorem lines_nil : lines [] = [[]] := rfl

theorem lines_newline_cons (s : List Char) : lines ('\n' :: s) = [] :: lines s := rfl

theorem lines_cons {c : Char} (hc : c ≠ '\n') (s : List Char) :
    lines (c :: s) = (lines s).modifyHead (c :: ·) := by
  rw [lines_eq_splitOn, List.splitOn_cons_eq_if_modifyHead, if_neg (by simpa using hc),
    lines_eq_splitOn]

theorem lines_append_newline (s t : List Char) : lines (s ++ '\n' :: t) = lines s ++ lines t := by
  rw [lines_eq_splitOn, List.splitOn_append_cons_self, lines_eq_splitOn, lines_eq_splitOn]

theorem lines_of_notMem {s : List Char} (h : '\n' ∉ s) : lines s = [s] := by
  rw [lines_eq_splitOn, List.splitOn_eq_singleton h]

theorem newline_notMem_of_mem_lines {s l : List Char} (h : l ∈ lines s) : '\n' ∉ l := by
  intro hmem
  have hfalse := eq_false_of_mem_splitWhere h '\n' hmem
  cases hfalse

/-- Joining its lines gives a text back. -/
theorem joinWith_lines (s : List Char) : joinWith ['\n'] (lines s) = s := by
  rw [lines_eq_splitOn, joinWith, List.intercalate_splitOn]

/-- The lines of joined lines are these lines. -/
theorem lines_joinWith {ls : List (List Char)} (hne : ls ≠ []) (h : ∀ l ∈ ls, '\n' ∉ l) :
    lines (joinWith ['\n'] ls) = ls := by
  rw [lines_eq_splitOn, joinWith, List.splitOn_intercalate '\n' h hne]

theorem infix_of_mem_lines {s l : List Char} (h : l ∈ lines s) : l <:+: s := by
  have hjoin := infix_joinWith ['\n'] h
  rwa [joinWith_lines] at hjoin

/-- Every character of a text is a newline or stands in a line. -/
theorem exists_line_of_mem {s : List Char} {c : Char} (h : c ∈ s) (hc : c ≠ '\n') :
    ∃ l ∈ lines s, c ∈ l := by
  rw [← joinWith_lines s] at h
  exact (mem_joinWith h).resolve_left (by simpa using hc)

/-- A text and its first line start alike. -/
theorem head?_firstLine {s l : List Char} {ls : List (List Char)} (h : lines s = l :: ls) {c : Char}
    (hc : c ≠ '\n') : l.head? = some c ↔ s.head? = some c := by
  cases s with
  | nil =>
    obtain ⟨rfl, -⟩ := List.cons.inj h
    rfl
  | cons c' s =>
    by_cases hc' : c' = '\n'
    · rw [hc', lines_newline_cons] at h
      obtain ⟨rfl, -⟩ := List.cons.inj h
      simp [hc', hc.symm]
    · rw [lines_cons hc'] at h
      cases hlines : lines s with
      | nil => exact absurd hlines (lines_ne_nil s)
      | cons l' ls' =>
        rw [hlines, List.modifyHead_cons] at h
        obtain ⟨rfl, -⟩ := List.cons.inj h
        rfl

/-- A text and its last line end alike. -/
theorem getLast?_lastLine {s l : List Char} (h : l ∈ (lines s).getLast?) {c : Char}
    (hc : c ≠ '\n') : l.getLast? = some c ↔ s.getLast? = some c := by
  obtain ⟨ls, hls⟩ := List.getLast?_eq_some_iff.1 h
  rw [← joinWith_lines s, hls]
  cases ls with
  | nil => rw [List.nil_append, joinWith_singleton]
  | cons l' ls =>
    rw [joinWith_append _ (List.cons_ne_nil l' ls) (List.cons_ne_nil l []), joinWith_singleton,
      List.getLast?_append]
    cases hlast : l.getLast? with
    | none => simp [hc.symm]
    | some c' => simp

/-- Some line starts with a character if the text does, or if the character follows a
newline. -/
theorem exists_line_head_iff {s : List Char} {c : Char} (hc : c ≠ '\n') :
    (∃ l ∈ lines s, l.head? = some c) ↔ s.head? = some c ∨ ['\n', c] <:+: s := by
  constructor
  · rintro ⟨l, hl, hhead⟩
    obtain ⟨before, after, hlines⟩ := List.append_of_mem hl
    obtain ⟨l', rfl⟩ := List.head?_eq_some_iff.1 hhead
    by_cases hbefore : before = []
    · rw [hbefore, List.nil_append] at hlines
      exact Or.inl ((head?_firstLine hlines hc).1 hhead)
    · have hjoin := head?_joinWith ['\n'] (List.cons_ne_nil c l') after
      obtain ⟨rest, hrest⟩ := List.head?_eq_some_iff.1 (hjoin.trans hhead)
      refine Or.inr ⟨joinWith ['\n'] before, rest, ?_⟩
      rw [← joinWith_lines s, hlines, joinWith_append _ hbefore (List.cons_ne_nil _ _), hrest]
      simp
  · rintro (hhead | ⟨a, b, rfl⟩)
    · obtain ⟨l, ls, hlines⟩ := List.exists_cons_of_ne_nil (lines_ne_nil s)
      exact ⟨l, by simp [hlines], (head?_firstLine hlines hc).2 hhead⟩
    · obtain ⟨l, ls, hlines⟩ := List.exists_cons_of_ne_nil (lines_ne_nil (c :: b))
      refine ⟨l, ?_, (head?_firstLine hlines hc).2 rfl⟩
      simp [lines_append_newline, hlines]

/-- Some line ends with a character if the text does, or if a newline follows the
character. -/
theorem exists_line_getLast_iff {s : List Char} {c : Char} (hc : c ≠ '\n') :
    (∃ l ∈ lines s, l.getLast? = some c) ↔ s.getLast? = some c ∨ [c, '\n'] <:+: s := by
  constructor
  · rintro ⟨l, hl, hlast⟩
    obtain ⟨before, after, hlines⟩ := List.append_of_mem hl
    have hne : l ≠ [] := by
      rintro rfl
      cases hlast
    by_cases hafter : after = []
    · have hmem : l ∈ (lines s).getLast? := by simp [hlines, hafter]
      exact Or.inl ((getLast?_lastLine hmem hc).1 hlast)
    · have hjoin := getLast?_joinWith ['\n'] hne before
      obtain ⟨init, hinit⟩ := List.getLast?_eq_some_iff.1 (hjoin.trans hlast)
      refine Or.inr ⟨init, joinWith ['\n'] after, ?_⟩
      have hinitial : before ++ [l] ≠ [] := List.append_ne_nil_of_right_ne_nil _ (by simp)
      rw [← joinWith_lines s, hlines, List.append_cons before l after,
        joinWith_append _ hinitial hafter, hinit]
      simp
  · rintro (hlast | ⟨a, b, rfl⟩)
    · have hmem := List.getLast?_eq_some_getLast (lines_ne_nil s)
      exact ⟨_, List.getLast_mem _, (getLast?_lastLine hmem hc).2 hlast⟩
    · have hmem := List.getLast?_eq_some_getLast (lines_ne_nil (a ++ [c]))
      have hsplit : a ++ [c, '\n'] ++ b = (a ++ [c]) ++ '\n' :: b := by simp
      refine ⟨_, ?_, (getLast?_lastLine hmem hc).2 (by simp)⟩
      rw [hsplit, lines_append_newline]
      exact List.mem_append_left _ (List.getLast_mem _)

theorem prefix_firstLine {pat s l : List Char} {ls : List (List Char)} (hpat : '\n' ∉ pat)
    (h : lines s = l :: ls) (hstart : pat <+: s) : pat <+: l := by
  induction pat generalizing s l ls with
  | nil => exact List.nil_prefix
  | cons c pat ih =>
    obtain ⟨hc, hrest⟩ := not_or.1 (List.mem_cons.not.1 hpat)
    obtain ⟨s, rfl⟩ : ∃ s', s = c :: s' := by
      obtain ⟨t, rfl⟩ := hstart
      exact ⟨pat ++ t, rfl⟩
    obtain ⟨l', ls', hlines⟩ := List.exists_cons_of_ne_nil (lines_ne_nil s)
    rw [lines_cons (Ne.symm hc), hlines, List.modifyHead_cons] at h
    obtain ⟨rfl, -⟩ := List.cons.inj h
    rw [List.cons_prefix_cons] at hstart ⊢
    exact ⟨rfl, ih hrest hlines hstart.2⟩

/-- A part of a text without newlines stands in a line. -/
theorem exists_line_of_infix {pat s : List Char} (hpat : '\n' ∉ pat) (h : pat <:+: s) :
    ∃ l ∈ lines s, pat <:+: l := by
  induction s with
  | nil => exact ⟨[], List.mem_singleton_self _, h⟩
  | cons c s ih =>
    rcases List.infix_cons_iff.1 h with hstart | hpart
    · obtain ⟨l, ls, hlines⟩ := List.exists_cons_of_ne_nil (lines_ne_nil (c :: s))
      exact ⟨l, by simp [hlines], (prefix_firstLine hpat hlines hstart).isInfix⟩
    · obtain ⟨l, hl, hline⟩ := ih hpart
      by_cases hc : c = '\n'
      · rw [hc, lines_newline_cons]
        exact ⟨l, List.mem_cons_of_mem _ hl, hline⟩
      · obtain ⟨l', ls, hlines⟩ := List.exists_cons_of_ne_nil (lines_ne_nil s)
        rw [lines_cons hc, hlines, List.modifyHead_cons]
        rw [hlines] at hl
        rcases List.mem_cons.1 hl with rfl | hl
        · exact ⟨c :: l, List.mem_cons_self, List.infix_cons hline⟩
        · exact ⟨l, List.mem_cons_of_mem _ hl, hline⟩

/-! ## Words -/

/-- The words of a text are those in front of a blank and those behind it. -/
theorem words_append_blank {c : Char} (hc : isBlank c = true) (s t : List Char) :
    words (s ++ c :: t) = words s ++ words t := by
  rw [words, splitWhere_eq_splitOnP, List.splitOnP_append_cons s t hc, List.filter_append, words,
    words, splitWhere_eq_splitOnP, splitWhere_eq_splitOnP]

theorem words_blank_cons {c : Char} (hc : isBlank c = true) (s : List Char) :
    words (c :: s) = words s := words_append_blank hc [] s

theorem words_append_blanks {b : List Char} (hb : ∀ c ∈ b, isBlank c = true) (s : List Char) :
    words (b ++ s) = words s := by
  induction b with
  | nil => rfl
  | cons c b ih =>
    obtain ⟨hc, hrest⟩ := List.forall_mem_cons.1 hb
    rw [List.cons_append, words_blank_cons hc, ih hrest]

theorem words_of_forall {w : List Char} (h : ∀ c ∈ w, isBlank c = false) :
    words w = if w = [] then [] else [w] := by
  rw [words, splitWhere_eq_splitOnP, List.splitOnP_eq_singleton h]
  by_cases hw : w = [] <;> simp [hw]

theorem words_append_of_blanks {b : List Char} (hb : ∀ c ∈ b, isBlank c = true) (s : List Char) :
    words (s ++ b) = words s := by
  cases b with
  | nil => rw [List.append_nil]
  | cons c b =>
    obtain ⟨hc, hrest⟩ := List.forall_mem_cons.1 hb
    have hnone := words_append_blanks hrest []
    rw [List.append_nil] at hnone
    rw [words_append_blank hc, hnone]
    exact List.append_nil _

theorem words_trim (s : List Char) : words (trim s) = words s := by
  obtain ⟨lead, trail, hs, hlead, htrail⟩ := (isStripped_stripWhere isBlank s).around
  rw [← trim_eq_stripWhere] at hs
  conv_rhs => rw [hs]
  rw [words_append_of_blanks htrail, words_append_blanks hlead]

/-- Pieces joined by blanks have the words of the pieces. -/
theorem words_joinWith {sep : List Char} (hne : sep ≠ []) (hsep : ∀ c ∈ sep, isBlank c = true)
    (pieces : List (List Char)) : words (joinWith sep pieces) = pieces.flatMap words := by
  obtain ⟨c, b, rfl⟩ := List.exists_cons_of_ne_nil hne
  obtain ⟨hc, hb⟩ := List.forall_mem_cons.1 hsep
  induction pieces with
  | nil => rfl
  | cons piece rest ih =>
    by_cases hrest : rest = []
    · rw [hrest, joinWith_singleton, List.flatMap_singleton]
    · rw [joinWith_cons _ _ hrest, List.append_assoc, List.cons_append, words_append_blank hc,
        words_append_blanks hb, ih, List.flatMap_cons]

end Intake.Text
