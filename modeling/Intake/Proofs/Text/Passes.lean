import Intake.Proofs.Text.Gaps
import Intake.Text.Spacing

/-!
# The passes of the spacing

What each pass over a text does to its lines: to the full ones and to the gaps
between them.

There are four groups.

* Blanks.  `lines_squeezeBlanks` goes line by line, and `trim_squeezeBlanks` says
  that a trimmed line is its words with one space between them.
* Newlines.  `lines_squeezeNewlines` takes empty lines out of longer runs, and
  `closeGap` is what becomes of a gap.
* Ends.  `exists_lines_trim` says which lines a trimmed text has.
* All passes.  `fullLines_normalize` and `gaps_normalize` are the result.
-/

namespace Intake.Text

/-! ## Blanks -/

theorem squeezeBlanks_cons {c : Char} (hc : isInlineBlank c = false) (s : List Char) :
    squeezeBlanks (c :: s) = c :: squeezeBlanks s := if_neg (Bool.eq_false_iff.1 hc)

/-- A blank inside a line becomes a space, unless a space is there already. -/
theorem squeezeBlanks_cons_cases {c : Char} (hc : isInlineBlank c = true) (s : List Char) :
    (∃ rest, squeezeBlanks s = ' ' :: rest) ∧ squeezeBlanks (c :: s) = squeezeBlanks s ∨
      (squeezeBlanks s).head? ≠ some ' ' ∧ squeezeBlanks (c :: s) = ' ' :: squeezeBlanks s := by
  obtain ⟨out, hout⟩ : ∃ out, squeezeBlanks s = out := ⟨_, rfl⟩
  have hfold := hout
  rw [squeezeBlanks] at hfold
  rw [hout, squeezeBlanks, List.foldr_cons, hfold, if_pos hc]
  split
  · exact Or.inl ⟨⟨_, rfl⟩, rfl⟩
  · rename_i hnot
    refine Or.inr ⟨fun hhead => ?_, rfl⟩
    obtain ⟨rest, hrest⟩ := List.head?_eq_some_iff.1 hhead
    exact hnot rest hrest

theorem isInlineBlank_newline : isInlineBlank '\n' = false := by decide

theorem ne_newline_of_isInlineBlank {c : Char} (hc : isInlineBlank c = true) : c ≠ '\n' := by
  rintro rfl
  cases isInlineBlank_newline.symm.trans hc

/-- Blanks are squeezed in each line by itself. -/
theorem lines_squeezeBlanks (s : List Char) :
    lines (squeezeBlanks s) = (lines s).map squeezeBlanks := by
  induction s with
  | nil => rfl
  | cons c s ih =>
    obtain ⟨l, ls, hlines⟩ := List.exists_cons_of_ne_nil (lines_ne_nil s)
    rw [hlines, List.map_cons] at ih
    by_cases hblank : isInlineBlank c = true
    · rw [lines_cons (ne_newline_of_isInlineBlank hblank), hlines, List.modifyHead_cons,
        List.map_cons]
      have hspace := head?_firstLine ih (c := ' ') (by decide)
      rcases squeezeBlanks_cons_cases hblank s with ⟨⟨rest, hrest⟩, hs⟩ | ⟨hnone, hs⟩
      · have hhead : (squeezeBlanks l).head? = some ' ' := hspace.2 (by rw [hrest]; rfl)
        rcases squeezeBlanks_cons_cases hblank l with ⟨-, hl⟩ | ⟨hnone, -⟩
        · rw [hs, hl, ih]
        · exact absurd hhead hnone
      · rcases squeezeBlanks_cons_cases hblank l with ⟨⟨rest, hrest⟩, -⟩ | ⟨-, hl⟩
        · exact absurd (hspace.1 (by rw [hrest]; rfl)) hnone
        · rw [hs, hl, lines_cons (by decide), ih, List.modifyHead_cons]
    · rw [Bool.not_eq_true] at hblank
      rw [squeezeBlanks_cons hblank]
      by_cases hnewline : c = '\n'
      · rw [hnewline, lines_newline_cons, lines_newline_cons, ih, hlines, List.map_cons,
          List.map_cons]
        rfl
      · rw [lines_cons hnewline, lines_cons hnewline, ih, hlines, List.modifyHead_cons,
          List.modifyHead_cons, List.map_cons, squeezeBlanks_cons hblank]

/-- The words of a text are not touched, whatever stands in front of it. -/
theorem words_append_squeezeBlanks (front s : List Char) :
    words (front ++ squeezeBlanks s) = words (front ++ s) := by
  induction s generalizing front with
  | nil => rfl
  | cons c s ih =>
    by_cases hblank : isInlineBlank c = true
    · have hc : isBlank c = true := (Bool.and_eq_true_iff.1 hblank).1
      have hs := ih []
      rw [List.nil_append, List.nil_append] at hs
      rw [words_append_blank hc, ← hs]
      rcases squeezeBlanks_cons_cases hblank s with ⟨⟨rest, hrest⟩, hsame⟩ | ⟨-, hspace⟩
      · rw [hsame, hrest, words_append_blank (by decide), words_blank_cons (by decide)]
      · rw [hspace, words_append_blank (by decide)]
    · rw [Bool.not_eq_true] at hblank
      rw [squeezeBlanks_cons hblank, List.append_cons, ih, ← List.append_cons]

theorem words_squeezeBlanks (s : List Char) : words (squeezeBlanks s) = words s :=
  words_append_squeezeBlanks [] s

theorem blanks_squeezeBlanks (s : List Char) :
    ∀ c ∈ squeezeBlanks s, isBlank c = true → c = ' ' ∨ c = '\n' := by
  induction s with
  | nil => exact List.forall_mem_nil _
  | cons c s ih =>
    by_cases hblank : isInlineBlank c = true
    · rcases squeezeBlanks_cons_cases hblank s with ⟨-, hs⟩ | ⟨-, hs⟩
      · rw [hs]
        exact ih
      · rw [hs]
        exact List.forall_mem_cons.2 ⟨fun _ => Or.inl rfl, ih⟩
    · rw [Bool.not_eq_true] at hblank
      rw [squeezeBlanks_cons hblank]
      refine List.forall_mem_cons.2 ⟨fun hc => Or.inr ?_, ih⟩
      simpa [isInlineBlank, hc] using hblank

theorem single_squeezeBlanks (s : List Char) : ¬ [' ', ' '] <:+: squeezeBlanks s := by
  induction s with
  | nil => decide
  | cons c s ih =>
    by_cases hblank : isInlineBlank c = true
    · rcases squeezeBlanks_cons_cases hblank s with ⟨-, hs⟩ | ⟨hnone, hs⟩
      · rwa [hs]
      · rw [hs, List.infix_cons_iff, List.cons_prefix_cons]
        rintro (⟨-, rest, hrest⟩ | h)
        · exact hnone (by rw [← hrest]; rfl)
        · exact ih h
    · rw [Bool.not_eq_true] at hblank
      rw [squeezeBlanks_cons hblank, List.infix_cons_iff, List.cons_prefix_cons]
      rintro (⟨rfl, -⟩ | h)
      · cases hblank
      · exact ih h

/-- A line with nothing but single spaces between its words. -/
structure SpacedLine (l : List Char) : Prop where
  blanks : ∀ c ∈ l, isBlank c = true → c = ' '
  single : ¬ [' ', ' '] <:+: l
  first : l.head? ≠ some ' '
  last : l.getLast? ≠ some ' '

/-- The words of a line with one space between them. -/
def respaced (l : List Char) : List Char := joinWith [' '] (words l)

theorem SpacedLine.respaced_eq {l : List Char} (h : SpacedLine l) : respaced l = l := by
  rw [respaced]
  induction l using induction_on_runs isBlank with
  | last w hw =>
    rw [words_of_forall hw]
    split
    · rename_i hnil
      exact hnil.symm
    · exact joinWith_singleton _ _
  | next w c rest hw hc ih =>
    obtain rfl := h.blanks c (by simp) hc
    -- Behind a single space there is a line of the same kind, and it is not empty.
    have hne : w ≠ [] := by
      rintro rfl
      exact h.first rfl
    have hrestNe : rest ≠ [] := by
      rintro rfl
      exact h.last (by simp)
    have hrest : SpacedLine rest := by
      refine ⟨fun c hc => h.blanks c (by simp [hc]), fun hpart => h.single ?_, ?_, ?_⟩
      · exact hpart.trans ⟨w ++ [' '], [], by simp⟩
      · intro hhead
        obtain ⟨rest', rfl⟩ := List.head?_eq_some_iff.1 hhead
        exact h.single ⟨w, rest', by simp⟩
      · intro hlast
        apply h.last
        rw [List.getLast?_append, List.getLast?_cons, hlast]
        rfl
    have hwords : words rest ≠ [] := by
      intro hnil
      have hself := ih hrest
      rw [hnil] at hself
      exact hrestNe hself.symm
    rw [words_append_blank hc, words_of_forall hw, if_neg hne, List.singleton_append,
      joinWith_cons _ _ hwords, ih hrest, List.append_assoc, List.singleton_append]

theorem newline_notMem_squeezeBlanks {l : List Char} (h : '\n' ∉ l) : '\n' ∉ squeezeBlanks l := by
  have hlines := lines_squeezeBlanks l
  rw [lines_of_notMem h] at hlines
  have hmem : squeezeBlanks l ∈ lines (squeezeBlanks l) := by simp [hlines]
  exact newline_notMem_of_mem_lines hmem

theorem spacedLine_trim_squeezeBlanks {l : List Char} (h : '\n' ∉ l) :
    SpacedLine (trim (squeezeBlanks l)) := by
  have hpart := trim_isInfix (squeezeBlanks l)
  have hstripped := isStripped_stripWhere isBlank (squeezeBlanks l)
  rw [← trim_eq_stripWhere] at hstripped
  refine ⟨?_, ?_, ?_, ?_⟩
  · intro c hc hblank
    have hmem := hpart.subset hc
    refine (blanks_squeezeBlanks l c hmem hblank).resolve_right ?_
    rintro rfl
    exact newline_notMem_squeezeBlanks h hmem
  · exact fun hspaces => single_squeezeBlanks l (hspaces.trans hpart)
  · exact fun hhead => absurd (hstripped.first ' ' hhead) (by decide)
  · exact fun hlast => absurd (hstripped.last ' ' hlast) (by decide)

/-- A line whose blanks were squeezed and that was trimmed is its words with one space
between them. -/
theorem trim_squeezeBlanks {l : List Char} (h : '\n' ∉ l) :
    trim (squeezeBlanks l) = respaced l := by
  rw [← (spacedLine_trim_squeezeBlanks h).respaced_eq, respaced, words_trim, words_squeezeBlanks,
    respaced]

/-! ## Newlines -/

theorem squeezeNewlines_cons {c : Char} (hc : c ≠ '\n') (s : List Char) :
    squeezeNewlines (c :: s) = c :: squeezeNewlines s := by
  rw [squeezeNewlines, List.foldr_cons]
  split
  · exact absurd rfl hc
  · rfl

/-- A newline stays, unless two newlines are there already. -/
theorem squeezeNewlines_newline_cases (s : List Char) :
    (∃ rest, squeezeNewlines s = '\n' :: '\n' :: rest) ∧
        squeezeNewlines ('\n' :: s) = squeezeNewlines s ∨
      ¬ ['\n', '\n'] <+: squeezeNewlines s ∧
        squeezeNewlines ('\n' :: s) = '\n' :: squeezeNewlines s := by
  obtain ⟨out, hout⟩ : ∃ out, squeezeNewlines s = out := ⟨_, rfl⟩
  have hfold := hout
  rw [squeezeNewlines] at hfold
  rw [hout, squeezeNewlines, List.foldr_cons, hfold]
  split
  · exact Or.inl ⟨⟨_, rfl⟩, rfl⟩
  · rename_i hnot
    refine Or.inr ⟨?_, rfl⟩
    rintro ⟨rest, hrest⟩
    exact hnot rest rfl hrest.symm

/-- Lines behind another one, with one empty line for every run of them.  At the end of
a text, where no line follows, a run of two is kept. -/
def closeUp : List (List Char) → List (List Char)
  | [] => []
  | l :: rest =>
    if l = [] ∧ (closeUp rest).head? = some [] ∧ 2 ≤ (closeUp rest).length then closeUp rest
    else l :: closeUp rest

theorem lines_squeezeNewlines {s l : List Char} {rest : List (List Char)}
    (h : lines s = l :: rest) : lines (squeezeNewlines s) = l :: closeUp rest := by
  induction s generalizing l rest with
  | nil =>
    obtain ⟨rfl, rfl⟩ := List.cons.inj h
    rfl
  | cons c s ih =>
    obtain ⟨l', rest', hlines⟩ := List.exists_cons_of_ne_nil (lines_ne_nil s)
    have hsqueezed := ih hlines
    by_cases hc : c = '\n'
    · rw [hc, lines_newline_cons, hlines] at h
      obtain ⟨rfl, rfl⟩ := List.cons.inj h
      rw [hc]
      rcases squeezeNewlines_newline_cases s with ⟨⟨more, hmore⟩, hs⟩ | ⟨hnot, hs⟩
      · -- Two newlines follow: the two lines that they end are empty, and there is a third.
        have htwo := hsqueezed
        rw [hmore, lines_newline_cons, lines_newline_cons] at htwo
        obtain ⟨hempty, hrest⟩ := List.cons.inj htwo
        have hlength := List.length_pos_iff.2 (lines_ne_nil more)
        rw [hs, hsqueezed, ← hempty, closeUp, if_pos]
        rw [← hrest]
        exact ⟨rfl, rfl, by rw [List.length_cons]; omega⟩
      · rw [hs, lines_newline_cons, hsqueezed, closeUp, if_neg]
        rintro ⟨rfl, hhead, hlength⟩
        obtain ⟨after, hafter⟩ := List.head?_eq_some_iff.1 hhead
        have hne : after ≠ [] := by
          rintro rfl
          rw [hafter] at hlength
          exact absurd hlength (by decide)
        apply hnot
        rw [← joinWith_lines (squeezeNewlines s), hsqueezed, hafter,
          joinWith_cons _ _ (List.cons_ne_nil _ _), joinWith_cons _ _ hne]
        exact List.prefix_append _ _
    · rw [lines_cons hc, hlines, List.modifyHead_cons] at h
      obtain ⟨rfl, rfl⟩ := List.cons.inj h
      rw [squeezeNewlines_cons hc, lines_cons hc, hsqueezed, List.modifyHead_cons]

/-- A gap with one empty line for every run of them. -/
def closeGap : List (List Char) → List (List Char)
  | [] => []
  | l :: rest =>
    if l = [] ∧ (closeGap rest).head? = some [] then closeGap rest else l :: closeGap rest

theorem closeGap_sublist (g : List (List Char)) : (closeGap g).Sublist g := by
  induction g with
  | nil => exact List.Sublist.slnil
  | cons l rest ih =>
    rw [closeGap]
    split
    · exact ih.cons l
    · exact ih.cons_cons l

theorem closeUp_sublist (ls : List (List Char)) : (closeUp ls).Sublist ls := by
  induction ls with
  | nil => exact List.Sublist.slnil
  | cons l rest ih =>
    rw [closeUp]
    split
    · exact ih.cons l
    · exact ih.cons_cons l

/-- Up to a line that is not empty the lines are closed up as a gap. -/
theorem closeUp_append_cons {l : List Char} (hl : l ≠ []) (g rest : List (List Char)) :
    closeUp (g ++ l :: rest) = closeGap g ++ l :: closeUp rest := by
  induction g with
  | nil =>
    rw [List.nil_append, closeUp, if_neg (fun h => hl h.1)]
    rfl
  | cons first g ih =>
    have hcond : (first = [] ∧ (closeGap g ++ l :: closeUp rest).head? = some [] ∧
        2 ≤ (closeGap g ++ l :: closeUp rest).length) ↔
          first = [] ∧ (closeGap g).head? = some [] := by
      cases closeGap g with
      | nil => simp [hl]
      | cons d g' => simp; omega
    rw [List.cons_append, closeUp, ih, closeGap]
    by_cases hempty : first = [] ∧ (closeGap g).head? = some []
    · rw [if_pos hempty, if_pos (hcond.2 hempty)]
    · rw [if_neg hempty, if_neg (fun h => hempty (hcond.1 h)), List.cons_append]

theorem ahead_closeUp (ls : List (List Char)) :
    ahead isFull (closeUp ls) = (ahead isFull ls).map closeGap := by
  induction ls using induction_on_runs isFull with
  | last g hg =>
    have hclosed := fun l hl => hg l ((closeUp_sublist g).mem hl)
    rw [ahead_of_forall hg, ahead_of_forall hclosed, List.map_nil]
  | next g l rest hg hl ih =>
    have hclosed := fun l hl => hg l ((closeGap_sublist g).mem hl)
    rw [closeUp_append_cons (ne_nil_of_isFull hl), ahead_append_cons hclosed hl, ih,
      ahead_append_cons hg hl, List.map_cons]

theorem gaps_squeezeNewlines (s : List Char) :
    gaps (squeezeNewlines s) = (gaps s).map closeGap := by
  obtain ⟨l, rest, hlines⟩ := List.exists_cons_of_ne_nil (lines_ne_nil s)
  rw [gaps, lines_squeezeNewlines hlines, gaps, hlines]
  cases hl : isFull l with
  | true => rw [between_cons_of_pos hl, between_cons_of_pos hl, ahead_closeUp]
  | false =>
    rw [between_cons_of_neg hl, between_cons_of_neg hl, between, ahead_closeUp, between,
      List.map_tail]

theorem filter_closeUp (ls : List (List Char)) :
    (closeUp ls).filter isFull = ls.filter isFull := by
  induction ls with
  | nil => rfl
  | cons l rest ih =>
    rw [closeUp]
    split
    · rename_i h
      rw [ih, h.1]
      rfl
    · rw [List.filter_cons, List.filter_cons, ih]

theorem fullLines_squeezeNewlines (s : List Char) :
    fullLines (squeezeNewlines s) = fullLines s := by
  obtain ⟨l, rest, hlines⟩ := List.exists_cons_of_ne_nil (lines_ne_nil s)
  rw [fullLines, lines_squeezeNewlines hlines, fullLines, hlines, List.filter_cons,
    List.filter_cons, filter_closeUp]

theorem closeGap_eq_nil_iff {g : List (List Char)} : closeGap g = [] ↔ g = [] := by
  cases g with
  | nil => exact iff_of_true rfl rfl
  | cons l rest =>
    rw [closeGap]
    split
    · rename_i h
      refine iff_of_false (fun hnil => ?_) (List.cons_ne_nil _ _)
      rw [hnil] at h
      cases h.2
    · exact iff_of_false (List.cons_ne_nil _ _) (List.cons_ne_nil _ _)

theorem closeGap_map {f : List Char → List Char} (h : ∀ l, f l = [] ↔ l = [])
    (g : List (List Char)) : closeGap (g.map f) = (closeGap g).map f := by
  induction g with
  | nil => rfl
  | cons l rest ih =>
    have hcond : (f l = [] ∧ ((closeGap rest).map f).head? = some []) ↔
        l = [] ∧ (closeGap rest).head? = some [] := by
      cases closeGap rest with
      | nil => simp
      | cons d g' => simp [h]
    rw [List.map_cons, closeGap, ih, closeGap]
    by_cases hempty : l = [] ∧ (closeGap rest).head? = some []
    · rw [if_pos hempty, if_pos (hcond.2 hempty)]
    · rw [if_neg hempty, if_neg (fun h => hempty (hcond.1 h)), List.map_cons]

theorem mem_closeGap {g : List (List Char)} {l : List Char} (h : l ∈ g) (hl : l ≠ []) :
    l ∈ closeGap g := by
  induction g with
  | nil => cases h
  | cons first rest ih =>
    rw [closeGap]
    split
    · rename_i hfirst
      exact ih ((List.mem_cons.1 h).resolve_left fun heq => hl (heq.trans hfirst.1))
    · exact List.mem_cons.2 ((List.mem_cons.1 h).imp_right ih)

theorem length_closeGap_of_forall {g : List (List Char)} (h : ∀ l ∈ g, l = []) :
    (closeGap g).length ≤ 1 := by
  induction g with
  | nil => exact Nat.zero_le 1
  | cons l rest ih =>
    obtain ⟨hl, hrest⟩ := List.forall_mem_cons.1 h
    rw [closeGap]
    split
    · exact ih hrest
    · rename_i hnot
      cases hclosed : closeGap rest with
      | nil => exact Nat.le_refl 1
      | cons d g' =>
        have hd : d = [] := hrest d ((closeGap_sublist rest).mem (by rw [hclosed]; simp))
        exact absurd ⟨hl, by rw [hclosed, hd]; rfl⟩ hnot

theorem exists_cons_cons_of_two_le {ls : List (List Char)} (h : 2 ≤ ls.length) :
    ∃ l l' rest, ls = l :: l' :: rest := by
  obtain ⟨l, ls, rfl⟩ := List.exists_cons_of_length_pos (Nat.lt_of_lt_of_le Nat.zero_lt_two h)
  obtain ⟨l', rest, rfl⟩ := List.exists_cons_of_length_pos (Nat.le_of_succ_le_succ h)
  exact ⟨l, l', rest, rfl⟩

/-- Two lines are left of a gap of two lines or more of which one is not empty. -/
theorem two_le_length_closeGap_iff {g : List (List Char)} :
    2 ≤ (closeGap g).length ↔ 2 ≤ g.length ∧ ∃ l ∈ g, l ≠ [] := by
  constructor
  · intro h
    refine ⟨h.trans (closeGap_sublist g).length_le, ?_⟩
    by_contra hnone
    have hle := length_closeGap_of_forall fun l hl => by_contra fun hne => hnone ⟨l, hl, hne⟩
    omega
  · rintro ⟨hlength, l, hl, hne⟩
    obtain ⟨first, second, g, rfl⟩ := exists_cons_cons_of_two_le hlength
    have hrest : closeGap (second :: g) ≠ [] := fun h => by cases closeGap_eq_nil_iff.1 h
    have hpos := List.length_pos_iff.2 hrest
    rw [closeGap]
    split
    · -- The first line is dropped for an empty one, so the full one is a second line.
      rename_i hempty
      have hmem := mem_closeGap ((List.mem_cons.1 hl).resolve_left
        fun heq => hne (heq.trans hempty.1)) hne
      obtain ⟨more, hmore⟩ := List.head?_eq_some_iff.1 hempty.2
      rw [hmore] at hmem ⊢
      have hmem' := (List.mem_cons.1 hmem).resolve_left hne
      have hpos' := List.length_pos_of_mem hmem'
      rw [List.length_cons]
      omega
    · rw [List.length_cons]
      omega

/-! ## Ends -/

theorem lines_trimLines (s : List Char) : lines (trimLines s) = (lines s).map trim := by
  refine lines_joinWith ?_ ?_
  · rw [ne_eq, List.map_eq_nil_iff]
    exact lines_ne_nil s
  · intro l hl
    obtain ⟨l', hl', rfl⟩ := List.mem_map.1 hl
    exact fun hmem => newline_notMem_of_mem_lines hl' ((trim_isInfix l').subset hmem)

theorem isBlank_of_mem_emptyLines {ls : List (List Char)} (h : ∀ l ∈ ls, l = []) :
    ∀ c ∈ joinWith ['\n'] ls, isBlank c = true := by
  intro c hc
  rcases mem_joinWith hc with hc | ⟨l, hl, hc⟩
  · rw [List.mem_singleton.1 hc]
    decide
  · rw [h l hl] at hc
    cases hc

/-- Empty lines around others add blanks around their text. -/
theorem exists_joinWith_around {lead core trail : List (List Char)} (hcore : core ≠ [])
    (hlead : ∀ l ∈ lead, l = []) (htrail : ∀ l ∈ trail, l = []) :
    ∃ front back, joinWith ['\n'] (lead ++ core ++ trail) =
        front ++ joinWith ['\n'] core ++ back ∧
      (∀ c ∈ front, isBlank c = true) ∧ ∀ c ∈ back, isBlank c = true := by
  have hnewline : ∀ c ∈ ['\n'], isBlank c = true := List.forall_mem_singleton.2 rfl
  have hfront : ∃ front, joinWith ['\n'] (lead ++ core) = front ++ joinWith ['\n'] core ∧
      ∀ c ∈ front, isBlank c = true := by
    by_cases hnil : lead = []
    · exact ⟨[], by rw [hnil]; rfl, List.forall_mem_nil _⟩
    · exact ⟨_, joinWith_append _ hnil hcore,
        List.forall_mem_append.2 ⟨isBlank_of_mem_emptyLines hlead, hnewline⟩⟩
  obtain ⟨front, hjoin, hblank⟩ := hfront
  by_cases hnil : trail = []
  · exact ⟨front, [], by rw [hnil, List.append_nil, List.append_nil, hjoin], hblank,
      List.forall_mem_nil _⟩
  · refine ⟨front, ['\n'] ++ joinWith ['\n'] trail, ?_, hblank,
      List.forall_mem_append.2 ⟨hnewline, isBlank_of_mem_emptyLines htrail⟩⟩
    rw [joinWith_append _ (List.append_ne_nil_of_right_ne_nil lead hcore) hnil, hjoin]
    simp only [List.append_assoc]

/-- Trimming a text whose lines are trimmed takes the empty lines off its ends. -/
theorem exists_lines_trim {s : List Char} (h : ∀ l ∈ lines s, trim l = l) :
    ∃ lead core trail, lines s = lead ++ core ++ trail ∧ (∀ l ∈ lead, l = []) ∧
      (∀ l ∈ trail, l = []) ∧ lines (trim s) = if core = [] then [[]] else core := by
  have hstripped := isStripped_stripWhere List.isEmpty (lines s)
  obtain ⟨lead, trail, hlines, hlead, htrail⟩ := hstripped.around
  have hfirst := hstripped.first
  have hlast := hstripped.last
  generalize stripWhere List.isEmpty (lines s) = core at hlines hfirst hlast
  simp only [List.isEmpty_iff] at hlead htrail
  refine ⟨lead, core, trail, hlines, hlead, htrail, ?_⟩
  by_cases hcore : core = []
  · have hempty : ∀ l ∈ lines s, l = [] := by
      rw [hlines, hcore, List.append_nil]
      exact List.forall_mem_append.2 ⟨hlead, htrail⟩
    have hblank := isBlank_of_mem_emptyLines hempty
    rw [joinWith_lines] at hblank
    rw [if_pos hcore, trim_eq_nil_iff.2 hblank, lines_nil]
  · obtain ⟨front, back, hjoin, hfront, hback⟩ := exists_joinWith_around hcore hlead htrail
    rw [← hlines, joinWith_lines] at hjoin
    have hmem : ∀ l ∈ core, l ∈ lines s := fun l hl => by simp [hlines, hl]
    have hcoreLines := lines_joinWith hcore fun l hl => newline_notMem_of_mem_lines (hmem l hl)
    have hline : ∀ l ∈ core, IsStripped isBlank l l := fun l hl =>
      isStripped_iff.2 (h l (hmem l hl))
    -- The first and the last line are not empty, and no blank is at their ends.
    have hends : IsStripped isBlank s (joinWith ['\n'] core) := by
      refine ⟨⟨front, back, hjoin, hfront, hback⟩, ?_, ?_⟩
      · obtain ⟨l, rest, rfl⟩ := List.exists_cons_of_ne_nil hcore
        rw [head?_joinWith _ (by simpa using hfirst l rfl)]
        exact (hline l List.mem_cons_self).first
      · obtain ⟨init, l, rfl⟩ := List.eq_nil_or_concat core |>.resolve_left hcore
        rw [List.concat_eq_append, getLast?_joinWith _ (by simpa using hlast l (by simp))]
        exact (hline l (by simp)).last
    have htrim : trim s = joinWith ['\n'] core := hends.eq
    rw [if_neg hcore, htrim, hcoreLines]

theorem gaps_trim {s : List Char} (h : ∀ l ∈ lines s, trim l = l) : gaps (trim s) = gaps s := by
  obtain ⟨lead, core, trail, hlines, hlead, htrail, htrim⟩ := exists_lines_trim h
  have hblank : ∀ l : List Char, l = [] → isFull l = false := by
    rintro l rfl
    rfl
  rw [gaps, htrim, gaps, hlines, between_append_append (fun l hl => hblank l (hlead l hl))
    (fun l hl => hblank l (htrail l hl))]
  split
  · rename_i hcore
    rw [hcore]
    rfl
  · rfl

theorem fullLines_trim {s : List Char} (h : ∀ l ∈ lines s, trim l = l) :
    fullLines (trim s) = fullLines s := by
  obtain ⟨lead, core, trail, hlines, hlead, htrail, htrim⟩ := exists_lines_trim h
  have hnone : ∀ ls : List (List Char), (∀ l ∈ ls, l = []) → ls.filter isFull = [] := by
    intro ls hls
    refine List.filter_eq_nil_iff.2 fun l hl => ?_
    rw [hls l hl]
    exact Bool.false_ne_true
  rw [fullLines, htrim, fullLines, hlines, List.filter_append, List.filter_append, hnone lead hlead,
    hnone trail htrail, List.nil_append, List.append_nil]
  split
  · rename_i hcore
    rw [hcore]
    rfl
  · rfl

/-! ## All passes -/

theorem trim_of_mem_lines_trimLines {s : List Char} : ∀ l ∈ lines (trimLines s), trim l = l := by
  intro l hl
  rw [lines_trimLines] at hl
  obtain ⟨l', -, rfl⟩ := List.mem_map.1 hl
  exact trim_trim l'

/-- A line of a reduced text is empty, or it comes from a line of the text. -/
theorem mem_lines_normalize {s l : List Char} (h : l ∈ lines (normalize s)) :
    l = [] ∨ ∃ l' ∈ lines s, l = trim (squeezeBlanks l') := by
  obtain ⟨lead, core, trail, hlines, -, -, htrim⟩ := exists_lines_trim
    (trim_of_mem_lines_trimLines (s := squeezeNewlines (squeezeBlanks s)))
  rw [normalize, htrim] at h
  split at h
  · exact Or.inl (List.mem_singleton.1 h)
  · right
    have hmem : l ∈ lines (trimLines (squeezeNewlines (squeezeBlanks s))) := by simp [hlines, h]
    rw [lines_trimLines] at hmem
    obtain ⟨l₁, hl₁, rfl⟩ := List.mem_map.1 hmem
    obtain ⟨first, rest, hfirst⟩ := List.exists_cons_of_ne_nil (lines_ne_nil (squeezeBlanks s))
    rw [lines_squeezeNewlines hfirst] at hl₁
    have hl₂ := ((closeUp_sublist rest).cons_cons first).mem hl₁
    rw [← hfirst, lines_squeezeBlanks] at hl₂
    obtain ⟨l', hl', rfl⟩ := List.mem_map.1 hl₂
    exact ⟨l', hl', rfl⟩

theorem isFull_trim (l : List Char) : isFull (trim l) = isFull l := isFull_congr (words_trim l)

theorem isFull_squeezeBlanks (l : List Char) : isFull (squeezeBlanks l) = isFull l :=
  isFull_congr (words_squeezeBlanks l)

theorem squeezeBlanks_eq_nil_iff {l : List Char} : squeezeBlanks l = [] ↔ l = [] := by
  cases l with
  | nil => exact iff_of_true rfl rfl
  | cons c l =>
    refine iff_of_false ?_ (List.cons_ne_nil c l)
    by_cases hblank : isInlineBlank c = true
    · rcases squeezeBlanks_cons_cases hblank l with ⟨⟨rest, hrest⟩, hs⟩ | ⟨-, hs⟩
      · rw [hs, hrest]
        exact List.cons_ne_nil _ _
      · rw [hs]
        exact List.cons_ne_nil _ _
    · rw [squeezeBlanks_cons (Bool.not_eq_true _ ▸ hblank)]
      exact List.cons_ne_nil _ _

/-- The full lines stay, each with one space between its words. -/
theorem fullLines_normalize (s : List Char) :
    fullLines (normalize s) = (fullLines s).map respaced := by
  have hfilter : ∀ {f : List Char → List Char}, (∀ l, isFull (f l) = isFull l) →
      ∀ ls : List (List Char), (ls.map f).filter isFull = (ls.filter isFull).map f := by
    intro f hf ls
    rw [List.filter_map]
    refine congrArg (List.map f) (List.filter_congr fun l _ => ?_)
    exact hf l
  rw [normalize, fullLines_trim trim_of_mem_lines_trimLines, fullLines, lines_trimLines,
    hfilter isFull_trim, ← fullLines, fullLines_squeezeNewlines, fullLines, lines_squeezeBlanks,
    hfilter isFull_squeezeBlanks, ← fullLines, List.map_map]
  refine List.map_congr_left fun l hl => ?_
  exact trim_squeezeBlanks (newline_notMem_of_mem_lines (List.mem_filter.1 hl).1)

/-- A gap becomes as many empty lines as closing it leaves. -/
theorem gaps_normalize (s : List Char) :
    gaps (normalize s) = (gaps s).map fun g => List.replicate (closeGap g).length [] := by
  rw [normalize, gaps_trim trim_of_mem_lines_trimLines, gaps, lines_trimLines,
    between_map isFull_trim, ← gaps, gaps_squeezeNewlines, gaps, lines_squeezeBlanks,
    between_map isFull_squeezeBlanks, ← gaps, List.map_map, List.map_map]
  refine List.map_congr_left fun g hg => ?_
  obtain ⟨-, -, -, -, -, -, -, hblank⟩ := mem_between_iff.1 hg
  show (closeGap (g.map squeezeBlanks)).map trim = _
  rw [closeGap_map (fun l => squeezeBlanks_eq_nil_iff), List.map_map]
  refine List.eq_replicate_iff.2 ⟨List.length_map _, ?_⟩
  intro l hl
  obtain ⟨l', hl', rfl⟩ := List.mem_map.1 hl
  have hfull := hblank l' ((closeGap_sublist g).mem hl')
  rw [← isFull_squeezeBlanks, isFull_eq_false_iff] at hfull
  exact trim_eq_nil_iff.2 hfull

end Intake.Text
