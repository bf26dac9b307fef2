import Intake.Proofs.Text.Passes

/-!
# The normal spacing

What the reduction of a text leaves, and which texts it leaves as they are.

There are five groups.

* Forms.  `Spaced` and `Normal` describe the normal spacing, and `isNormal_iff` says
  that `isNormal` looks for it.
* Newlines.  `newlines_infix_iff` finds the runs of newlines of a spaced text among
  its gaps.
* One reduction.  `spaced_normalize` says what every reduced text has, and
  `normal_normalize_iff` which texts become normal.
* Fixed points.  `normalize_eq_self_iff` says that these are the normal texts.
* Results.  `normalize_reaches` and `normalize_keeps`.
-/

namespace Intake.Text

/-! ## Forms -/

/-- Words of a line are separated by one space, and nothing else stands around them. -/
structure Spaced (s : List Char) : Prop where
  blanks : ∀ c ∈ s, isBlank c = true → c = ' ' ∨ c = '\n'
  single : ¬ [' ', ' '] <:+: s
  starts : ∀ l ∈ lines s, l.head? ≠ some ' '
  ends : ∀ l ∈ lines s, l.getLast? ≠ some ' '
  first : s.head? ≠ some '\n'
  last : s.getLast? ≠ some '\n'

/-- The normal spacing has at most one blank line between two lines. -/
structure Normal (s : List Char) : Prop extends Spaced s where
  sparse : ¬ ['\n', '\n', '\n'] <:+: s

section Forms

variable {s l : List Char}

theorem Spaced.line (h : Spaced s) (hl : l ∈ lines s) : SpacedLine l where
  blanks := by
    intro c hc hblank
    refine (h.blanks c ((infix_of_mem_lines hl).subset hc) hblank).resolve_right ?_
    rintro rfl
    exact newline_notMem_of_mem_lines hl hc
  single := fun hpart => h.single (hpart.trans (infix_of_mem_lines hl))
  first := h.starts l hl
  last := h.ends l hl

theorem spaced_of_lines (h : ∀ l ∈ lines s, SpacedLine l) (hfirst : s.head? ≠ some '\n')
    (hlast : s.getLast? ≠ some '\n') : Spaced s where
  blanks := by
    intro c hc hblank
    by_cases hnewline : c = '\n'
    · exact Or.inr hnewline
    · obtain ⟨l, hl, hcl⟩ := exists_line_of_mem hc hnewline
      exact Or.inl ((h l hl).blanks c hcl hblank)
  single := by
    intro hpart
    obtain ⟨l, hl, hline⟩ := exists_line_of_infix (by decide) hpart
    exact (h l hl).single hline
  starts := fun l hl => (h l hl).first
  ends := fun l hl => (h l hl).last
  first := hfirst
  last := hlast

theorem Spaced.head (h : Spaced s) : ∀ c ∈ s.head?, isBlank c = false := by
  intro c hc
  by_contra hblank
  rcases h.blanks c (List.mem_of_mem_head? hc) (by simpa using hblank) with rfl | rfl
  · obtain ⟨l, hl, hline⟩ := (exists_line_head_iff (by decide)).2 (Or.inl hc)
    exact h.starts l hl hline
  · exact h.first hc

theorem Spaced.getLast (h : Spaced s) : ∀ c ∈ s.getLast?, isBlank c = false := by
  intro c hc
  by_contra hblank
  rcases h.blanks c (List.mem_of_getLast? hc) (by simpa using hblank) with rfl | rfl
  · obtain ⟨l, hl, hline⟩ := (exists_line_getLast_iff (by decide)).2 (Or.inl hc)
    exact h.ends l hl hline
  · exact h.last hc

theorem occursIn_iff {pattern : List Char} : occursIn pattern s = true ↔ pattern <:+: s := by
  induction s with
  | nil => simp [occursIn]
  | cons c s ih =>
    rw [occursIn, Bool.or_eq_true, List.isPrefixOf_iff_prefix, ih, List.infix_cons_iff]

theorem isNormal_iff : isNormal s = true ↔ Normal s := by
  have hblank : ∀ o : Option Char, o.all (! isBlank ·) = true ↔ ∀ c ∈ o, isBlank c = false := by
    intro o
    cases o <;> simp
  simp only [isNormal, Bool.and_eq_true, List.all_eq_true, Bool.not_eq_true', Bool.eq_false_iff,
    ne_eq, occursIn_iff, hblank]
  constructor
  · rintro ⟨⟨⟨⟨⟨⟨hblanks, hsingle⟩, hends⟩, hstarts⟩, hsparse⟩, hhead⟩, hlast⟩
    refine ⟨⟨?_, hsingle, ?_, ?_, ?_, ?_⟩, hsparse⟩
    · intro c hc hblank
      simpa [hblank] using hblanks c hc
    · intro l hl hline
      rcases (exists_line_head_iff (by decide)).1 ⟨l, hl, hline⟩ with h | h
      · exact absurd (hhead _ h) (by decide)
      · exact hstarts h
    · intro l hl hline
      rcases (exists_line_getLast_iff (by decide)).1 ⟨l, hl, hline⟩ with h | h
      · exact absurd (hlast _ h) (by decide)
      · exact hends h
    · exact fun h => absurd (hhead _ h) (by decide)
    · exact fun h => absurd (hlast _ h) (by decide)
  · intro h
    refine ⟨⟨⟨⟨⟨⟨?_, h.single⟩, ?_⟩, ?_⟩, h.sparse⟩, ?_⟩, ?_⟩
    · intro c hc
      have hc' := h.blanks c hc
      cases hb : isBlank c <;> simp_all
    · intro hpart
      obtain ⟨l, hl, hline⟩ := (exists_line_getLast_iff (by decide)).2 (Or.inr hpart)
      exact h.ends l hl hline
    · intro hpart
      obtain ⟨l, hl, hline⟩ := (exists_line_head_iff (by decide)).2 (Or.inr hpart)
      exact h.starts l hl hline
    · exact fun c hc => Bool.eq_false_iff.1 (h.head c hc)
    · exact fun c hc => Bool.eq_false_iff.1 (h.getLast c hc)

instance : DecidablePred Normal := fun _ => decidable_of_iff _ isNormal_iff

end Forms

/-! ## Newlines -/

theorem SpacedLine.eq_nil {l : List Char} (h : SpacedLine l) (hl : isFull l = false) : l = [] := by
  cases l with
  | nil => rfl
  | cons c l =>
    have hc := h.blanks c List.mem_cons_self (isFull_eq_false_iff.1 hl c List.mem_cons_self)
    exact absurd (congrArg some hc) h.first

theorem Spaced.eq_nil_of_mem_gap {s l : List Char} {g : List (List Char)} (h : Spaced s)
    (hg : g ∈ gaps s) (hl : l ∈ g) : l = [] := by
  obtain ⟨before, x, y, rest, hlines, -, -, hblank⟩ := mem_between_iff.1 hg
  exact (h.line (by simp [hlines, hl])).eq_nil (hblank l hl)

/-- In a spaced text three newlines in a row are a gap of two lines. -/
theorem newlines_infix_iff {s : List Char} (h : Spaced s) :
    ['\n', '\n', '\n'] <:+: s ↔ ∃ g ∈ gaps s, 2 ≤ g.length := by
  constructor
  · rintro ⟨a, b, rfl⟩
    have hlines : lines (a ++ ['\n', '\n', '\n'] ++ b) = lines a ++ [[], []] ++ lines b := by
      rw [List.append_assoc, List.cons_append, lines_append_newline, List.cons_append,
        lines_newline_cons, List.cons_append, lines_newline_cons, List.append_assoc]
      rfl
    -- The text has no newline at its ends, so there are full lines on both sides.
    have hfull : ∀ {t : List Char} {c : Char}, c ∈ t → isBlank c = false →
        ∃ l ∈ lines t, isFull l = true := by
      intro t c hc hblank
      have hne : c ≠ '\n' := by
        rintro rfl
        cases hblank
      obtain ⟨l, hl, hcl⟩ := exists_line_of_mem hc hne
      exact ⟨l, hl, isFull_iff.2 ⟨c, hcl, hblank⟩⟩
    have hbefore : ∃ l ∈ lines a, isFull l = true := by
      cases a with
      | nil => exact absurd rfl h.first
      | cons c a => exact hfull List.mem_cons_self (h.head c rfl)
    have hbehind : ∃ l ∈ lines b, isFull l = true := by
      rcases List.eq_nil_or_concat b with rfl | ⟨b, c, rfl⟩
      · exact absurd (by simp) h.last
      · rw [List.concat_eq_append] at h ⊢
        have hlast : c ∈ (a ++ ['\n', '\n', '\n'] ++ (b ++ [c])).getLast? := by
          rw [← List.append_assoc, List.getLast?_concat]
          rfl
        exact hfull (by simp) (h.getLast c hlast)
    have hempty : ∀ l ∈ [[], []], isFull l = false := by decide
    obtain ⟨g, hg, hpart⟩ := exists_between_of_append hempty hbefore hbehind
    exact ⟨g, by rwa [gaps, hlines], hpart.length_le⟩
  · rintro ⟨g, hg, hlength⟩
    have hempty := fun l => h.eq_nil_of_mem_gap (l := l) hg
    obtain ⟨before, x, y, rest, hlines, -, -, -⟩ := mem_between_iff.1 hg
    obtain ⟨l, l', g, rfl⟩ := exists_cons_cons_of_two_le hlength
    obtain rfl := hempty l (by simp)
    obtain rfl := hempty l' (by simp)
    have hjoin : s = joinWith ['\n'] (before ++ [x]) ++ ['\n'] ++
        ([] ++ ['\n'] ++ ([] ++ ['\n'] ++ joinWith ['\n'] (g ++ y :: rest))) := by
      rw [← joinWith_cons _ _ (by simp), ← joinWith_cons _ _ (by simp),
        ← joinWith_append _ (by simp) (by simp), ← joinWith_lines s, hlines]
      simp
    rw [hjoin]
    exact ⟨joinWith ['\n'] (before ++ [x]), joinWith ['\n'] (g ++ y :: rest), by simp⟩

/-! ## One reduction -/

theorem spaced_normalize (s : List Char) : Spaced (normalize s) := by
  have hstripped : IsStripped isBlank (trimLines (squeezeNewlines (squeezeBlanks s)))
      (normalize s) := isStripped_stripWhere isBlank _
  refine spaced_of_lines (fun l hl => ?_) ?_ ?_
  · rcases mem_lines_normalize hl with rfl | ⟨l', hl', rfl⟩
    · exact ⟨List.forall_mem_nil _, by decide, nofun, nofun⟩
    · exact spacedLine_trim_squeezeBlanks (newline_notMem_of_mem_lines hl')
  · exact fun h => absurd (hstripped.first _ h) (by decide)
  · exact fun h => absurd (hstripped.last _ h) (by decide)

/-- Two full lines with two blank lines or more between them of which one is not empty. -/
def Ragged (s : List Char) : Prop := ∃ g ∈ gaps s, 2 ≤ g.length ∧ ∃ l ∈ g, l ≠ []

/-- Every text becomes normal except a ragged one. -/
theorem normal_normalize_iff {s : List Char} : Normal (normalize s) ↔ ¬ Ragged s := by
  have hwide : ['\n', '\n', '\n'] <:+: normalize s ↔ Ragged s := by
    rw [newlines_infix_iff (spaced_normalize s), gaps_normalize, Ragged]
    simp only [List.mem_map, exists_exists_and_eq_and, List.length_replicate,
      two_le_length_closeGap_iff]
  rw [← hwide]
  exact ⟨Normal.sparse, fun h => ⟨spaced_normalize s, h⟩⟩

theorem Spaced.not_ragged {s : List Char} (h : Spaced s) : ¬ Ragged s := by
  rintro ⟨g, hg, -, l, hl, hne⟩
  exact hne (h.eq_nil_of_mem_gap hg hl)

/-! ## Fixed points -/

theorem squeezeBlanks_eq_self {s : List Char}
    (hblanks : ∀ c ∈ s, isBlank c = true → c = ' ' ∨ c = '\n') (hsingle : ¬ [' ', ' '] <:+: s) :
    squeezeBlanks s = s := by
  induction s with
  | nil => rfl
  | cons c s ih =>
    obtain ⟨hc, hrest⟩ := List.forall_mem_cons.1 hblanks
    have hs := ih hrest fun h => hsingle (List.infix_cons h)
    by_cases hblank : isInlineBlank c = true
    · obtain rfl := (hc (Bool.and_eq_true_iff.1 hblank).1).resolve_right
        (ne_newline_of_isInlineBlank hblank)
      rcases squeezeBlanks_cons_cases hblank s with ⟨⟨rest, hspace⟩, -⟩ | ⟨-, hcons⟩
      · rw [hs] at hspace
        exact absurd ⟨[], rest, by rw [hspace]; rfl⟩ hsingle
      · rw [hcons, hs]
    · rw [squeezeBlanks_cons (Bool.eq_false_iff.2 hblank), hs]

theorem squeezeNewlines_eq_self {s : List Char} (hsparse : ¬ ['\n', '\n', '\n'] <:+: s) :
    squeezeNewlines s = s := by
  induction s with
  | nil => rfl
  | cons c s ih =>
    have hs := ih fun h => hsparse (List.infix_cons h)
    by_cases hc : c = '\n'
    · subst hc
      rcases squeezeNewlines_newline_cases s with ⟨⟨rest, hmore⟩, -⟩ | ⟨-, hcons⟩
      · rw [hs] at hmore
        exact absurd ⟨[], rest, by rw [hmore]; rfl⟩ hsparse
      · rw [hcons, hs]
    · rw [squeezeNewlines_cons hc, hs]

theorem SpacedLine.trim_eq {l : List Char} (h : SpacedLine l) : trim l = l := by
  refine stripWhere_eq_self ?_ ?_
  · intro c hc
    by_contra hblank
    have hspace := h.blanks c (List.mem_of_mem_head? hc) (by simpa using hblank)
    exact h.first (hspace ▸ hc)
  · intro c hc
    by_contra hblank
    have hspace := h.blanks c (List.mem_of_getLast? hc) (by simpa using hblank)
    exact h.last (hspace ▸ hc)

theorem Normal.normalize_eq {s : List Char} (h : Normal s) : normalize s = s := by
  have hlines : trimLines s = s := by
    have hmap : (lines s).map trim = (lines s).map id :=
      List.map_congr_left fun l hl => (h.line hl).trim_eq
    rw [List.map_id] at hmap
    rw [trimLines, hmap, joinWith_lines]
  rw [normalize, squeezeBlanks_eq_self h.blanks h.single, squeezeNewlines_eq_self h.sparse, hlines]
  exact stripWhere_eq_self h.head h.getLast

/-- The reduction leaves exactly the normal texts as they are. -/
theorem normalize_eq_self_iff {s : List Char} : normalize s = s ↔ Normal s := by
  constructor
  · intro h
    have hspaced := spaced_normalize s
    rw [h] at hspaced
    have hnormal := normal_normalize_iff.2 hspaced.not_ragged
    rwa [h] at hnormal
  · exact Normal.normalize_eq

/-! ## Results -/

/-- What one reduction reaches.  It does away with every blank that the normal spacing does
not have; where the text is ragged, and only there, it leaves too many newlines in a row and
a second reduction changes the text again.  Two reductions are always enough. -/
theorem normalize_reaches (s : List Char) :
    Spaced (normalize s) ∧ (Normal (normalize s) ↔ ¬ Ragged s) ∧
      (normalize (normalize s) = normalize s ↔ ¬ Ragged s) ∧
      Normal (normalize (normalize s)) := by
  have htwice : Normal (normalize (normalize s)) :=
    normal_normalize_iff.2 (spaced_normalize s).not_ragged
  exact ⟨spaced_normalize s, normal_normalize_iff,
    normalize_eq_self_iff.trans normal_normalize_iff, htwice⟩

/-- Two blank lines of which one holds a space are left as two blank lines. -/
theorem not_normal_normalize :
    (¬ ∀ s : List Char, Normal (normalize s)) ∧
      ¬ ∀ s : List Char, normalize (normalize s) = normalize s := by
  have hleft : ¬ Normal (normalize "a\n \n\nb".toList) := by decide
  exact ⟨fun h => hleft (h _), fun h => hleft (normalize_eq_self_iff.1 (h _))⟩

/-- What one reduction keeps.  The full lines stay, in order and with their words; a gap
stays where there was one and opens nowhere else; the normal texts are left as they are. -/
theorem normalize_keeps (s : List Char) :
    fullLines (normalize s) = (fullLines s).map respaced ∧
      (gaps (normalize s)).map List.isEmpty = (gaps s).map List.isEmpty ∧
      (normalize s = s ↔ Normal s) := by
  refine ⟨fullLines_normalize s, ?_, normalize_eq_self_iff⟩
  rw [gaps_normalize, List.map_map]
  refine List.map_congr_left fun g _ => ?_
  rw [Function.comp_apply, Bool.eq_iff_iff, List.isEmpty_iff, List.isEmpty_iff,
    List.replicate_eq_nil_iff, List.length_eq_zero_iff, closeGap_eq_nil_iff]

end Intake.Text
