import Intake.Proofs.Text.Lines

/-!
# Gaps

A text is full lines with blank lines around them.  What stands between two full
lines that follow each other is a gap; it is empty where they are adjacent.

There are three groups.

* Runs.  `ahead` lists what stands in front of each element of a class, and
  `induction_on_runs` goes through a list from one such element to the next.
* Betweens.  `between` lists what stands between them, and `mem_between_iff` says
  where a list finds it.
* Texts.  `fullLines` and `gaps` are the two parts of a text.
-/

namespace Intake.Text

/-! ## Runs -/

section Runs

variable {α β : Type} {p : α → Bool} {q : β → Bool} {xs ys g rest : List α} {y : α}

/-- What stands in front of each element of a class, back to the one before it. -/
def ahead (p : α → Bool) (xs : List α) : List (List α) := (xs.splitOnP p).dropLast

theorem ahead_of_forall (h : ∀ a ∈ xs, p a = false) : ahead p xs = [] := by
  rw [ahead, List.splitOnP_eq_singleton h, List.dropLast_singleton]

theorem ahead_append_cons (hg : ∀ a ∈ g, p a = false) (hy : p y = true) :
    ahead p (g ++ y :: rest) = g :: ahead p rest := by
  rw [ahead, List.splitOnP_append_cons_of_forall_mem hg y hy,
    List.dropLast_cons_of_ne_nil (List.splitOnP_ne_nil p rest), ahead]

/-- A list has no element of a class, or it is a run of others, such an element and a
rest.  The induction is on the rest. -/
theorem induction_on_runs {motive : List α → Prop} (p : α → Bool)
    (last : ∀ g, (∀ a ∈ g, p a = false) → motive g)
    (next : ∀ g y rest, (∀ a ∈ g, p a = false) → p y = true → motive rest →
      motive (g ++ y :: rest)) (xs : List α) : motive xs := by
  have hrun : ∀ g, (∀ a ∈ g, p a = false) → motive (g ++ xs) := by
    induction xs with
    | nil =>
      intro g hg
      rw [List.append_nil]
      exact last g hg
    | cons a xs ih =>
      intro g hg
      by_cases ha : p a = true
      · exact next g a xs hg ha (ih [] (List.forall_mem_nil _))
      · have hlonger : ∀ b ∈ g ++ [a], p b = false :=
          List.forall_mem_append.2 ⟨hg, List.forall_mem_singleton.2 (by simpa using ha)⟩
        rw [List.append_cons]
        exact ih (g ++ [a]) hlonger
  exact hrun [] (List.forall_mem_nil _)

/-- What stands behind the last element of a class is ahead of none. -/
theorem ahead_append_of_forall (h : ∀ a ∈ ys, p a = false) (xs : List α) :
    ahead p (xs ++ ys) = ahead p xs := by
  induction xs using induction_on_runs p with
  | last g hg => rw [ahead_of_forall (List.forall_mem_append.2 ⟨hg, h⟩), ahead_of_forall hg]
  | next g y rest hg hy ih =>
    rw [List.append_assoc, List.cons_append, ahead_append_cons hg hy, ahead_append_cons hg hy, ih]

theorem ahead_map {f : α → β} (h : ∀ a, q (f a) = p a) (xs : List α) :
    ahead q (xs.map f) = (ahead p xs).map (List.map f) := by
  have hmap : ∀ {g : List α}, (∀ a ∈ g, p a = false) → ∀ b ∈ g.map f, q b = false := by
    intro g hg b hb
    obtain ⟨a, ha, rfl⟩ := List.mem_map.1 hb
    rw [h, hg a ha]
  induction xs using induction_on_runs p with
  | last g hg => rw [ahead_of_forall hg, ahead_of_forall (hmap hg), List.map_nil]
  | next g y rest hg hy ih =>
    rw [List.map_append, List.map_cons, ahead_append_cons (hmap hg) ((h y).trans hy),
      ahead_append_cons hg hy, List.map_cons, ih]

theorem exists_of_mem_ahead (h : g ∈ ahead p xs) :
    ∃ before y rest, xs = before ++ (g ++ y :: rest) ∧ p y = true ∧ (∀ a ∈ g, p a = false) ∧
      ∀ x ∈ before.getLast?, p x = true := by
  induction xs using induction_on_runs p with
  | last g' hg' =>
    rw [ahead_of_forall hg'] at h
    cases h
  | next g' y' rest' hg' hy' ih =>
    rw [ahead_append_cons hg' hy'] at h
    rcases List.mem_cons.1 h with rfl | h
    · exact ⟨[], y', rest', rfl, hy', hg', nofun⟩
    · obtain ⟨before, y, rest, rfl, hy, hg, hbefore⟩ := ih h
      refine ⟨g' ++ y' :: before, y, rest, by simp, hy, hg, ?_⟩
      intro x hx
      rw [List.getLast?_append, List.getLast?_cons, Option.some_or, Option.mem_some_iff] at hx
      cases hlast : before.getLast? with
      | none =>
        rw [hlast] at hx
        exact hx ▸ hy'
      | some x' =>
        rw [hlast] at hx
        exact hx ▸ hbefore x' hlast

end Runs

/-! ## Betweens -/

section Betweens

variable {α β : Type} {p : α → Bool} {q : β → Bool} {xs g : List α}

/-- What stands between each element of a class and the next one. -/
def between (p : α → Bool) (xs : List α) : List (List α) := (ahead p xs).tail

theorem between_map {f : α → β} (h : ∀ a, q (f a) = p a) (xs : List α) :
    between q (xs.map f) = (between p xs).map (List.map f) := by
  rw [between, ahead_map h, between, List.map_tail]

/-- What stands around all elements of a class is between none of them. -/
theorem between_append_append {lead trail : List α} (hlead : ∀ a ∈ lead, p a = false)
    (htrail : ∀ a ∈ trail, p a = false) (xs : List α) :
    between p (lead ++ xs ++ trail) = between p xs := by
  rw [between, ahead_append_of_forall htrail, between]
  induction xs using induction_on_runs p with
  | last g hg => rw [ahead_of_forall (List.forall_mem_append.2 ⟨hlead, hg⟩), ahead_of_forall hg]
  | next g y rest hg hy ih =>
    rw [← List.append_assoc, ahead_append_cons (List.forall_mem_append.2 ⟨hlead, hg⟩) hy,
      ahead_append_cons hg hy, List.tail_cons, List.tail_cons]

theorem between_cons_of_pos {a : α} (ha : p a = true) (xs : List α) :
    between p (a :: xs) = ahead p xs := by
  have hfirst : ahead p ([] ++ a :: xs) = [] :: ahead p xs :=
    ahead_append_cons (List.forall_mem_nil _) ha
  rw [List.nil_append] at hfirst
  rw [between, hfirst, List.tail_cons]

theorem between_cons_of_neg {a : α} (ha : p a = false) (xs : List α) :
    between p (a :: xs) = between p xs := by
  have haround := between_append_append (List.forall_mem_singleton.2 ha) (List.forall_mem_nil _) xs
  rwa [List.append_nil, List.singleton_append] at haround

theorem mem_between_iff : g ∈ between p xs ↔ ∃ before x y rest,
    xs = before ++ x :: (g ++ y :: rest) ∧ p x = true ∧ p y = true ∧ ∀ a ∈ g, p a = false := by
  constructor
  · intro h
    induction xs using induction_on_runs p with
    | last g' hg' =>
      rw [between, ahead_of_forall hg'] at h
      cases h
    | next g' x rest hg' hx ih =>
      rw [between, ahead_append_cons hg' hx, List.tail_cons] at h
      obtain ⟨before, y, rest', rfl, hy, hg, hbefore⟩ := exists_of_mem_ahead h
      rcases List.eq_nil_or_concat before with rfl | ⟨before', x', rfl⟩
      · exact ⟨g', x, y, rest', rfl, hx, hy, hg⟩
      · have hx' := hbefore x' (by simp)
        exact ⟨g' ++ x :: before', x', y, rest', by simp, hx', hy, hg⟩
  · rintro ⟨before, x, y, rest, rfl, hx, hy, hg⟩
    induction before using induction_on_runs p with
    | last g' hg' =>
      rw [between, ahead_append_cons hg' hx, List.tail_cons, ahead_append_cons hg hy]
      exact List.mem_cons_self
    | next g' y' rest' hg' hy' ih =>
      rw [List.append_assoc, List.cons_append, between, ahead_append_cons hg' hy', List.tail_cons]
      exact List.mem_of_mem_tail ih

/-- Elements of a class on both sides of others have these between them. -/
theorem exists_between_of_append {ys mid : List α} (hmid : ∀ a ∈ mid, p a = false)
    (hxs : ∃ a ∈ xs, p a = true) (hys : ∃ a ∈ ys, p a = true) :
    ∃ g ∈ between p (xs ++ mid ++ ys), mid <:+: g := by
  have hnone : ∀ {g : List α}, (∀ a ∈ g, p a = false) → ¬ ∃ a ∈ g, p a = true :=
    fun hg ⟨a, ha, hpos⟩ => Bool.false_ne_true ((hg a ha).symm.trans hpos)
  induction xs using induction_on_runs p with
  | last g hg => exact absurd hxs (hnone hg)
  | next g x rest hg hx ih =>
    rw [List.append_assoc, List.append_assoc, List.cons_append, between, ahead_append_cons hg hx,
      List.tail_cons, ← List.append_assoc]
    by_cases hrest : ∃ a ∈ rest, p a = true
    · obtain ⟨g', hg', hpart⟩ := ih hrest
      exact ⟨g', List.mem_of_mem_tail hg', hpart⟩
    · have hrest' : ∀ a ∈ rest, p a = false :=
        fun a ha => Bool.eq_false_iff.2 fun hpos => hrest ⟨a, ha, hpos⟩
      cases ys using induction_on_runs p with
      | last g' hg' => exact absurd hys (hnone hg')
      | next g' y rest' hg' hy =>
        have hgap := List.forall_mem_append.2 ⟨List.forall_mem_append.2 ⟨hrest', hmid⟩, hg'⟩
        rw [← List.append_assoc, ahead_append_cons hgap hy]
        exact ⟨_, List.mem_cons_self, rest, g', rfl⟩

end Betweens

/-! ## Texts -/

/-- Whether a line holds something beside blanks. -/
def isFull (l : List Char) : Bool := ! allBlank l

theorem isFull_iff {l : List Char} : isFull l = true ↔ ∃ c ∈ l, isBlank c = false := by
  simp [isFull, allBlank]

theorem isFull_eq_false_iff {l : List Char} : isFull l = false ↔ ∀ c ∈ l, isBlank c = true := by
  simp [isFull, allBlank]

theorem ne_nil_of_isFull {l : List Char} (h : isFull l = true) : l ≠ [] := by
  rintro rfl
  cases h

/-- A line is full if it has a word. -/
theorem isFull_iff_words_ne_nil {l : List Char} : isFull l = true ↔ words l ≠ [] := by
  have hrun : ∀ w : List Char, (∀ c ∈ w, isBlank c = false) →
      (isFull w = true ↔ words w ≠ []) := by
    intro w hw
    rw [words_of_forall hw, isFull_iff]
    cases w with
    | nil => simp
    | cons c w => exact iff_of_true ⟨c, List.mem_cons_self, hw c List.mem_cons_self⟩ (by simp)
  induction l using induction_on_runs isBlank with
  | last w hw => exact hrun w hw
  | next w c rest hw hc ih =>
    have hsplit : isFull (w ++ c :: rest) = true ↔ isFull w = true ∨ isFull rest = true := by
      simp [isFull, allBlank, hc]
    have hrest : isFull rest = true ↔ words rest ≠ [] := ih
    rw [hsplit, hrun w hw, hrest, words_append_blank hc]
    simp only [ne_eq, List.append_eq_nil_iff, not_and_or]

theorem isFull_congr {l l' : List Char} (h : words l = words l') : isFull l = isFull l' := by
  rw [Bool.eq_iff_iff, isFull_iff_words_ne_nil, isFull_iff_words_ne_nil, h]

/-- The lines of a text that are not blank. -/
def fullLines (s : List Char) : List (List Char) := (lines s).filter isFull

/-- The blank lines between each full line of a text and the next one. -/
def gaps (s : List Char) : List (List (List Char)) := between isFull (lines s)

example : gaps "\na\nb\n \n\nc\n".toList = [[], [[' '], []]] := by decide

end Intake.Text
