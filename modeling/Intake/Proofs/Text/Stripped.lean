import Intake.Text.Prose
import Mathlib.Data.List.DropRight

/-!
# Stripped texts

What is left of a text when the blanks at both of its ends are taken off.

* `IsStripped` says which part of a list that is.
* `isStripped_iff` says that dropping from both ends leaves this part and no other.
* `trim_eq_stripWhere` and `Prose.trim_eq_stripWhere` are the cases of a text and of a string.
-/

namespace Intake.Text

variable {α : Type} {p : α → Bool} {s t lead trail : List α}

/-- A part of a list with nothing but elements of a class around it, and with no such
element at its own ends. -/
structure IsStripped (p : α → Bool) (s t : List α) : Prop where
  around : ∃ lead trail, s = lead ++ t ++ trail ∧ (∀ a ∈ lead, p a = true) ∧
    ∀ a ∈ trail, p a = true
  first : ∀ a ∈ t.head?, p a = false
  last : ∀ a ∈ t.getLast?, p a = false

/-- Drops the elements of a class at both ends. -/
def stripWhere (p : α → Bool) (s : List α) : List α := (s.dropWhile p).rdropWhile p

theorem dropWhile_of_head? (h : ∀ a ∈ s.head?, p a = false) : s.dropWhile p = s := by
  cases s with
  | nil => rfl
  | cons a s => exact List.dropWhile_cons_of_neg (by simp [h a rfl])

theorem head?_dropWhile (p : α → Bool) (s : List α) : ∀ a ∈ (s.dropWhile p).head?, p a = false := by
  intro a ha
  have hnot := List.head?_dropWhile_not p s
  rw [Option.mem_def.1 ha] at hnot
  simpa using hnot

theorem isStripped_stripWhere (p : α → Bool) (s : List α) : IsStripped p s (stripWhere p s) := by
  have hsplit : stripWhere p s ++ (s.dropWhile p).rtakeWhile p = s.dropWhile p :=
    List.rdropWhile_append_rtakeWhile
  refine ⟨⟨s.takeWhile p, (s.dropWhile p).rtakeWhile p, ?_, fun a ha => List.mem_takeWhile_imp ha,
    fun a ha => List.mem_rtakeWhile_imp ha⟩, ?_, ?_⟩
  · rw [List.append_assoc, hsplit, List.takeWhile_append_dropWhile]
  · intro a ha
    apply head?_dropWhile p s
    rw [← hsplit, List.head?_append, Option.mem_def.1 ha]
    rfl
  · intro a ha
    rw [stripWhere, List.rdropWhile, List.getLast?_reverse] at ha
    exact head?_dropWhile p _ a ha

theorem IsStripped.eq (h : IsStripped p s t) : stripWhere p s = t := by
  obtain ⟨lead, trail, rfl, hlead, htrail⟩ := h.around
  have hrear : (t ++ trail).rdropWhile p = t := by
    have hreverse : t.reverse.dropWhile p = t.reverse :=
      dropWhile_of_head? (by simpa using h.last)
    rw [List.rdropWhile, List.reverse_append, List.dropWhile_append_of_pos (by simpa using htrail),
      hreverse, List.reverse_reverse]
  rw [stripWhere, List.append_assoc, List.dropWhile_append_of_pos hlead]
  cases t with
  | nil =>
    rw [List.nil_append, List.dropWhile_eq_nil_iff.2 htrail]
    rfl
  | cons a t =>
    have hfirst : ¬ p a = true := by simp [h.first a rfl]
    rw [List.cons_append, List.dropWhile_cons_of_neg hfirst]
    exact hrear

theorem isStripped_iff : IsStripped p s t ↔ stripWhere p s = t :=
  ⟨IsStripped.eq, fun h => h ▸ isStripped_stripWhere p s⟩

theorem stripWhere_eq_self (hfirst : ∀ a ∈ s.head?, p a = false)
    (hlast : ∀ a ∈ s.getLast?, p a = false) : stripWhere p s = s :=
  IsStripped.eq ⟨⟨[], [], (List.append_nil _).symm, List.forall_mem_nil _, List.forall_mem_nil _⟩,
    hfirst, hlast⟩

theorem stripWhere_stripWhere (p : α → Bool) (s : List α) :
    stripWhere p (stripWhere p s) = stripWhere p s :=
  stripWhere_eq_self (isStripped_stripWhere p s).first (isStripped_stripWhere p s).last

theorem stripWhere_isInfix (p : α → Bool) (s : List α) : stripWhere p s <:+: s := by
  obtain ⟨lead, trail, hs, -⟩ := (isStripped_stripWhere p s).around
  exact ⟨lead, trail, hs.symm⟩

/-- A part without such elements is all that is left of the list around it. -/
theorem stripWhere_between (hlead : ∀ a ∈ lead, p a = true) (ht : ∀ a ∈ t, p a = false)
    (htrail : ∀ a ∈ trail, p a = true) : stripWhere p (lead ++ t ++ trail) = t :=
  IsStripped.eq ⟨⟨lead, trail, rfl, hlead, htrail⟩, fun a ha => ht a (List.mem_of_mem_head? ha),
    fun a ha => ht a (List.mem_of_getLast? ha)⟩

theorem stripWhere_eq_nil_iff : stripWhere p s = [] ↔ ∀ a ∈ s, p a = true := by
  rw [stripWhere, List.rdropWhile_eq_nil_iff]
  constructor
  · intro h a ha
    rw [← List.takeWhile_append_dropWhile (p := p) (l := s)] at ha
    rcases List.mem_append.1 ha with ha | ha
    · exact List.mem_takeWhile_imp ha
    · exact h a ha
  · intro h a ha
    exact h a ((List.dropWhile_sublist _).mem ha)

theorem trim_eq_stripWhere (s : List Char) : trim s = stripWhere isBlank s := rfl

theorem trim_eq_nil_iff {s : List Char} : trim s = [] ↔ ∀ c ∈ s, isBlank c = true :=
  stripWhere_eq_nil_iff

theorem trim_trim (s : List Char) : trim (trim s) = trim s := stripWhere_stripWhere isBlank s

theorem trim_isInfix (s : List Char) : trim s <:+: s := stripWhere_isInfix isBlank s

theorem Prose.trim_eq_stripWhere (q : Prose) : q.trim = stripWhere isBlankGlyph q := rfl

end Intake.Text
