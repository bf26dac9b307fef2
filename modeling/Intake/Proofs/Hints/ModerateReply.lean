import Intake.Proofs.Hints.Readable

/-!
# Moderate replies

A reply whose numbers are all below `10 ^ 26` is never too large to be
read: every amount and every interval in it is rounded without a fault.

There are two groups.

* The numbers of a reply.  `Json.Holds` is the relation between a value and
  the values inside it, and `Json.Moderate` and `Reply.Moderate` bound every
  number of a value and of a reply.
* Reading.  `not_overflows_of_moderate` says that none of these numbers is
  too large, and `read_ne_overflow` is the result.
-/

namespace Intake

open Number

/-! ## The numbers of a reply -/

/-- A value holds itself and whatever its items and members hold. -/
inductive Json.Holds : Json → Json → Prop where
  | self (v : Json) : Holds v v
  | item {items : List Json} {v u : Json} (hv : v ∈ items) (hu : Holds v u) :
      Holds (.arr items) u
  | member {members : Json.Members} {name : Text.Prose} {v u : Json}
      (hv : (name, v) ∈ members) (hu : Holds v u) : Holds (.obj members) u

/-- Not a number of magnitude `10 ^ 26` or more.  Infinities and doubles
that are no numbers have no magnitude. -/
def Json.IsSmall : Json → Prop
  | .int n => n.natAbs < 10 ^ 26
  | .double x => ∀ b, Binary.ofFloat? x = some b → b.magnitude < 10 ^ 26
  | _ => True

/-- A value without any number of magnitude `10 ^ 26` or more. -/
def Json.Moderate (v : Json) : Prop := ∀ u, v.Holds u → u.IsSmall

/-- A reply without any number of magnitude `10 ^ 26` or more.  A reply
that is no object holds no amount at all. -/
def Reply.Moderate (text : String) : Prop :=
  ∀ members, Reply.decode text.toList = .ok members → (Json.obj members).Moderate

theorem Json.Moderate.item {items : List Json} (h : (Json.arr items).Moderate) {v : Json}
    (hv : v ∈ items) : v.Moderate := fun u hu => h u (.item hv hu)

theorem Json.Moderate.member {members : Json.Members} (h : (Json.obj members).Moderate)
    {name : Text.Prose} {v : Json} (hv : (name, v) ∈ members) : v.Moderate :=
  fun u hu => h u (.member hv hu)

theorem Json.Moderate.isSmall {v : Json} (h : v.Moderate) : v.IsSmall := h v (.self v)

theorem mem_of_member?_eq_some {members : Json.Members} {name : String} {v : Json}
    (h : Json.member? members name = some v) : ∃ p, (p, v) ∈ members := by
  simp only [Json.member?, Option.map_eq_some_iff] at h
  obtain ⟨⟨p, w⟩, hfind, hw⟩ := h
  have hmem := List.mem_of_find?_eq_some hfind
  rw [List.mem_reverse] at hmem
  have hwv : w = v := hw
  subst hwv
  exact ⟨p, hmem⟩

theorem moderate_member? {members : Json.Members} (h : (Json.obj members).Moderate)
    {name : String} {v : Json} (hv : Json.member? members name = some v) : v.Moderate := by
  obtain ⟨p, hp⟩ := mem_of_member?_eq_some hv
  exact h.member hp

/-! ## Reading -/

namespace Quantity

/-- The bound that a double below `10 ^ 26` gives its shortest decimal. -/
theorem magnitude_lt_of_shortest? {x : Float} {d : Decimal} (hx : (Json.double x).IsSmall)
    (hd : shortest? x = some d) : d.magnitude < 10 ^ 26 := by
  simp only [shortest?, Option.map_eq_some_iff] at hd
  obtain ⟨b, hb, rfl⟩ := hd
  have hdouble : b.IsDouble := isDouble_of_ofBits? hb
  exact magnitude_shortest_lt hdouble (hx b hb)

theorem not_reaches_ofJson {v : Json} (h : v.IsSmall) {bound : ℚ} (hbound : 10 ^ 26 ≤ bound) :
    ¬ (ofJson v).Reaches bound := by
  rintro ⟨d, hd, hle⟩
  have hlt : d.magnitude < 10 ^ 26 := by
    cases v with
    | int n =>
      obtain rfl : Decimal.ofInt n = d := Option.some.inj hd
      have hcast : (n.natAbs : ℚ) < 10 ^ 26 := by exact_mod_cast (show n.natAbs < 10 ^ 26 from h)
      simpa [Decimal.magnitude, Decimal.ofInt] using hcast
    | double x => exact magnitude_lt_of_shortest? h hd
    | _ => cases hd
  exact absurd (hbound.trans hle) (not_le.2 hlt)

theorem le_centsBound (unit : Option (List Char)) : 10 ^ 26 ≤ centsBound unit := by
  rw [centsBound]
  split_ifs
  · exact le_refl _
  · norm_num

end Quantity

namespace Reply

theorem not_reaches_quantity {members : Json.Members} (h : (Json.obj members).Moderate)
    (name : String) {bound : ℚ} (hbound : 10 ^ 26 ≤ bound) :
    ¬ (quantity members name).Reaches bound := by
  rw [quantity]
  cases hv : Json.member? members name with
  | none => exact Quantity.not_reaches_of_decimal?_eq_none rfl bound
  | some v => exact Quantity.not_reaches_ofJson (moderate_member? h hv).isSmall hbound

theorem moderate_of_mem_objects {members : Json.Members} (h : (Json.obj members).Moderate)
    (name : String) {entry : Json.Members} (he : entry ∈ objects members name) :
    (Json.obj entry).Moderate := by
  rw [objects] at he
  split at he
  · rename_i items hitems
    obtain ⟨v, hv, hentry⟩ := List.mem_filterMap.1 he
    have hmoderate := (moderate_member? h hitems).item hv
    split at hentry
    · simp only [Option.some.injEq] at hentry
      rwa [hentry] at hmoderate
    · cases hentry
  · cases he

theorem not_overflows_of_moderate {members : Json.Members} (h : (Json.obj members).Moderate) :
    ¬ Overflows members := by
  rintro (⟨-, hreaches⟩ | ⟨hentry, hx, hreaches⟩)
  · exact not_reaches_quantity h _ (Quantity.le_centsBound _) hreaches
  · rw [← hx] at hreaches
    exact not_reaches_quantity (moderate_of_mem_objects h _ hentry) _ (by norm_num) hreaches

/-- A moderate reply has no number that cannot be rounded. -/
theorem read_ne_overflow {text : String} (h : Moderate text) : read text ≠ .error .overflow := by
  intro he
  obtain ⟨members, hobject, hoverflows⟩ := (read_eq_overflow_iff text).1 he
  exact not_overflows_of_moderate (h members ((decode_eq_ok_iff text members).2 hobject)) hoverflows

end Reply
end Intake
