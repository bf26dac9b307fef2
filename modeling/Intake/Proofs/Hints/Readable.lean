import Intake.Batch
import Intake.Proofs.Number.Magnitude

/-!
# Readable replies

Which replies give hints.  A reply that is no JSON object is refused.  An
object is refused only for a number of too many digits to be rounded, which
is an amount, or an interval written as a double; no other value of any
member makes the reading fail.

There are three groups.

* Quantities.  `cents_eq_error_iff` and `months_eq_error_iff` say from which
  magnitude on a number is too large.
* Objects.  `Reply.Overflows` is the object with such a number, and
  `interpret_eq_error_iff` says that nothing else is in the way.
* Replies.  `readReply_outcome_iff` is the result.
-/

namespace Intake

open Number

/-! ## Quantities -/

namespace Quantity

/-- The number of a quantity.  A text is read digit by digit and has none. -/
def decimal? : Quantity → Option Decimal
  | absent => none
  | int n => some (.ofInt n)
  | double x => shortest? x
  | text _ => none

/-- A number of this magnitude or more. -/
def Reaches (q : Quantity) (bound : ℚ) : Prop :=
  ∃ d, q.decimal? = some d ∧ bound ≤ d.magnitude

/-- The magnitude from which on an amount in a unit has too many digits. -/
def centsBound (unit : Option (List Char)) : ℚ :=
  if isDollarUnit unit then 10 ^ 26 else 10 ^ 28

/-- Whole numbers have no places, and doubles have few digits. -/
theorem exponent_nonneg_or_coefficient_le {q : Quantity} {d : Decimal}
    (h : q.decimal? = some d) : 0 ≤ d.exponent ∨ d.coefficient ≤ 10 ^ 17 := by
  cases q with
  | absent => cases h
  | text s => cases h
  | int n =>
    simp only [decimal?, Option.some.injEq] at h
    subst h
    exact Or.inl (le_refl _)
  | double x =>
    simp only [decimal?, shortest?, Option.map_eq_some_iff] at h
    obtain ⟨b, -, rfl⟩ := h
    exact Or.inr (coefficient_shortest_le b)

theorem round_eq_error_iff (d : Decimal) (e : Overflow) :
    round d = .error e ↔ d.round? = none := by
  rw [round]
  cases d.round? with
  | none => exact iff_of_true rfl rfl
  | some n => exact iff_of_false nofun nofun

theorem round_eq_ok_iff (d : Decimal) (n : Int) : round d = .ok n ↔ d.round? = some n := by
  rw [round]
  cases d.round? with
  | none => exact iff_of_false nofun nofun
  | some m => rw [Except.ok.injEq, Option.some.injEq]

theorem centsOfDecimal_eq_error_iff {q : Quantity} {d : Decimal} (h : q.decimal? = some d)
    (unit : Option (List Char)) (e : Overflow) :
    centsOfDecimal d unit = .error e ↔ centsBound unit ≤ d.magnitude := by
  have hround : centsOfDecimal d unit = .error e ↔
      round (if isDollarUnit unit then d.hundredfold else d) = .error e := by
    rw [centsOfDecimal]
    cases round (if isDollarUnit unit then d.hundredfold else d) with
    | ok n => exact iff_of_false nofun nofun
    | error e' => exact iff_of_true rfl rfl
  have hdigits := exponent_nonneg_or_coefficient_le h
  rw [hround, round_eq_error_iff, centsBound]
  split_ifs
  · exact round?_hundredfold_eq_none_iff (hdigits.imp_right fun hc => by omega)
  · exact round?_eq_none_iff (hdigits.imp_right fun hc => by omega)

theorem not_reaches_of_decimal?_eq_none {q : Quantity} (h : q.decimal? = none) (bound : ℚ) :
    ¬ q.Reaches bound := by
  rintro ⟨d, hd, -⟩
  rw [h] at hd
  cases hd

theorem reaches_iff {q : Quantity} {d : Decimal} (h : q.decimal? = some d) (bound : ℚ) :
    q.Reaches bound ↔ bound ≤ d.magnitude := by
  constructor
  · rintro ⟨d', hd', hbound⟩
    rw [h, Option.some.injEq] at hd'
    rwa [hd']
  · exact fun hbound => ⟨d, h, hbound⟩

/-- Only the magnitude of a number is in the way of an amount. -/
theorem cents_eq_error_iff (q : Quantity) (unit : Option (List Char)) (e : Overflow) :
    q.cents unit = .error e ↔ q.Reaches (centsBound unit) := by
  cases q with
  | absent => exact iff_of_false nofun (not_reaches_of_decimal?_eq_none rfl _)
  | text s => exact iff_of_false nofun (not_reaches_of_decimal?_eq_none rfl _)
  | int n =>
    have hd : (int n).decimal? = some (.ofInt n) := rfl
    rw [reaches_iff hd]
    exact centsOfDecimal_eq_error_iff hd unit e
  | double x =>
    rw [cents]
    cases hd : shortest? x with
    | none => exact iff_of_false nofun (not_reaches_of_decimal?_eq_none (q := double x) hd _)
    | some d =>
      rw [reaches_iff (q := double x) hd]
      exact centsOfDecimal_eq_error_iff (q := double x) hd unit e

/-- A whole number is an interval as it is; only a double has to be
rounded. -/
theorem months_eq_error_iff (q : Quantity) (e : Overflow) :
    q.months = .error e ↔ (∃ x, q = .double x) ∧ q.Reaches (10 ^ 28) := by
  cases q with
  | absent => exact iff_of_false nofun fun h => nomatch h.1.choose_spec
  | text s => exact iff_of_false nofun fun h => nomatch h.1.choose_spec
  | int n => exact iff_of_false nofun fun h => nomatch h.1.choose_spec
  | double x =>
    rw [months]
    cases hd : shortest? x with
    | none =>
      exact iff_of_false nofun fun h =>
        not_reaches_of_decimal?_eq_none (q := double x) hd _ h.2
    | some d =>
      have hdigits := exponent_nonneg_or_coefficient_le (q := double x) hd
      have hround : (round d).map Int.toNat = .error e ↔ round d = .error e := by
        cases round d with
        | ok n => exact iff_of_false nofun nofun
        | error e' => exact iff_of_true rfl rfl
      show (round d).map Int.toNat = .error e ↔ _
      rw [hround, round_eq_error_iff, reaches_iff (q := double x) hd,
        round?_eq_none_iff (hdigits.imp_right fun hc => by omega)]
      exact ⟨fun h => ⟨⟨x, rfl⟩, h⟩, fun h => h.2⟩

end Quantity

/-! ## Objects -/

namespace Reply

/-- The names under which an object holds amounts. -/
def amountNames : List String := ["total_cents", "labor_cents", "materials_cents"]

/-- An object holds a number of too many digits to be rounded. -/
inductive Overflows (members : Json.Members) : Prop where
  | amount {name : String} (hname : name ∈ amountNames)
      (h : (quantity members name).Reaches
        (Quantity.centsBound (chars? members "currency_unit"))) : Overflows members
  | interval {entry : Json.Members} {x : Float}
      (hentry : entry ∈ objects members "maintenance_items")
      (hx : quantity entry "interval_months" = .double x)
      (h : (Quantity.double x).Reaches (10 ^ 28)) : Overflows members

theorem maintenanceItem?_eq_error_iff (entry : Json.Members) (e : Overflow) :
    maintenanceItem? entry = .error e ↔
      ∃ x, quantity entry "interval_months" = .double x ∧
        (Quantity.double x).Reaches (10 ^ 28) := by
  have hmonths : maintenanceItem? entry = .error e ↔
      (quantity entry "interval_months").months = .error e := by
    rw [maintenanceItem?]
    cases (quantity entry "interval_months").months with
    | error e' => exact iff_of_true rfl rfl
    | ok n =>
      dsimp only
      split_ifs
      · exact iff_of_false nofun nofun
      · exact iff_of_false nofun nofun
      · exact iff_of_false nofun nofun
  rw [hmonths, Quantity.months_eq_error_iff]
  constructor
  · rintro ⟨⟨x, hx⟩, h⟩
    rw [hx] at h
    exact ⟨x, hx, h⟩
  · rintro ⟨x, hx, h⟩
    rw [hx]
    exact ⟨⟨x, rfl⟩, h⟩

theorem maintenanceItems_eq_error_iff (entries : List Json.Members) (e : Overflow) :
    maintenanceItems entries = .error e ↔ ∃ entry ∈ entries, maintenanceItem? entry = .error e := by
  induction entries with
  | nil => exact iff_of_false nofun fun h => List.not_mem_nil h.choose_spec.1
  | cons entry rest ih =>
    simp only [maintenanceItems, List.mem_cons, exists_eq_or_imp, ← ih]
    cases maintenanceItem? entry with
    | error e' => exact iff_of_true rfl (Or.inl rfl)
    | ok item =>
      cases maintenanceItems rest with
      | error e' => exact iff_of_true rfl (Or.inr rfl)
      | ok items => simp only [reduceCtorEq, or_self]

/-- The maintenance entries and the amounts are all that can fail. -/
theorem interpret_eq_error_iff_or (members : Json.Members) (e : Overflow) :
    interpret members = .error e ↔
      maintenanceItems (objects members "maintenance_items") = .error e ∨
        ∃ name ∈ amountNames, amount members name = .error e := by
  simp only [interpret, amountNames, List.mem_cons, List.not_mem_nil, or_false,
    exists_eq_or_imp, exists_eq_left]
  cases maintenanceItems (objects members "maintenance_items") with
  | error e' => exact iff_of_true rfl (Or.inl rfl)
  | ok items =>
    cases amount members "total_cents" with
    | error e' => exact iff_of_true rfl (Or.inr (Or.inl rfl))
    | ok total =>
      cases amount members "labor_cents" with
      | error e' => exact iff_of_true rfl (Or.inr (Or.inr (Or.inl rfl)))
      | ok labor =>
        cases amount members "materials_cents" with
        | error e' => exact iff_of_true rfl (Or.inr (Or.inr (Or.inr rfl)))
        | ok materials =>
          refine iff_of_false nofun ?_
          simp only [reduceCtorEq, or_self, not_false_eq_true]

theorem interpret_eq_error_iff (members : Json.Members) (e : Overflow) :
    interpret members = .error e ↔ Overflows members := by
  rw [interpret_eq_error_iff_or, maintenanceItems_eq_error_iff]
  constructor
  · rintro (⟨entry, hentry, h⟩ | ⟨name, hname, h⟩)
    · obtain ⟨x, hx, hreaches⟩ := (maintenanceItem?_eq_error_iff entry e).1 h
      exact .interval hentry hx hreaches
    · exact .amount hname ((Quantity.cents_eq_error_iff _ _ e).1 h)
  · rintro (⟨hname, h⟩ | ⟨hentry, hx, h⟩)
    · exact Or.inr ⟨_, hname, (Quantity.cents_eq_error_iff _ _ e).2 h⟩
    · exact Or.inl ⟨_, hentry, (maintenanceItem?_eq_error_iff _ e).2 ⟨_, hx, h⟩⟩

/-! ## Replies -/

/-- A reply is an object with these members once its fence is taken off; the
null reply is an object without members. -/
inductive IsObject (reply : String) : Json.Members → Prop where
  | obj {members : Json.Members}
      (h : Json.read (Text.unfence reply.toList) = .ok (.obj members)) : IsObject reply members
  | null (h : Json.read (Text.unfence reply.toList) = .ok .null) : IsObject reply []

theorem decode_eq_ok_iff (reply : String) (members : Json.Members) :
    decode reply.toList = .ok members ↔ IsObject reply members := by
  constructor
  · intro h
    rw [decode] at h
    split at h
    · cases h
    · rename_i members' hread
      cases h
      exact .obj hread
    · rename_i hread
      cases h
      exact .null hread
    · cases h
  · rintro (h | h)
    · simp only [decode, h]
    · simp only [decode, h]

theorem decode_isError_iff (reply : String) :
    (∃ m, decode reply.toList = .error m) ↔ ∀ members, ¬ IsObject reply members := by
  simp only [← decode_eq_ok_iff]
  cases decode reply.toList with
  | error m => exact iff_of_true ⟨m, rfl⟩ nofun
  | ok members => exact iff_of_false (fun h => nomatch h.choose_spec) fun h => h members rfl

theorem read_eq_overflow_iff (reply : String) :
    read reply = .error .overflow ↔ ∃ members, IsObject reply members ∧ Overflows members := by
  simp only [← decode_eq_ok_iff, ← interpret_eq_error_iff _ .tooManyDigits, read]
  cases decode reply.toList with
  | error m => simp only [Except.error.injEq, reduceCtorEq, false_and, exists_false]
  | ok members =>
    simp only [Except.ok.injEq, exists_eq_left']
    cases interpret members with
    | error e => exact iff_of_true rfl rfl
    | ok hints => exact iff_of_false nofun nofun

theorem read_isMalformed_iff (reply : String) :
    (∃ m, read reply = .error (.malformed m)) ↔ ∀ members, ¬ IsObject reply members := by
  rw [← decode_isError_iff, read]
  cases decode reply.toList with
  | error m => exact iff_of_true ⟨m, rfl⟩ ⟨m, rfl⟩
  | ok members =>
    refine iff_of_false (fun h => ?_) fun h => nomatch h.choose_spec
    obtain ⟨m, hm⟩ := h
    dsimp only at hm
    cases hi : interpret members with
    | error e =>
      rw [hi] at hm
      cases hm
    | ok hints =>
      rw [hi] at hm
      cases hm

theorem read_isOk_iff (reply : String) :
    (∃ hints, read reply = .ok hints) ↔
      ∃ members, IsObject reply members ∧ ¬ Overflows members := by
  simp only [← decode_eq_ok_iff, ← interpret_eq_error_iff _ .tooManyDigits, read]
  cases decode reply.toList with
  | error m => simp only [reduceCtorEq, exists_false, false_and]
  | ok members =>
    simp only [Except.ok.injEq, exists_eq_left']
    cases interpret members with
    | error e => exact iff_of_false (fun h => nomatch h.choose_spec) fun h => h rfl
    | ok hints => exact iff_of_true ⟨hints, rfl⟩ nofun

end Reply

/-- What reading a reply gives is what its text gives. -/
theorem readReply_eq (reply : String) (s : Site) :
    Shell.readReply reply s =
      (match Reply.read reply with
        | .ok hints => .ok hints
        | .error (.malformed m) => .error (.reply m.message reply)
        | .error .overflow => .error .overflow,
      (Reply.remarks reply).foldl (fun s text => s.note .reply .debug text) s) := by
  rw [Shell.readReply]
  cases Reply.read reply with
  | ok hints => rfl
  | error failure =>
    cases failure with
    | malformed m => rfl
    | overflow => rfl

namespace Reply

/-- A reply gives hints exactly when it is an object without a number that is
too large.  One that is no object is refused with its own text, and an object
with such a number breaks the reading off. -/
theorem readReply_outcome_iff (reply : String) (s : Site) :
    ((∃ hints, (Shell.readReply reply s).1 = .ok hints) ↔
        ∃ members, IsObject reply members ∧ ¬ Overflows members) ∧
      ((∃ text, (Shell.readReply reply s).1 = .error (.reply text reply)) ↔
        ∀ members, ¬ IsObject reply members) ∧
      ((Shell.readReply reply s).1 = .error .overflow ↔
        ∃ members, IsObject reply members ∧ Overflows members) := by
  rw [← read_isOk_iff, ← read_isMalformed_iff, ← read_eq_overflow_iff, readReply_eq]
  cases read reply with
  | ok hints => simp
  | error failure =>
    cases failure with
    | malformed m => simp
    | overflow => simp

/-- A reply that names an amount in dollars of 27 digits. -/
def immense : String :=
  "\x7b\"total_cents\": 100000000000000000000000000, \"currency_unit\": \"usd\"\x7d"

/-- Not every object is read. -/
theorem not_readReply_isOk_of_isObject :
    ¬ ∀ (reply : String) (members : Json.Members) (s : Site), IsObject reply members →
      ∃ hints, (Shell.readReply reply s).1 = .ok hints := by
  intro h
  have hdecode : (decode immense.toList).isOk = true := by decide +kernel
  have hfails : (read immense).isOk = false := by decide +kernel
  cases hmembers : decode immense.toList with
  | error m =>
    rw [hmembers] at hdecode
    cases hdecode
  | ok members =>
    obtain ⟨hints, hhints⟩ := h immense members {} ((decode_eq_ok_iff _ _).1 hmembers)
    rw [readReply_eq] at hhints
    cases hread : read immense with
    | ok hints =>
      rw [hread] at hfails
      cases hfails
    | error failure =>
      rw [hread] at hhints
      cases failure with
      | malformed m => cases hhints
      | overflow => cases hhints

end Reply
end Intake
