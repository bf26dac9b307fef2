import Intake.Proofs.Hints.Settled
import Intake.Proofs.Hints.Readable
import Intake.Proofs.Number.Denoted
import Intake.Proofs.Number.IntegerText

/-!
# Hints field by field

Every field of the hints of a reply is settled by the value under its own name, and an
amount by the declared unit as well.  Whatever else the reply holds has no part in it.

There are five groups.

* Fields.  `Hints.Field` names the fields, and `agree_of_reads` says that each of them
  depends on its own value.
* Texts.  `IsTextUnder` is the trimmed string under a name.
* Closed sets.  `documentType_eq_some_iff` and `entityKind_eq_some_iff` say which
  member is found.
* Maintenance.  `IsEntryOf` says which item an entry describes, and `Collects` that a
  list of items holds what a list of entries describes, in their order.
* Replies.  `complete_of_reads` says that hints hold what their reply says, and the last
  result adds that no field disturbs another.
-/

namespace Intake

open Text Number

/-! ## Fields -/

namespace Hints

/-- The fields of hints. -/
inductive Field where
  | documentType
  | title
  | summary
  | vendor
  | total
  | labor
  | materials
  | date
  | warrantyExpiry
  | entityKind
  | entityName
  | maintenance
  | notes

namespace Field

/-- The name under which a field stands in a reply. -/
def name : Field → String
  | documentType => "document_type"
  | title => "title_suggestion"
  | summary => "summary"
  | vendor => "vendor_hint"
  | total => "total_cents"
  | labor => "labor_cents"
  | materials => "materials_cents"
  | date => "date"
  | warrantyExpiry => "warranty_expiry"
  | entityKind => "entity_kind_hint"
  | entityName => "entity_name_hint"
  | maintenance => "maintenance_items"
  | notes => "notes"

/-- An amount is read in the unit that is declared beside it. -/
def IsAmount (f : Field) : Prop := f = total ∨ f = labor ∨ f = materials

/-- Two hints have the same value in a field. -/
def Agree : Field → Hints → Hints → Prop
  | documentType, h, h' => h.documentType = h'.documentType
  | title, h, h' => h.title = h'.title
  | summary, h, h' => h.summary = h'.summary
  | vendor, h, h' => h.vendor = h'.vendor
  | total, h, h' => h.total = h'.total
  | labor, h, h' => h.labor = h'.labor
  | materials, h, h' => h.materials = h'.materials
  | date, h, h' => h.date = h'.date
  | warrantyExpiry, h, h' => h.warrantyExpiry = h'.warrantyExpiry
  | entityKind, h, h' => h.entityKind = h'.entityKind
  | entityName, h, h' => h.entityName = h'.entityName
  | maintenance, h, h' => h.maintenance = h'.maintenance
  | notes, h, h' => h.notes = h'.notes

end Field
end Hints

namespace Reply

section Congruence

variable {members members' : Json.Members} {name : String}
  (h : Json.member? members name = Json.member? members' name)
include h

theorem prose?_congr : prose? members name = prose? members' name := by rw [prose?, prose?, h]

theorem trimmedProse_congr : trimmedProse members name = trimmedProse members' name := by
  rw [trimmedProse, trimmedProse, prose?_congr h]

theorem chars?_congr : chars? members name = chars? members' name := by
  rw [chars?, chars?, prose?_congr h]

theorem date_congr : date members name = date members' name := by
  rw [date, date, chars?_congr h]

theorem objects_congr : objects members name = objects members' name := by
  rw [objects, objects, h]

theorem amount_congr
    (hunit : Json.member? members "currency_unit" = Json.member? members' "currency_unit") :
    amount members name = amount members' name := by
  rw [amount, amount, quantity, quantity, h, chars?_congr hunit]

end Congruence

/-- A field depends on the value under its name, and an amount on the unit as well. -/
theorem agree_of_reads {members members' : Json.Members} {h h' : Hints} (hr : Reads members h)
    (hr' : Reads members' h') (f : Hints.Field)
    (hvalue : Json.member? members f.name = Json.member? members' f.name)
    (hunit : f.IsAmount →
      Json.member? members "currency_unit" = Json.member? members' "currency_unit") :
    f.Agree h h' := by
  cases f with
  | documentType =>
    show h.documentType = h'.documentType
    have hchars : chars? members "document_type" = chars? members' "document_type" :=
      chars?_congr hvalue
    rw [← hr.documentType, ← hr'.documentType, documentType, documentType, hchars]
  | title => exact hr.title.symm.trans ((trimmedProse_congr hvalue).trans hr'.title)
  | summary => exact hr.summary.symm.trans ((trimmedProse_congr hvalue).trans hr'.summary)
  | vendor => exact hr.vendor.symm.trans ((trimmedProse_congr hvalue).trans hr'.vendor)
  | total =>
    have hamount := amount_congr hvalue (hunit (Or.inl rfl))
    exact Except.ok.inj (hr.total.symm.trans (hamount.trans hr'.total))
  | labor =>
    have hamount := amount_congr hvalue (hunit (Or.inr (Or.inl rfl)))
    exact Except.ok.inj (hr.labor.symm.trans (hamount.trans hr'.labor))
  | materials =>
    have hamount := amount_congr hvalue (hunit (Or.inr (Or.inr rfl)))
    exact Except.ok.inj (hr.materials.symm.trans (hamount.trans hr'.materials))
  | date => exact hr.date.symm.trans ((date_congr hvalue).trans hr'.date)
  | warrantyExpiry =>
    exact hr.warrantyExpiry.symm.trans ((date_congr hvalue).trans hr'.warrantyExpiry)
  | entityKind =>
    show h.entityKind = h'.entityKind
    have hchars : chars? members "entity_kind_hint" = chars? members' "entity_kind_hint" :=
      chars?_congr hvalue
    rw [← hr.entityKind, ← hr'.entityKind, entityKind, entityKind, hchars]
  | entityName => exact hr.entityName.symm.trans ((trimmedProse_congr hvalue).trans hr'.entityName)
  | maintenance =>
    have hitems := congrArg maintenanceItems (objects_congr hvalue)
    exact Except.ok.inj (hr.maintenance.symm.trans (hitems.trans hr'.maintenance))
  | notes => exact hr.notes.symm.trans ((trimmedProse_congr hvalue).trans hr'.notes)

/-! ## Texts -/

/-- The text under a name: the string there without the blanks at its ends, and nothing
where there is no string. -/
inductive IsTextUnder (members : Json.Members) (name : String) : Prose → Prop where
  | string {q p : Prose} (h : Json.member? members name = some (.str q))
      (hp : IsStripped Prose.isBlankGlyph q p) : IsTextUnder members name p
  | absent (h : ∀ q, Json.member? members name ≠ some (.str q)) : IsTextUnder members name []

theorem prose?_eq_some_iff (members : Json.Members) (name : String) (q : Prose) :
    prose? members name = some q ↔ Json.member? members name = some (.str q) := by
  rw [prose?]
  split
  · rename_i p hp
    rw [hp, Option.some.injEq, Option.some.injEq, Json.str.injEq]
  · rename_i hother
    exact iff_of_false (Option.some_ne_none q).symm (hother q)

theorem IsTextUnder.eq {members : Json.Members} {name : String} {p : Prose}
    (h : IsTextUnder members name p) : trimmedProse members name = p := by
  rw [trimmedProse]
  cases h with
  | string h hp =>
    rw [(prose?_eq_some_iff members name _).2 h]
    exact hp.eq
  | absent h =>
    cases hq : prose? members name with
    | none => rfl
    | some q => exact absurd ((prose?_eq_some_iff members name q).1 hq) (h q)

/-- Where there is no string there is no text. -/
theorem IsTextUnder.exists_str {members : Json.Members} {name : String} {p : Prose}
    (h : IsTextUnder members name p) (hne : p ≠ []) :
    ∃ q, Json.member? members name = some (.str q) ∧ IsStripped Prose.isBlankGlyph q p := by
  cases h with
  | string h hp => exact ⟨_, h, hp⟩
  | absent h => exact absurd rfl hne

theorem isTextUnder_trimmedProse (members : Json.Members) (name : String) :
    IsTextUnder members name (trimmedProse members name) := by
  rw [trimmedProse]
  split
  · rename_i q hq
    exact .string ((prose?_eq_some_iff members name q).1 hq) (isStripped_stripWhere _ q)
  · rename_i hnone
    refine .absent fun q hq => ?_
    rw [(prose?_eq_some_iff members name q).2 hq] at hnone
    cases hnone

end Reply

/-! ## Closed sets -/

theorem Text.Prose.eq_ofChars_of_chars? {p : Prose} {s : List Char} (h : p.chars? = some s) :
    p = Prose.ofChars s := by
  induction p generalizing s with
  | nil =>
    cases h
    rfl
  | cons g p ih =>
    cases g with
    | char c =>
      obtain ⟨t, ht, rfl⟩ := Option.map_eq_some_iff.1 h
      rw [ih ht]
      rfl
    | half unit => cases h

namespace DocumentType

theorem ofName?_eq_some_iff (name : List Char) (t : DocumentType) :
    ofName? name = some t ↔ name = t.name.toList := by
  constructor
  · intro h
    have hname := List.find?_some h
    exact (beq_iff_eq.1 hname).symm
  · rintro rfl
    exact ofName?_name t

end DocumentType

namespace EntityKind

theorem ofName?_eq_some_iff (name : List Char) (k : EntityKind) :
    ofName? name = some k ↔ name = k.name.toList := by
  constructor
  · intro h
    have hname := List.find?_some h
    exact (beq_iff_eq.1 hname).symm
  · rintro rfl
    exact ofName?_name k

end EntityKind

namespace Reply

/-- Only a text without halves has characters. -/
theorem chars?_eq_some_iff (members : Json.Members) (name : String) (s : List Char) :
    chars? members name = some s ↔
      Json.member? members name = some (.str (Prose.ofChars s)) := by
  rw [chars?, Option.bind_eq_some_iff]
  constructor
  · rintro ⟨q, hq, hs⟩
    rw [← Prose.eq_ofChars_of_chars? hs]
    exact (prose?_eq_some_iff members name q).1 hq
  · intro h
    exact ⟨_, (prose?_eq_some_iff members name _).2 h, Prose.chars?_ofChars s⟩

theorem documentType_eq_some_iff (members : Json.Members) (t : DocumentType) :
    documentType members = some t ↔
      ∃ s, Json.member? members "document_type" = some (.str (Prose.ofChars s)) ∧
        lowered (trim s) = t.name.toList := by
  simp only [documentType, Option.bind_eq_some_iff, chars?_eq_some_iff,
    DocumentType.ofName?_eq_some_iff]
  exact Iff.rfl

theorem entityKind_eq_some_iff (members : Json.Members) (k : EntityKind) :
    entityKind members = some k ↔
      ∃ s, Json.member? members "entity_kind_hint" = some (.str (Prose.ofChars s)) ∧
        lowered (trim s) = k.name.toList := by
  simp only [entityKind, Option.bind_eq_some_iff, chars?_eq_some_iff,
    EntityKind.ofName?_eq_some_iff]
  exact Iff.rfl

/-! ## Maintenance -/

/-- A value that says a positive number of months: a whole number, a double that is
rounded to it, or a text that is not too long. -/
inductive IsInterval : Json → ℕ → Prop where
  | int {n : ℕ} (hn : 0 < n) : IsInterval (.int n) n
  | double {x : Float} {v : ℚ} {n : ℕ} (hn : 0 < n)
      (hx : denoted? (shortestText x).toList = some v) (hv : IsRounded v n) :
      IsInterval (.double x) n
  | text {s : List Char} {k n : ℕ} (hn : 0 < n) (hs : IntegerText s k n)
      (hk : k ≤ maxDigitsRead) : IsInterval (.str (Prose.ofChars s)) n

/-- An entry of a reply and the item that it describes. -/
inductive IsEntryOf : Json → MaintenanceItem → Prop where
  | entry {members : Json.Members} {q : Prose} {v : Json} {m : MaintenanceItem}
      (hname : Json.member? members "name" = some (.str q))
      (hm : IsStripped Prose.isBlankGlyph q m.name) (hne : m.name ≠ [])
      (hinterval : Json.member? members "interval_months" = some v)
      (hv : IsInterval v m.months) : IsEntryOf (.obj members) m

theorem IsEntryOf.exists_obj {v : Json} {m : MaintenanceItem} (h : IsEntryOf v m) :
    ∃ entry, v = .obj entry := by
  cases h with
  | entry => exact ⟨_, rfl⟩

/-- The items that entries describe, in their order.  An entry that describes none is
left out. -/
inductive Collects : List Json → List MaintenanceItem → Prop where
  | nil : Collects [] []
  | kept {v : Json} {m : MaintenanceItem} {vs : List Json} {ms : List MaintenanceItem}
      (hm : IsEntryOf v m) (hvs : Collects vs ms) : Collects (v :: vs) (m :: ms)
  | left {v : Json} {vs : List Json} {ms : List MaintenanceItem} (hv : ∀ m, ¬ IsEntryOf v m)
      (hvs : Collects vs ms) : Collects (v :: vs) ms

theorem IsInterval.of_double {x : Float} {n : ℕ} (h : IsInterval (.double x) n) :
    ∃ v, denoted? (shortestText x).toList = some v ∧ IsRounded v n := by
  cases h with
  | double _ hx hv => exact ⟨_, hx, hv⟩

theorem IsInterval.of_str {p : Prose} {n : ℕ} (h : IsInterval (.str p) n) :
    ∃ s, p = Prose.ofChars s ∧ readInt? (trim s) = some (n : ℤ) := by
  cases h with
  | text _ hs hk => exact ⟨_, rfl, (readInt?_trim_eq_some_iff _ _).2 ⟨_, hk, hs⟩⟩

theorem isInterval_double_iff {x : Float} {n : ℕ} (h : (Quantity.double x).months = .ok n) {k : ℕ}
    (hk : 0 < k) : IsInterval (.double x) k ↔ n = k := by
  rw [Quantity.months] at h
  cases hx : shortest? x with
  | none =>
    have htext : denoted? (shortestText x).toList = none := by
      rw [shortestText, hx, String.toList_ofList, denoted?_nonFiniteText]
    simp only [hx, Except.ok.injEq] at h
    refine iff_of_false (fun hinterval => ?_) (by omega)
    obtain ⟨v, hv, -⟩ := hinterval.of_double
    rw [htext] at hv
    cases hv
  | some d =>
    have hvalue := denoted?_shortestText hx
    simp only [hx] at h
    cases hround : Quantity.round d with
    | error e =>
      rw [hround] at h
      cases h
    | ok z =>
      rw [hround] at h
      have hz := isRounded_of_round? ((Quantity.round_eq_ok_iff d z).1 hround)
      have hn : z.toNat = n := Except.ok.inj h
      constructor
      · intro hinterval
        obtain ⟨v, hv, hrounded⟩ := hinterval.of_double
        rw [hvalue, Option.some.injEq] at hv
        rw [← hv] at hrounded
        have hzk := hz.unique hrounded
        omega
      · intro hnk
        have hzk : z = k := by omega
        exact .double hk hvalue (hzk ▸ hz)

theorem isInterval_str_iff {p : Prose} {n : ℕ} (h : (Quantity.ofJson (.str p)).months = .ok n)
    {k : ℕ} (hk : 0 < k) : IsInterval (.str p) k ↔ n = k := by
  have hn : ((readInt? (trim (p.chars?.getD ['?']))).getD 0).toNat = n := Except.ok.inj h
  constructor
  · intro hinterval
    obtain ⟨s, rfl, hs⟩ := hinterval.of_str
    rw [Prose.chars?_ofChars, Option.getD_some, hs] at hn
    exact hn.symm
  · rintro rfl
    cases hp : p.chars? with
    | none =>
      -- a question mark is no number
      rw [hp, Option.getD_none] at hn
      exact absurd hn (Nat.ne_of_lt hk)
    | some s =>
      rw [hp, Option.getD_some] at hn
      cases hs : readInt? (trim s) with
      | none =>
        rw [hs] at hn
        exact absurd hn (Nat.ne_of_lt hk)
      | some z =>
        rw [hs, Option.getD_some] at hn
        have hz : z = n := by omega
        rw [hz] at hs
        obtain ⟨j, hj, htext⟩ := (readInt?_trim_eq_some_iff s n).1 hs
        rw [Prose.eq_ofChars_of_chars? hp]
        exact .text hk htext hj

/-- An interval that is read is the one that its value says, and zero where it says
none. -/
theorem isInterval_iff {v : Json} {n : ℕ} (h : (Quantity.ofJson v).months = .ok n) {k : ℕ}
    (hk : 0 < k) : IsInterval v k ↔ n = k := by
  have habsent : Quantity.ofJson v = .absent → n ≠ k := by
    intro hv
    rw [hv] at h
    have hzero : 0 = n := Except.ok.inj h
    omega
  cases v with
  | null => exact iff_of_false nofun (habsent rfl)
  | bool b => exact iff_of_false nofun (habsent rfl)
  | arr items => exact iff_of_false nofun (habsent rfl)
  | obj members => exact iff_of_false nofun (habsent rfl)
  | double x => exact isInterval_double_iff h hk
  | str p => exact isInterval_str_iff h hk
  | int z =>
    have hz : z.toNat = n := Except.ok.inj h
    constructor
    · rintro ⟨⟩
      omega
    · intro hnk
      have hzk : z = k := by omega
      rw [hzk]
      exact .int hk

theorem isInterval_quantity_iff {entry : Json.Members} {name : String} {n : ℕ}
    (h : (quantity entry name).months = .ok n) {k : ℕ} (hk : 0 < k) :
    (∃ v, Json.member? entry name = some v ∧ IsInterval v k) ↔ n = k := by
  rw [quantity] at h
  split at h
  · rename_i v hv
    simp only [hv, Option.some.injEq, exists_eq_left']
    exact isInterval_iff h hk
  · rename_i hv
    have hzero : 0 = n := Except.ok.inj h
    refine iff_of_false ?_ (by omega)
    rintro ⟨v, hv', -⟩
    rw [hv] at hv'
    cases hv'

/-- An entry that is read gives the item that it describes. -/
theorem isEntryOf_iff {entry : Json.Members} {item? : Option MaintenanceItem}
    (h : maintenanceItem? entry = .ok item?) (m : MaintenanceItem) :
    IsEntryOf (.obj entry) m ↔ item? = some m := by
  rw [maintenanceItem?] at h
  cases hn : (quantity entry "interval_months").months with
  | error e =>
    rw [hn] at h
    cases h
  | ok n =>
    have hitem : item? =
        if (trimmedProse entry "name").isEmpty then none
        else if hpos : 0 < n then some ⟨trimmedProse entry "name", n, hpos⟩ else none := by
      simp only [hn] at h
      split_ifs at h ⊢ <;> exact (Except.ok.inj h).symm
    have hmonths := isInterval_quantity_iff hn m.months_pos
    have htext := isTextUnder_trimmedProse entry "name"
    constructor
    · rintro ⟨hname, hm, hne, hinterval, hv⟩
      have hnamed := (IsTextUnder.string hname hm).eq
      have hn' : n = m.months := hmonths.1 ⟨_, hinterval, hv⟩
      have hpos : 0 < n := hn' ▸ m.months_pos
      rw [hitem, hnamed, if_neg (by simpa using hne), dif_pos hpos]
      simp only [hn']
    · intro hm
      rw [hitem] at hm
      split_ifs at hm with hempty hpos
      have hm' := Option.some.inj hm
      rw [← hm'] at hmonths ⊢
      obtain ⟨v, hv, hinterval⟩ := hmonths.2 rfl
      obtain ⟨q, hname, hstripped⟩ := htext.exists_str (by simpa using hempty)
      exact .entry hname hstripped (by simpa using hempty) hv hinterval

/-- Entries that are read give the items that they describe; what is no object describes
none. -/
theorem collects_of_maintenanceItems (vs : List Json) {ms : List MaintenanceItem}
    (h : maintenanceItems (vs.filterMap fun
      | .obj entry => some entry
      | _ => none) = .ok ms) : Collects vs ms := by
  induction vs generalizing ms with
  | nil =>
    rw [← Except.ok.inj h]
    exact .nil
  | cons v vs ih =>
    cases v with
    | obj entry =>
      change maintenanceItems (entry :: _) = .ok ms at h
      rw [maintenanceItems] at h
      split at h
      · cases h
      · rename_i item? hitem
        have hentry := isEntryOf_iff hitem
        split at h
        · cases h
        · rename_i later hlater
          rw [← Except.ok.inj h]
          cases item? with
          | none =>
            have hnone : ∀ m, ¬ IsEntryOf (.obj entry) m :=
              fun m hm => Option.some_ne_none m ((hentry m).1 hm).symm
            exact .left hnone (ih hlater)
          | some m => exact .kept ((hentry m).2 rfl) (ih hlater)
    | _ =>
      refine .left (fun m hm => ?_) (ih h)
      obtain ⟨entry, hentry⟩ := hm.exists_obj
      cases hentry

/-! ## Replies -/

/-- Hints hold what the members of an object say, and no more. -/
structure Complete (members : Json.Members) (h : Hints) : Prop where
  amounts : ∀ a ∈ h.amounts, a ≠ 0
  title : IsTextUnder members "title_suggestion" h.title
  summary : IsTextUnder members "summary" h.summary
  vendor : IsTextUnder members "vendor_hint" h.vendor
  entityName : IsTextUnder members "entity_name_hint" h.entityName
  notes : IsTextUnder members "notes" h.notes
  documentType : ∀ t, h.documentType = some t ↔
    ∃ s, Json.member? members "document_type" = some (.str (Prose.ofChars s)) ∧
      lowered (trim s) = t.name.toList
  entityKind : ∀ k, h.entityKind = some k ↔
    ∃ s, Json.member? members "entity_kind_hint" = some (.str (Prose.ofChars s)) ∧
      lowered (trim s) = k.name.toList
  maintenance : ∀ vs, Json.member? members "maintenance_items" = some (.arr vs) →
    Collects vs h.maintenance
  unlisted : (∀ vs, Json.member? members "maintenance_items" ≠ some (.arr vs)) →
    h.maintenance = []

theorem complete_of_reads {members : Json.Members} {h : Hints} (hr : Reads members h) :
    Complete members h where
  amounts := by
    simp only [Hints.amounts, List.mem_append, Option.mem_toList, ← Option.mem_def]
    rintro a ((ha | ha) | ha) rfl
    · exact Quantity.ne_some_zero_of_cents hr.total ha
    · exact Quantity.ne_some_zero_of_cents hr.labor ha
    · exact Quantity.ne_some_zero_of_cents hr.materials ha
  title := hr.title ▸ isTextUnder_trimmedProse members _
  summary := hr.summary ▸ isTextUnder_trimmedProse members _
  vendor := hr.vendor ▸ isTextUnder_trimmedProse members _
  entityName := hr.entityName ▸ isTextUnder_trimmedProse members _
  notes := hr.notes ▸ isTextUnder_trimmedProse members _
  documentType := hr.documentType ▸ documentType_eq_some_iff members
  entityKind := hr.entityKind ▸ entityKind_eq_some_iff members
  maintenance := by
    intro vs hvs
    have hitems := hr.maintenance
    rw [objects, hvs] at hitems
    exact collects_of_maintenanceItems vs hitems
  unlisted := by
    intro hnone
    have hitems := hr.maintenance
    rw [objects] at hitems
    split at hitems
    · rename_i vs hvs
      exact absurd hvs (hnone vs)
    · exact (Except.ok.inj hitems).symm

theorem reads_of_read {reply : String} {h : Hints} (hread : read reply = .ok h) :
    ∃ members, IsObject reply members ∧ Reads members h := by
  rw [read] at hread
  split at hread
  · cases hread
  · rename_i members hmembers
    split at hread
    · cases hread
    · rename_i hints hhints
      cases hread
      exact ⟨members, (decode_eq_ok_iff reply members).1 hmembers, reads_of_interpret hhints⟩

/-- The members of a reply are settled by its text. -/
theorem IsObject.eq {reply : String} {members members' : Json.Members}
    (h : IsObject reply members) (h' : IsObject reply members') : members = members' := by
  rw [← decode_eq_ok_iff] at h h'
  rw [h] at h'
  exact Except.ok.inj h'

theorem isObject_written {bound : ℕ} {members : Json.Members}
    (h : Json.Plain bound (.obj members)) (hbound : bound ≤ Json.maxDepth) :
    IsObject (Json.written .compact (.obj members)) members := by
  rw [← decode_eq_ok_iff, Json.written, String.toList_ofList]
  exact decode_write h hbound

/-- Hints hold what the members of their reply say, and no more.  Another reply whose
hints are read gives the same value to every field under whose name it holds the same,
and the same unit for an amount, whatever else it holds. -/
theorem hints_fieldwise {reply : String} {h : Hints} (hread : read reply = .ok h) :
    ∃ members, IsObject reply members ∧ Complete members h ∧
      ∀ reply' members' h', IsObject reply' members' → read reply' = .ok h' →
        ∀ f : Hints.Field, Json.member? members f.name = Json.member? members' f.name →
          (f.IsAmount →
            Json.member? members "currency_unit" = Json.member? members' "currency_unit") →
          f.Agree h h' := by
  obtain ⟨members, hobject, hr⟩ := reads_of_read hread
  refine ⟨members, hobject, complete_of_reads hr, ?_⟩
  intro reply' members' h' hobject' hread' f hvalue hunit
  obtain ⟨members'', hobject'', hr'⟩ := reads_of_read hread'
  rw [hobject''.eq hobject'] at hr'
  exact agree_of_reads hr hr' f hvalue hunit

/-- The fields of a reply with a name in capitals, an interval with a mark between its
digits and an entry that is no object. -/
def deckFields : List (String × Json) :=
  [("document_type", .text " Permit"), ("total_cents", .text "$12.50"),
    ("currency_unit", .text "usd"), ("maintenance_items", .arr [.null,
      .object [("name", .text "Oil deck "), ("interval_months", .text "+1_8")]])]

/-- The fields of a reply with the same total. -/
def invoiceFields : List (String × Json) :=
  [("labor_cents", .int 0), ("total_cents", .text "$12.50"), ("currency_unit", .text "usd"),
    ("extra", .arr [.null])]

/-- What is read from the first reply. -/
def deckHints : Hints where
  documentType := some .permit
  total := some 1250
  maintenance := [⟨Prose.ofString "Oil deck", 18, by decide⟩]

theorem plain_deckFields : Json.Plain 4 (.object deckFields) := by
  have hentry : Json.Plain 2 (.object [("name", .text "Oil deck "),
      ("interval_months", .text "+1_8")]) :=
    Hints.plain_object (List.forall_mem_cons.2
      ⟨Hints.plain_text 1 _, List.forall_mem_singleton.2 (Hints.plain_text 1 _)⟩)
  apply Hints.plain_object
  simp only [deckFields, List.mem_cons, List.not_mem_nil, or_false, forall_eq_or_imp, forall_eq]
  exact ⟨Hints.plain_text 3 _, Hints.plain_text 3 _, Hints.plain_text 3 _,
    .arr (List.forall_mem_cons.2 ⟨.null 2, List.forall_mem_singleton.2 hentry⟩)⟩

theorem plain_invoiceFields : Json.Plain 4 (.object invoiceFields) := by
  apply Hints.plain_object
  simp only [invoiceFields, List.mem_cons, List.not_mem_nil, or_false, forall_eq_or_imp, forall_eq]
  exact ⟨.int 3 (by simp), Hints.plain_text 3 _, Hints.plain_text 3 _,
    .arr (List.forall_mem_singleton.2 (.null 2))⟩

/-- A total in the same unit, among fields that have nothing else in common. -/
theorem hints_fieldwise_total :
    read (Json.written .compact (.object deckFields)) = .ok deckHints ∧
      read (Json.written .compact (.object invoiceFields)) = .ok { total := some 1250 } ∧
      (∃ members, IsObject (Json.written .compact (.object deckFields)) members ∧
        Complete members deckHints) ∧
      Hints.Field.total.Agree deckHints { total := some 1250 } := by
  have hdeck : read (Json.written .compact (.object deckFields)) = .ok deckHints :=
    read_written_of_interpret plain_deckFields (by decide) (by decide +kernel)
  have hinvoice : read (Json.written .compact (.object invoiceFields)) =
      .ok { total := some 1250 } :=
    read_written_of_interpret plain_invoiceFields (by decide) (by decide +kernel)
  obtain ⟨members, hobject, hcomplete, hagree⟩ := hints_fieldwise hdeck
  refine ⟨hdeck, hinvoice, ⟨members, hobject, hcomplete⟩, ?_⟩
  have hsame := hobject.eq (isObject_written plain_deckFields (by decide))
  have hinvoiceObject := isObject_written plain_invoiceFields (by decide)
  have hmember : ∀ name v, (name, v) ∈ deckFields → (name, v) ∈ invoiceFields →
      Json.member? members name =
        Json.member? (invoiceFields.map fun m => (Prose.ofString m.1, m.2)) name := by
    intro name v hdeck hinvoice
    rw [hsame, Json.member?_map deckFields (by decide) hdeck,
      Json.member?_map invoiceFields (by decide) hinvoice]
  exact hagree _ _ _ hinvoiceObject hinvoice .total
    (hmember "total_cents" (.text "$12.50") (by simp [deckFields]) (by simp [invoiceFields]))
    fun _ => hmember "currency_unit" (.text "usd") (by simp [deckFields]) (by simp [invoiceFields])

/-- A power of ten in digits. -/
def powerOfTen (k : ℕ) : List Char := '1' :: List.replicate k '0'

theorem isPlain_powerOfTen (k : ℕ) : isPlain (powerOfTen k) = true :=
  isPlain_append_zeros (s := ['1']) rfl k

theorem integerText_powerOfTen (k : ℕ) :
    IntegerText (powerOfTen k) (k + 1) ((10 ^ k : ℕ) : ℤ) := by
  have hvalue : plainValue (powerOfTen k) = 10 ^ k :=
    (plainValue_append_zeros ['1'] k).trans (Nat.one_mul _)
  have htext := integerText_of_isPlain (isPlain_powerOfTen k)
  rwa [hvalue, powerOfTen, List.length_cons, List.length_replicate] at htext

/-- A maintenance entry with a power of ten as its months. -/
def powerFields (k : ℕ) : List (String × Json) :=
  [("name", .text "Filter"), ("interval_months", .str (Prose.ofChars (powerOfTen k)))]

theorem plain_powerFields (k : ℕ) :
    Json.Plain 4 (.object [("maintenance_items", .arr [.object (powerFields k)])]) := by
  refine Hints.plain_object (List.forall_mem_singleton.2 (.arr (List.forall_mem_singleton.2 ?_)))
  refine Hints.plain_object (List.forall_mem_cons.2 ⟨Hints.plain_text 1 _, ?_⟩)
  exact List.forall_mem_singleton.2 (.str 1 (Prose.sound_ofChars _))

theorem maintenanceItem?_powerFields {k : ℕ} (hk : maxDigitsRead ≤ k) :
    maintenanceItem? ((powerFields k).map fun m => (Prose.ofString m.1, m.2)) = .ok none := by
  have hread : readInt? (trim (powerOfTen k)) = none := by
    refine readInt?_trim_of_lt_length (isPlain_powerOfTen k) ?_
    rw [powerOfTen, List.length_cons, List.length_replicate]
    omega
  have hmember := Json.member?_map (powerFields k)
    (show ["name", "interval_months"].Nodup by decide) (List.mem_cons_of_mem _ List.mem_cons_self)
  have hquantity : quantity ((powerFields k).map fun m => (Prose.ofString m.1, m.2))
      "interval_months" = .text (powerOfTen k) := by
    rw [quantity, hmember]
    simp only [Quantity.ofJson, Prose.chars?_ofChars, Option.getD_some]
  rw [maintenanceItem?, hquantity, Quantity.months, hread]
  dsimp only
  split_ifs with hname hpos
  · rfl
  · exact absurd hpos (by decide)
  · rfl

/-- Nothing is read under the names that an object does not hold. -/
theorem interpret_of_maintenance {v : Json} {items : List MaintenanceItem}
    (h : maintenanceItems (objects [(Prose.ofString "maintenance_items", v)] "maintenance_items") =
      .ok items) :
    interpret [(Prose.ofString "maintenance_items", v)] = .ok { maintenance := items } := by
  have hnone : ∀ name ∉ ["maintenance_items"],
      Json.member? [(Prose.ofString "maintenance_items", v)] name = none :=
    fun name hname => Json.member?_map_of_not_mem [("maintenance_items", v)] hname
  have hprose : ∀ name ∉ ["maintenance_items"],
      prose? [(Prose.ofString "maintenance_items", v)] name = none :=
    fun name hname => by rw [prose?, hnone name hname]
  have hquantity : ∀ name ∉ ["maintenance_items"],
      quantity [(Prose.ofString "maintenance_items", v)] name = .absent :=
    fun name hname => by rw [quantity, hnone name hname]
  rw [interpret, h]
  simp (disch := decide) only [amount, documentType, entityKind, trimmedProse, date, chars?,
    hprose, hquantity]
  rfl

theorem interpret_powerFields {k : ℕ} (hk : maxDigitsRead ≤ k) :
    interpret [(Prose.ofString "maintenance_items", .arr [.object (powerFields k)])] = .ok {} := by
  have hmember : Json.member?
      [(Prose.ofString "maintenance_items", .arr [.object (powerFields k)])] "maintenance_items" =
        some (.arr [.object (powerFields k)]) :=
    Json.member?_map [("maintenance_items", _)] (List.nodup_singleton _) List.mem_cons_self
  have hitems : maintenanceItems (objects
      [(Prose.ofString "maintenance_items", .arr [.object (powerFields k)])]
        "maintenance_items") = .ok [] := by
    rw [objects, hmember]
    change maintenanceItems [(powerFields k).map fun m => (Prose.ofString m.1, m.2)] = .ok []
    rw [maintenanceItems, maintenanceItem?_powerFields hk]
    rfl
  exact interpret_of_maintenance hitems

/-- An entry is left out although its months are digits and nothing else. -/
theorem read_powerFields :
    IntegerText (powerOfTen 4300) 4301 ((10 ^ 4300 : ℕ) : ℤ) ∧
      read (Json.written .compact
        (.object [("maintenance_items", .arr [.object (powerFields 4300)])])) = .ok {} :=
  ⟨integerText_powerOfTen 4300, read_written_of_interpret (plain_powerFields 4300) (by decide)
    (interpret_powerFields (le_refl maxDigitsRead))⟩

end Reply
end Intake
