import Intake.Hints.Written
import Intake.Json.Writer
import Intake.Proofs.Calendar.IsoDate
import Intake.Proofs.Hints.ModerateReply
import Intake.Proofs.Json.RoundTrip

/-!
# Settled hints

Hints that were read from a reply are settled: written as JSON and read
again they are the same hints.

There are four groups.

* Settled hints.  `Hints.Settled` says what reading leaves no more to do on:
  texts are trimmed, no amount is zero, and every number can be written.
* Reading gives settled hints.  `Reads` takes the reading of an object apart, and
  `settled_of_read` goes through its fields.
* The members of an object.  `member?_fields` finds each field of hints in
  what is written of them.
* Reading back.  `interpret_fields` reads every field back, and
  `read_written` is the result.
-/

namespace Intake

open Text Number

/-! ## Settled hints -/

namespace Text.Prose

/-- A text that trimming and a way through JSON leave as it is. -/
structure Settled (p : Prose) : Prop where
  sound : p.Sound
  trim : p.trim = p

/-- Trimming leaves no blank at either end. -/
theorem trim_trim (p : Prose) : p.trim.trim = p.trim := stripWhere_stripWhere isBlankGlyph p

theorem settled_nil : Settled [] := ⟨sound_nil, rfl⟩

theorem Sound.settled_trim {p : Prose} (h : p.Sound) : p.trim.Settled := ⟨h.trim, trim_trim p⟩

end Text.Prose

/-- An item with a name. -/
structure MaintenanceItem.Settled (m : MaintenanceItem) : Prop where
  name : m.name.Settled
  named : m.name ≠ []
  months : m.months < 10 ^ maxDigitsRead

namespace Hints

/-- The amounts of hints. -/
def amounts (h : Hints) : List Int :=
  h.total.toList ++ h.labor.toList ++ h.materials.toList

/-- Hints on which reading leaves nothing to do. -/
structure Settled (h : Hints) : Prop where
  title : h.title.Settled
  summary : h.summary.Settled
  vendor : h.vendor.Settled
  entityName : h.entityName.Settled
  notes : h.notes.Settled
  total : h.total ≠ some 0
  labor : h.labor ≠ some 0
  materials : h.materials ≠ some 0
  maintenance : ∀ m ∈ h.maintenance, m.Settled

end Hints

/-! ## Reading gives settled hints -/

namespace Quantity

theorem nonZero_ne_some_zero (n : Int) : nonZero n ≠ some 0 := by
  rw [nonZero]
  split
  · exact (Option.some_ne_none 0).symm
  · rename_i h
    exact fun h' => h (Option.some.inj h')

/-- An amount is never zero. -/
theorem ne_some_zero_of_cents {q : Quantity} {unit : Option (List Char)} {n? : Option Int}
    (h : q.cents unit = .ok n?) : n? ≠ some 0 := by
  have hdecimal : ∀ d n?, centsOfDecimal d unit = .ok n? → n? ≠ some 0 := by
    intro d n? h
    rw [centsOfDecimal] at h
    split at h
    · rw [← Except.ok.inj h]
      exact nonZero_ne_some_zero _
    · cases h
  cases q with
  | absent =>
    rw [← Except.ok.inj h]
    exact (Option.some_ne_none 0).symm
  | int n => exact hdecimal _ _ h
  | double x =>
    rw [cents] at h
    split at h
    · exact hdecimal _ _ h
    · rw [← Except.ok.inj h]
      exact (Option.some_ne_none 0).symm
  | text s =>
    rw [← Except.ok.inj h]
    intro hzero
    obtain ⟨n, -, hn⟩ := Option.bind_eq_some_iff.1 hzero
    exact nonZero_ne_some_zero _ hn

theorem natAbs_lt_of_round {d : Decimal} {n : Int} (h : round d = .ok n) :
    n.natAbs < 10 ^ Decimal.precision := by
  rw [round, Decimal.round?] at h
  split at h
  · rename_i m hm
    split at hm
    · rename_i hlt
      rw [← Except.ok.inj h, ← Option.some.inj hm]
      split
      · simpa using hlt
      · simpa using hlt
    · cases hm
  · cases h

/-- A quantity whose number, if it is whole, is not too long. -/
def Legible : Quantity → Prop
  | int n => n.natAbs < 10 ^ maxDigitsRead
  | _ => True

/-- An interval that was read is not too long to be written. -/
theorem lt_of_months {q : Quantity} (hq : q.Legible) {n : Nat} (h : q.months = .ok n) :
    n < 10 ^ maxDigitsRead := by
  have hpos : 0 < 10 ^ maxDigitsRead := Nat.pow_pos (by decide)
  cases q with
  | absent =>
    rw [← Except.ok.inj h]
    exact hpos
  | int k =>
    have hk : k.natAbs < 10 ^ maxDigitsRead := hq
    rw [← Except.ok.inj h]
    omega
  | double x =>
    rw [months] at h
    split at h
    · rename_i d hd
      cases hround : round d with
      | error e =>
        rw [hround] at h
        cases h
      | ok k =>
        rw [hround] at h
        have hk := natAbs_lt_of_round hround
        have hle : 10 ^ Decimal.precision ≤ 10 ^ maxDigitsRead :=
          Nat.pow_le_pow_right (by decide) (by decide)
        rw [← Except.ok.inj h]
        omega
    · rw [← Except.ok.inj h]
      exact hpos
  | text s =>
    rw [← Except.ok.inj h]
    cases hread : readInt? (trim s) with
    | none => exact hpos
    | some k =>
      have hk := natAbs_lt_of_readInt? hread
      rw [Option.getD_some]
      omega

end Quantity

namespace Reply

theorem legible_member? {members : Json.Members} (h : (Json.obj members).Legible)
    {name : String} {v : Json} (hv : Json.member? members name = some v) : v.Legible := by
  obtain ⟨p, hp⟩ := mem_of_member?_eq_some hv
  cases h with
  | obj hmembers => exact hmembers _ hp

theorem legible_quantity {members : Json.Members} (h : (Json.obj members).Legible)
    (name : String) : (quantity members name).Legible := by
  rw [quantity]
  split
  · rename_i v hv
    cases legible_member? h hv with
    | int hn => exact hn
    | _ => trivial
  · trivial

theorem settled_trimmedProse {members : Json.Members} (h : (Json.obj members).Legible)
    (name : String) : (trimmedProse members name).Settled := by
  rw [trimmedProse]
  split
  · rename_i p hp
    rw [prose?] at hp
    split at hp
    · rename_i q hq
      cases hp
      cases legible_member? h hq with
      | str hsound => exact hsound.settled_trim
    · cases hp
  · exact Text.Prose.settled_nil

theorem legible_of_mem_objects {members : Json.Members} (h : (Json.obj members).Legible)
    (name : String) {entry : Json.Members} (he : entry ∈ objects members name) :
    (Json.obj entry).Legible := by
  rw [objects] at he
  split at he
  · rename_i items hitems
    obtain ⟨v, hv, hentry⟩ := List.mem_filterMap.1 he
    have hlegible : v.Legible := by
      cases legible_member? h hitems with
      | arr hall => exact hall v hv
    split at hentry
    · rwa [Option.some.inj hentry] at hlegible
    · cases hentry
  · cases he

theorem settled_of_maintenanceItem? {entry : Json.Members} (h : (Json.obj entry).Legible)
    {m : MaintenanceItem} (hm : maintenanceItem? entry = .ok (some m)) : m.Settled := by
  rw [maintenanceItem?] at hm
  split at hm
  · cases hm
  · rename_i n hn
    dsimp only at hm
    split at hm
    · cases hm
    · rename_i hnamed
      split at hm
      · cases hm
        exact ⟨settled_trimmedProse h "name", fun hnil => hnamed (List.isEmpty_iff.2 hnil),
          Quantity.lt_of_months (legible_quantity h _) hn⟩
      · cases hm

theorem settled_of_maintenanceItems {entries : List Json.Members}
    (h : ∀ entry ∈ entries, (Json.obj entry).Legible) {items : List MaintenanceItem}
    (hitems : maintenanceItems entries = .ok items) : ∀ m ∈ items, m.Settled := by
  induction entries generalizing items with
  | nil =>
    rw [← Except.ok.inj hitems]
    exact List.forall_mem_nil _
  | cons entry rest ih =>
    rw [maintenanceItems] at hitems
    split at hitems
    · cases hitems
    · rename_i item? hitem
      split at hitems
      · cases hitems
      · rename_i later hlater
        rw [← Except.ok.inj hitems]
        intro m hm
        rcases List.mem_append.1 hm with hhead | htail
        · rw [Option.mem_toList] at hhead
          rw [hhead] at hitem
          exact settled_of_maintenanceItem? (h entry List.mem_cons_self) hitem
        · exact ih (fun entry he => h entry (List.mem_cons_of_mem _ he)) hlater m htail

/-- How the fields of hints come from the members of an object. -/
structure Reads (members : Json.Members) (h : Hints) : Prop where
  documentType : documentType members = h.documentType
  title : trimmedProse members "title_suggestion" = h.title
  summary : trimmedProse members "summary" = h.summary
  vendor : trimmedProse members "vendor_hint" = h.vendor
  total : amount members "total_cents" = .ok h.total
  labor : amount members "labor_cents" = .ok h.labor
  materials : amount members "materials_cents" = .ok h.materials
  date : date members "date" = h.date
  warrantyExpiry : Reply.date members "warranty_expiry" = h.warrantyExpiry
  entityKind : entityKind members = h.entityKind
  entityName : trimmedProse members "entity_name_hint" = h.entityName
  maintenance : maintenanceItems (objects members "maintenance_items") = .ok h.maintenance
  notes : trimmedProse members "notes" = h.notes

theorem reads_of_interpret {members : Json.Members} {h : Hints}
    (hread : interpret members = .ok h) : Reads members h := by
  rw [interpret] at hread
  cases hitems : maintenanceItems (objects members "maintenance_items") with
  | error e => rw [hitems] at hread; cases hread
  | ok items =>
    cases htotal : amount members "total_cents" with
    | error e => rw [hitems, htotal] at hread; cases hread
    | ok total =>
      cases hlabor : amount members "labor_cents" with
      | error e => rw [hitems, htotal, hlabor] at hread; cases hread
      | ok labor =>
        cases hmaterials : amount members "materials_cents" with
        | error e => rw [hitems, htotal, hlabor, hmaterials] at hread; cases hread
        | ok materials =>
          rw [hitems, htotal, hlabor, hmaterials] at hread
          cases hread
          exact ⟨rfl, rfl, rfl, rfl, htotal, hlabor, hmaterials, rfl, rfl, rfl, rfl, hitems, rfl⟩

theorem settled_of_interpret {members : Json.Members} (h : (Json.obj members).Legible)
    {hints : Hints} (hread : interpret members = .ok hints) : hints.Settled := by
  have hreads := reads_of_interpret hread
  exact {
    title := hreads.title ▸ settled_trimmedProse h _
    summary := hreads.summary ▸ settled_trimmedProse h _
    vendor := hreads.vendor ▸ settled_trimmedProse h _
    entityName := hreads.entityName ▸ settled_trimmedProse h _
    notes := hreads.notes ▸ settled_trimmedProse h _
    total := Quantity.ne_some_zero_of_cents hreads.total
    labor := Quantity.ne_some_zero_of_cents hreads.labor
    materials := Quantity.ne_some_zero_of_cents hreads.materials
    maintenance := settled_of_maintenanceItems (fun entry he => legible_of_mem_objects h _ he)
      hreads.maintenance }

theorem legible_of_decode {reply : List Char} {members : Json.Members}
    (h : decode reply = .ok members) : (Json.obj members).Legible := by
  rw [decode] at h
  split at h
  · cases h
  · rename_i hread
    cases h
    exact Json.legible_of_read hread
  · cases h
    exact .obj (List.forall_mem_nil _)
  · cases h

/-- Hints that were read are settled. -/
theorem settled_of_read {reply : String} {h : Hints} (hread : read reply = .ok h) :
    h.Settled := by
  rw [read] at hread
  split at hread
  · cases hread
  · rename_i members hmembers
    split at hread
    · cases hread
    · rename_i hints hhints
      cases hread
      exact settled_of_interpret (legible_of_decode hmembers) hhints

end Reply

/-! ## The members of an object -/

namespace Hints

/-- The members of hints in their JSON object. -/
def fields (h : Hints) : Json.Members := h.members.map fun m => (Prose.ofString m.1, m.2)

theorem toJson_eq (h : Hints) : h.toJson = .obj h.fields := rfl

/-- The names of the members. -/
def names : List String :=
  ["document_type", "title_suggestion", "summary", "vendor_hint", "total_cents", "labor_cents",
   "materials_cents", "date", "warranty_expiry", "entity_kind_hint", "entity_name_hint",
   "maintenance_items", "notes"]

theorem nodup_names : names.Nodup := by decide

end Hints

theorem Text.Prose.ofString_inj {s t : String} : Prose.ofString s = Prose.ofString t ↔ s = t := by
  constructor
  · intro h
    have hchars := congrArg Prose.chars? h
    rw [Prose.ofString, Prose.ofString, Prose.chars?_ofChars, Prose.chars?_ofChars,
      Option.some.injEq] at hchars
    exact String.toList_inj.1 hchars
  · exact congrArg _

namespace Json

/-- A name that does not occur has no value. -/
theorem member?_map_of_not_mem (members : List (String × Json)) {name : String}
    (h : name ∉ members.map (·.1)) :
    member? (members.map fun m => (Prose.ofString m.1, m.2)) name = none := by
  rw [member?, Option.map_eq_none_iff, List.find?_eq_none]
  intro m hm hname
  obtain ⟨entry, hentry, rfl⟩ := List.mem_map.1 (List.mem_reverse.1 hm)
  refine h (List.mem_map.2 ⟨entry, hentry, ?_⟩)
  exact Prose.ofString_inj.1 (beq_iff_eq.1 hname)

/-- A name that occurs once has the value beside it. -/
theorem member?_map (members : List (String × Json)) (hnodup : (members.map (·.1)).Nodup)
    {name : String} {v : Json} (h : (name, v) ∈ members) :
    member? (members.map fun m => (Prose.ofString m.1, m.2)) name = some v := by
  rw [member?]
  cases hfind : (members.map fun m => (Prose.ofString m.1, m.2)).reverse.find?
      fun m => m.1 == Prose.ofString name with
  | none =>
    have hmem : (Prose.ofString name, v) ∈
        (members.map fun m => (Prose.ofString m.1, m.2)).reverse :=
      List.mem_reverse.2 (List.mem_map_of_mem h)
    exact absurd (beq_self_eq_true _) (List.find?_eq_none.1 hfind _ hmem)
  | some m =>
    have hmem := List.mem_of_find?_eq_some hfind
    have hname := List.find?_some hfind
    obtain ⟨entry, hentry, rfl⟩ := List.mem_map.1 (List.mem_reverse.1 hmem)
    have hfst : entry.1 = name := Prose.ofString_inj.1 (beq_iff_eq.1 hname)
    have hsame : entry = (name, v) := List.inj_on_of_nodup_map hnodup hentry h hfst
    rw [hsame]
    rfl

end Json

namespace Hints

theorem member?_fields (h : Hints) {name : String} {v : Json} (hmem : (name, v) ∈ h.members) :
    Json.member? h.fields name = some v :=
  Json.member?_map h.members nodup_names hmem

/-- Hints name no unit. -/
theorem member?_currency_unit (h : Hints) : Json.member? h.fields "currency_unit" = none :=
  Json.member?_map_of_not_mem h.members (show "currency_unit" ∉ names by decide)

end Hints

/-! ## Reading back -/

theorem Quantity.round_ofInt {n : Int} (h : n.natAbs < 10 ^ Decimal.precision) :
    round (.ofInt n) = .ok n := by
  have hmagnitude : (Decimal.ofInt n).roundedMagnitude = n.natAbs := by
    rw [Decimal.roundedMagnitude, if_pos (show 0 ≤ (Decimal.ofInt n).exponent from Int.le_refl 0)]
    exact Nat.mul_one _
  have hvalue : (if (Decimal.ofInt n).negative then -(n.natAbs : Int) else n.natAbs) = n := by
    simp only [Decimal.ofInt, decide_eq_true_eq]
    split <;> omega
  rw [round, Decimal.round?]
  simp only [hmagnitude, hvalue]
  rw [if_pos (show n.natAbs < Nat.pow 10 Decimal.precision from h)]

namespace Reply

/-- An amount that is not zero is read back without a unit. -/
theorem amount_of_member? {members : Json.Members} {name : String} {n? : Option Int}
    (hunit : Json.member? members "currency_unit" = none)
    (h : Json.member? members name = some (Hints.jsonOr .int n?)) (hzero : n? ≠ some 0)
    (hbound : ∀ n ∈ n?, n.natAbs < 10 ^ Decimal.precision) : amount members name = .ok n? := by
  have hnone : chars? members "currency_unit" = none := by rw [chars?, prose?, hunit]; rfl
  rw [amount, hnone, quantity, h]
  cases n? with
  | none => rfl
  | some n =>
    have hne : n ≠ 0 := fun hn => hzero (congrArg some hn)
    have hround := Quantity.round_ofInt (hbound n rfl)
    show Quantity.centsOfDecimal (.ofInt n) none = _
    rw [Quantity.centsOfDecimal, if_neg (by decide), hround]
    exact congrArg Except.ok (if_neg hne)

theorem trimmedProse_of_member? {members : Json.Members} {name : String} {p : Prose}
    (h : Json.member? members name = some (.str p)) (hp : p.Settled) :
    trimmedProse members name = p := by
  rw [trimmedProse, prose?, h]
  exact hp.trim

theorem chars?_text {members : Json.Members} {name s : String}
    (h : Json.member? members name = some (.text s)) : chars? members name = some s.toList := by
  rw [chars?, prose?, h]
  exact Prose.chars?_ofChars _

theorem chars?_null {members : Json.Members} {name : String}
    (h : Json.member? members name = some .null) : chars? members name = none := by
  rw [chars?, prose?, h]
  rfl

/-- A value with a text is read back where its text is. -/
theorem bind_chars?_of_member? {α : Type} {members : Json.Members} {name : String} {a? : Option α}
    {toText : α → String} {ofText? : List Char → Option α}
    (h : Json.member? members name = some (Hints.jsonOr (.text <| toText ·) a?))
    (hback : ∀ a, ofText? (toText a).toList = some a) :
    (chars? members name).bind ofText? = a? := by
  cases a? with
  | none => rw [chars?_null h]; rfl
  | some a => rw [chars?_text h]; exact hback a

end Reply

theorem DocumentType.ofName?_lookupForm (t : DocumentType) :
    DocumentType.ofName? (Reply.lookupForm t.name.toList) = some t := by
  cases t <;> decide

theorem EntityKind.ofName?_lookupForm (k : EntityKind) :
    EntityKind.ofName? (Reply.lookupForm k.name.toList) = some k := by
  cases k <;> decide

/-! The members of a maintenance item. -/

namespace MaintenanceItem

/-- The members of an item in its JSON object. -/
def fields (m : MaintenanceItem) : Json.Members :=
  [(Prose.ofString "name", .str m.name), (Prose.ofString "interval_months", .int m.months)]

theorem itemJson_eq (m : MaintenanceItem) : Hints.itemJson m = .obj m.fields := rfl

theorem member?_name (m : MaintenanceItem) :
    Json.member? m.fields "name" = some (.str m.name) :=
  Json.member?_map [("name", .str m.name), ("interval_months", .int m.months)]
    (show ["name", "interval_months"].Nodup by decide) List.mem_cons_self

theorem member?_interval_months (m : MaintenanceItem) :
    Json.member? m.fields "interval_months" = some (.int m.months) :=
  Json.member?_append_last [(Prose.ofString "name", .str m.name)] "interval_months" _

end MaintenanceItem

namespace Reply

theorem maintenanceItem?_fields {m : MaintenanceItem} (h : m.Settled) :
    maintenanceItem? m.fields = .ok (some m) := by
  have hmonths : (quantity m.fields "interval_months").months = .ok m.months := by
    rw [quantity, m.member?_interval_months]
    rfl
  have hname : trimmedProse m.fields "name" = m.name :=
    trimmedProse_of_member? m.member?_name h.name
  have hnamed : m.name.isEmpty = false := List.isEmpty_eq_false_iff.2 h.named
  rw [maintenanceItem?, hmonths]
  simp only [hname, hnamed]
  rw [if_neg (by decide), dif_pos m.months_pos]

theorem maintenanceItems_fields {items : List MaintenanceItem} (h : ∀ m ∈ items, m.Settled) :
    maintenanceItems (items.map (·.fields)) = .ok items := by
  induction items with
  | nil => rfl
  | cons m rest ih =>
    have hrest := ih fun m hm => h m (List.mem_cons_of_mem _ hm)
    rw [List.map_cons, maintenanceItems, maintenanceItem?_fields (h m List.mem_cons_self)]
    simp only [hrest]
    rfl

theorem objects_of_member? {members : Json.Members} {name : String} {items : List MaintenanceItem}
    (h : Json.member? members name = some (.arr (items.map Hints.itemJson))) :
    objects members name = items.map (·.fields) := by
  rw [objects, h]
  simp only [List.filterMap_map]
  rw [← List.filterMap_eq_map]
  rfl

end Reply

/-- Amounts that can be rounded. -/
def Hints.Bounded (h : Hints) : Prop := ∀ n ∈ h.amounts, n.natAbs < 10 ^ 28

namespace Reply

/-- Every field of settled hints is read back. -/
theorem interpret_fields {h : Hints} (hs : h.Settled) (hbound : h.Bounded) :
    interpret h.fields = .ok h := by
  have htext : ∀ {name : String} {p : Prose}, (name, .str p) ∈ h.members → p.Settled →
      trimmedProse h.fields name = p :=
    fun hmem hp => trimmedProse_of_member? (h.member?_fields hmem) hp
  have hamount : ∀ {name : String} {n? : Option Int}, (name, Hints.jsonOr .int n?) ∈ h.members →
      n? ≠ some 0 → (∀ n ∈ n?, n ∈ h.amounts) → amount h.fields name = .ok n? :=
    fun hmem hzero hsub => amount_of_member? h.member?_currency_unit (h.member?_fields hmem) hzero
      fun n hn => hbound n (hsub n hn)
  have hdate : ∀ {name : String} {d? : Option Calendar.Date},
      (name, Hints.jsonOr (.text ·.iso) d?) ∈ h.members → date h.fields name = d? :=
    fun hmem => bind_chars?_of_member? (h.member?_fields hmem) fun d => by
      rw [Calendar.Date.iso, String.toList_ofList, d.read?_isoChars]
  have hitems : maintenanceItems (objects h.fields "maintenance_items") = .ok h.maintenance := by
    have hmember : Json.member? h.fields "maintenance_items" =
        some (.arr (h.maintenance.map Hints.itemJson)) :=
      h.member?_fields (by simp [Hints.members])
    rw [objects_of_member? hmember, maintenanceItems_fields hs.maintenance]
  have htotal : amount h.fields "total_cents" = .ok h.total :=
    hamount (by simp [Hints.members]) hs.total (by simp +contextual [Hints.amounts])
  have hlabor : amount h.fields "labor_cents" = .ok h.labor :=
    hamount (by simp [Hints.members]) hs.labor (by simp +contextual [Hints.amounts])
  have hmaterials : amount h.fields "materials_cents" = .ok h.materials :=
    hamount (by simp [Hints.members]) hs.materials (by simp +contextual [Hints.amounts])
  have hissued : date h.fields "date" = h.date := hdate (by simp [Hints.members])
  have hexpiry : date h.fields "warranty_expiry" = h.warrantyExpiry :=
    hdate (by simp [Hints.members])
  have hdocument : documentType h.fields = h.documentType :=
    bind_chars?_of_member? (h.member?_fields (by simp [Hints.members]))
      DocumentType.ofName?_lookupForm
  have hkind : entityKind h.fields = h.entityKind :=
    bind_chars?_of_member? (h.member?_fields (by simp [Hints.members]))
      EntityKind.ofName?_lookupForm
  rw [interpret, hitems, htotal, hlabor, hmaterials, hissued, hexpiry, hdocument, hkind,
    htext (by simp [Hints.members]) hs.title, htext (by simp [Hints.members]) hs.summary,
    htext (by simp [Hints.members]) hs.vendor, htext (by simp [Hints.members]) hs.entityName,
    htext (by simp [Hints.members]) hs.notes]
  rfl

end Reply

namespace Hints

theorem plain_jsonOr {α : Type} {f : α → Json} {depth : Nat} {a? : Option α}
    (h : ∀ a ∈ a?, Json.Plain depth (f a)) : Json.Plain depth (jsonOr f a?) := by
  cases a? with
  | none => exact .null depth
  | some a => exact h a rfl

theorem plain_text (depth : Nat) (s : String) : Json.Plain depth (.text s) :=
  .str depth (Prose.sound_ofChars _)

/-- An object with plain names can be written when its values can. -/
theorem plain_object {depth : Nat} {entries : List (String × Json)}
    (h : ∀ m ∈ entries, Json.Plain depth m.2) : Json.Plain (depth + 1) (.object entries) := by
  refine .obj (fun m hm => ?_) fun m hm => ?_
  · obtain ⟨entry, -, rfl⟩ := List.mem_map.1 hm
    exact Prose.sound_ofChars _
  · obtain ⟨entry, hentry, rfl⟩ := List.mem_map.1 hm
    exact h entry hentry

theorem plain_itemJson {m : MaintenanceItem} (h : m.Settled) : Json.Plain 1 (itemJson m) := by
  apply plain_object
  simp only [List.mem_cons, List.not_mem_nil, or_false, forall_eq_or_imp, forall_eq]
  exact ⟨.str 0 h.name.sound, .int 0 (by simpa using h.months)⟩

/-- Settled hints can be written in full. -/
theorem plain_toJson {h : Hints} (hs : h.Settled) (hbound : h.Bounded) :
    Json.Plain 3 h.toJson := by
  have hamount : ∀ {n? : Option Int}, (∀ n ∈ n?, n ∈ h.amounts) →
      Json.Plain 2 (jsonOr .int n?) := by
    intro n? hsub
    refine plain_jsonOr fun n hn => .int 2 ((hbound n (hsub n hn)).trans_le ?_)
    exact Nat.pow_le_pow_right (by decide) (by decide)
  have hitems : ∀ v ∈ h.maintenance.map itemJson, Json.Plain 1 v := by
    intro v hv
    obtain ⟨m, hm, rfl⟩ := List.mem_map.1 hv
    exact plain_itemJson (hs.maintenance m hm)
  apply plain_object
  simp only [members, List.mem_cons, List.not_mem_nil, or_false, forall_eq_or_imp, forall_eq]
  exact ⟨plain_jsonOr fun _ _ => plain_text 2 _, .str 2 hs.title.sound, .str 2 hs.summary.sound,
    .str 2 hs.vendor.sound, hamount (by simp +contextual [amounts]),
    hamount (by simp +contextual [amounts]), hamount (by simp +contextual [amounts]),
    plain_jsonOr fun _ _ => plain_text 2 _, plain_jsonOr fun _ _ => plain_text 2 _,
    plain_jsonOr fun _ _ => plain_text 2 _, .str 2 hs.entityName.sound, .arr hitems,
    .str 2 hs.notes.sound⟩

end Hints

/-- A text in braces has no fence and no blanks at its ends. -/
theorem Text.unfence_braces (body : List Char) :
    unfence ('\x7b' :: body ++ ['\x7d']) = '\x7b' :: body ++ ['\x7d'] := by
  have hopen : isBlank '\x7b' = false := by decide
  have hclose : isBlank '\x7d' = false := by decide
  have htrim : trim ('\x7b' :: body ++ ['\x7d']) = '\x7b' :: body ++ ['\x7d'] := by
    simp [trim, trimStart, trimEnd, hopen, hclose]
  have hfence : fence.isPrefixOf ('\x7b' :: body ++ ['\x7d']) = false := rfl
  rw [unfence, htrim]
  simp only [hfence]
  rw [if_neg (by decide)]

namespace Reply

/-- An object that can be written is decoded as it was. -/
theorem decode_write {bound : Nat} {members : Json.Members} (h : Json.Plain bound (.obj members))
    (hbound : bound ≤ Json.maxDepth) :
    decode (Json.write .compact (.obj members)) = .ok members := by
  have hbraces : ∃ body, Json.write .compact (.obj members) = '\x7b' :: body ++ ['\x7d'] := by
    cases members with
    | nil => exact ⟨[], rfl⟩
    | cons m rest =>
      rw [Json.write, Json.writeAt]
      exact ⟨_, rfl⟩
  have hunfence : unfence (Json.write .compact (.obj members)) =
      Json.write .compact (.obj members) := by
    obtain ⟨body, hbody⟩ := hbraces
    rw [hbody, unfence_braces]
  rw [decode]
  simp only [hunfence, Json.read_write h hbound]

/-- An object that can be written is read as what its members say. -/
theorem read_written_of_interpret {bound : Nat} {members : Json.Members}
    (h : Json.Plain bound (.obj members)) (hbound : bound ≤ Json.maxDepth) {hints : Hints}
    (hinterpret : interpret members = .ok hints) :
    read (Json.written .compact (.obj members)) = .ok hints := by
  have hdecode := decode_write h hbound
  rw [read, Json.written, String.toList_ofList, hdecode]
  simp only [hinterpret]

/-- Settled hints that are written are read back. -/
theorem read_written_of_settled {h : Hints} (hs : h.Settled) (hbound : h.Bounded) :
    read (Json.written .compact h.toJson) = .ok h :=
  read_written_of_interpret (h.toJson_eq ▸ Hints.plain_toJson hs hbound) (by decide)
    (interpret_fields hs hbound)

/-- The hints of a reply are read again from what is written of them, unless
an amount is too large to be rounded. -/
theorem read_written {reply : String} {h : Hints} (hread : read reply = .ok h)
    (hbound : ∀ n ∈ h.amounts, n.natAbs < 10 ^ 28) :
    read (Json.written .compact h.toJson) = .ok h :=
  read_written_of_settled (settled_of_read hread) hbound

/-- A reply with a name in capitals, a date in another layout, blanks around a
title and an entry that is no object. -/
def permitReply : String :=
  "\x7b\"document_type\": \"Permit\", \"title_suggestion\": \" Deck permit \", \"summary\": 7, " ++
  "\"total_cents\": \"$12.50\", \"currency_unit\": \"dollars\", \"date\": \"1/15/2025\", " ++
  "\"maintenance_items\": [\x7b\"name\": \"Oil deck\", \"interval_months\": \"12\"\x7d, 3]\x7d"

/-- What is read from it. -/
def permitHints : Hints where
  documentType := some .permit
  title := Prose.ofString "Deck permit"
  total := some 1250
  date := some ⟨2025, 1, 15, by decide⟩
  maintenance := [⟨Prose.ofString "Oil deck", 12, by decide⟩]

theorem read_written_permit :
    read permitReply = .ok permitHints ∧
      read (Json.written .compact permitHints.toJson) = .ok permitHints := by
  have hread : read permitReply = .ok permitHints := by decide +kernel
  exact ⟨hread, read_written hread (by decide)⟩

end Reply

end Intake
