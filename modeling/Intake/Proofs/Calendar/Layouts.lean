import Intake.Proofs.Calendar.Spelled
import Mathlib.Data.Option.Basic

/-!
# Layouts apart

No text is read as two dates by two layouts, so the order in which they are tried does not
matter.

There are three groups.

* Reading on.  `Layout.readFrom` reads the rest of a text, and `readFrom_number` reads a
  spelled number that is followed by something else.
* Styles.  `style` tells dashed, slashed and named dates apart by one character;
  `style_of_read?` says that a layout reads texts of its own style only.
* Layouts of one style.  `read?_isoMinute` and `read?_shortDate` compare the two layouts of
  dashed and of named dates; `read?_unique` and `findSome?_layouts` are the result.
-/

namespace Intake.Calendar

open Text Number

variable {p : Parts} {s t rest : List Char} {n : Nat} {items : Layout}

/-! ## Reading on -/

/-- Reads the rest of a text by the rest of a layout. -/
def Layout.readFrom (p : Parts) (s : List Char) (items : Layout) : Option Date :=
  match items.parts p s with
  | some (p, []) => Date.ofParts? p.year p.month p.day
  | _ => none

theorem Layout.read?_eq (layout : Layout) (s : List Char) : layout.read? s = layout.readFrom {} s :=
  rfl

theorem readFrom_cons (item : Item) (items : Layout) :
    Layout.readFrom p s (item :: items) =
      (item.read p s).bind fun r => Layout.readFrom r.1 r.2 items := by
  rw [Layout.readFrom, Layout.parts]
  cases item.read p s <;> rfl

theorem readFrom_char (c d : Char) (h : c.toLower = d) :
    Layout.readFrom p (c :: rest) (.char d :: items) = Layout.readFrom p rest items := by
  simp [readFrom_cons, Item.read, h]

theorem readFrom_char_of_ne {c d : Char} (h : c.toLower ≠ d) :
    Layout.readFrom p (c :: rest) (.char d :: items) = none := by
  simp [readFrom_cons, Item.read, h]

theorem readFrom_year (h : n < 10000) : Layout.readFrom p (padded 4 n ++ rest) (.year :: items) =
    Layout.readFrom { p with year := n } rest items := by
  have hread : readYear (padded 4 n ++ rest) = some (n, rest) := by
    rw [padded_four h]
    exact readYear_digits h rest
  rw [readFrom_cons, Item.read, hread]
  rfl

theorem readFrom_blanks {gap : List Char} (hgap : gap ≠ []) (hblank : ∀ c ∈ gap, isBlank c = true)
    (hrest : ∀ c ∈ rest.head?, isBlank c = false) :
    Layout.readFrom p (gap ++ rest) (.blanks :: items) = Layout.readFrom p rest items := by
  cases gap with
  | nil => exact absurd rfl hgap
  | cons b gap =>
    obtain ⟨hb, hgap⟩ := List.forall_mem_cons.1 hblank
    have hdrop : (gap ++ rest).dropWhile isBlank = rest := by
      rw [List.dropWhile_append_of_pos hgap, dropWhile_of_head? hrest]
    simp only [readFrom_cons, Item.read, List.cons_append, if_pos hb, hdrop, Option.bind_some]

/-- A layout with nothing for a digit at the start. -/
def Guarded (items : Layout) : Prop := ∀ p s, Digital s → items.readFrom p s = none

theorem guarded_nil : Guarded [] := by
  intro p s h
  cases s with
  | nil => simp [Digital] at h
  | cons c s => rfl

theorem guarded_char {d : Char} (hd : d.isDigit = false) : Guarded (.char d :: items) := by
  intro p s h
  cases s with
  | nil => simp [Digital] at h
  | cons c s =>
    have hc : c.isDigit = true := by simpa [Digital] using h
    apply readFrom_char_of_ne
    rw [toLower_of_isDigit hc]
    rintro rfl
    rw [hc] at hd
    cases hd

variable {read : List Char → Found} {low high : Nat}

/-- A spelled number that another item guards is read if it is in the range, and nothing is
read otherwise. -/
theorem readFrom_number {item : Item} (set : Parts → Nat → Parts)
    (hitem : ∀ p s, item.read p s = (read s).map fun r => (set p r.1, r.2))
    (hread : Counts read low high) (ht : Spells t n) (hrest : Stops rest) (hitems : Guarded items) :
    Layout.readFrom p (t ++ rest) (item :: items) =
      if low ≤ n ∧ n ≤ high then Layout.readFrom (set p n) rest items else none := by
  have hfits := hread.read_spelled ht hrest
  rw [readFrom_cons, hitem]
  unfold Fits at hfits
  split
  · rename_i hrange
    rw [if_pos hrange] at hfits
    rw [hfits]
    rfl
  · rename_i hrange
    rw [if_neg hrange] at hfits
    cases hfound : read (t ++ rest) with
    | none => rfl
    | some r => exact hitems _ _ (hfits r hfound)

theorem readFrom_month (ht : Spells t n) (hrest : Stops rest) (hitems : Guarded items) :
    Layout.readFrom p (t ++ rest) (.month :: items) =
      if 1 ≤ n ∧ n ≤ 12 then Layout.readFrom { p with month := n } rest items else none :=
  readFrom_number (fun p n => { p with month := n }) (fun _ _ => rfl) counts_readMonth ht
    hrest hitems

theorem readFrom_day (ht : Spells t n) (hrest : Stops rest) (hitems : Guarded items) :
    Layout.readFrom p (t ++ rest) (.day :: items) =
      if 1 ≤ n ∧ n ≤ 31 then Layout.readFrom { p with day := n } rest items else none :=
  readFrom_number (fun p n => { p with day := n }) (fun _ _ => rfl) counts_readDay ht hrest hitems

theorem readFrom_hour (ht : Spells t n) (hrest : Stops rest) (hitems : Guarded items) :
    Layout.readFrom p (t ++ rest) (.hour :: items) =
      if 0 ≤ n ∧ n ≤ 23 then Layout.readFrom p rest items else none :=
  readFrom_number (fun p _ => p) (fun _ _ => rfl) counts_readHour ht hrest hitems

theorem readFrom_minute (ht : Spells t n) (hrest : Stops rest) (hitems : Guarded items) :
    Layout.readFrom p (t ++ rest) (.minute :: items) =
      if 0 ≤ n ∧ n ≤ 59 then Layout.readFrom p rest items else none :=
  readFrom_number (fun p _ => p) (fun _ _ => rfl) counts_readMinute ht hrest hitems

/-! ## Styles -/

/-- The ways of writing a date that one character tells apart. -/
inductive Style where
  | dashed
  | slashed
  | named
  deriving DecidableEq

/-- The style of a text, by its first character that is no digit. -/
def style (s : List Char) : Style :=
  match s.find? fun c => ! isDecimal c with
  | some '-' => .dashed
  | some '/' => .slashed
  | _ => .named

/-- The style of the texts that a layout reads. -/
def Layout.style (layout : Layout) : Style :=
  if .char '-' ∈ layout then .dashed else if .char '/' ∈ layout then .slashed else .named

theorem style_cons {c : Char} (h : isDecimal c = true) : style (c :: s) = style s := by
  rw [style, style, List.find?_cons_of_neg (by simp [h])]

theorem style_append (h : ∀ c ∈ t, c.isDigit = true) : style (t ++ s) = style s := by
  induction t with
  | nil => rfl
  | cons c t ih =>
    obtain ⟨hc, ht⟩ := List.forall_mem_cons.1 h
    have hdecimal : isDecimal c = true := by rw [isDecimal, digitValue?_ofAscii hc]; rfl
    rw [List.cons_append, style_cons hdecimal, ih ht]

theorem style_cons_of_isAlpha {c : Char} (h : c.isAlpha = true) : style (c :: s) = .named := by
  have hdecimal : isDecimal c = false := by rw [isDecimal, digitValue?_of_isAlpha h]; rfl
  rw [style, List.find?_cons_of_pos (by simp [hdecimal])]
  split
  · rename_i heq
    cases heq
    cases h
  · rename_i heq
    cases heq
    cases h
  · rfl

theorem style_of_readYear (h : readYear s = some (n, rest)) : style s = style rest := by
  unfold readYear at h
  split at h
  · rename_i a b c d left
    simp only [List.mapM_cons, List.mapM_nil, Option.bind_eq_bind, Option.pure_def,
      Option.bind_eq_some_iff, Option.some.injEq, Prod.mk.injEq] at h
    obtain ⟨ds, ⟨i, hi, js, ⟨j, hj, ks, ⟨k, hk, ls, ⟨l, hl, -⟩, -⟩, -⟩, -⟩, -, rfl⟩ := h
    rw [style_cons (by simp [isDecimal, hi]), style_cons (by simp [isDecimal, hj]),
      style_cons (by simp [isDecimal, hk]), style_cons (by simp [isDecimal, hl])]
  · cases h

theorem isDecimal_of_digitIn {low high c : Char} (hlow : '0' ≤ low) (hhigh : high ≤ '9')
    (h : (digitIn low high c).isSome = true) : isDecimal c = true := by
  by_contra hnot
  have hnone : digitValue? c = none := by simpa [isDecimal] using hnot
  rw [digitIn_eq_none hlow hhigh c hnone] at h
  cases h

theorem style_of_twoDigits {a b low high : Char} (ha : '0' ≤ a) (hb : b ≤ '9')
    (hlow : '0' ≤ low) (hhigh : high ≤ '9')
    (h : twoDigits a b (digitIn low high) s = some (n, rest)) : style s = style rest := by
  unfold twoDigits at h
  split at h
  · rename_i c d left
    split at h
    · rename_i hrange
      obtain ⟨v, hv, heq⟩ := Option.map_eq_some_iff.1 h
      obtain ⟨-, rfl⟩ := Prod.mk.inj heq
      rw [style_cons (isDecimal_of_digitIn ha hb (by rw [digitIn, if_pos hrange]; rfl)),
        style_cons (isDecimal_of_digitIn hlow hhigh (by rw [hv]; rfl))]
    · cases h
  · cases h

theorem style_of_oneDigit {low high : Char} (hlow : '0' ≤ low) (hhigh : high ≤ '9')
    (h : oneDigit (digitIn low high) s = some (n, rest)) : style s = style rest := by
  unfold oneDigit at h
  split at h
  · obtain ⟨v, hv, heq⟩ := Option.map_eq_some_iff.1 h
    obtain ⟨-, rfl⟩ := Prod.mk.inj heq
    rw [style_cons (isDecimal_of_digitIn hlow hhigh (by rw [hv]; rfl))]
  · cases h

theorem style_of_readMonth (h : readMonth s = some (n, rest)) : style s = style rest := by
  rw [readMonth, Option.orElse_eq_some, Option.orElse_eq_some] at h
  rcases h with h | ⟨-, h | ⟨-, h⟩⟩
  · exact style_of_twoDigits (by decide) (by decide) (by decide) (by decide) h
  · exact style_of_twoDigits (by decide) (by decide) (by decide) (by decide) h
  · exact style_of_oneDigit (by decide) (by decide) h

theorem eq_of_toLower_eq {c d : Char} (hd : d.isLower = false) (h : c.toLower = d) : c = d := by
  have halpha : c.isAlpha = false := by
    rw [← Bool.not_eq_true]
    intro halpha
    rw [← h, isLower_toLower_of_isAlpha halpha] at hd
    cases hd
  rw [← h, toLower_of_not_isAlpha halpha]

/-- What a layout reads that begins with a character. -/
theorem exists_of_readFrom_char {d : Char} {date : Date} (hd : d.isLower = false)
    (h : Layout.readFrom p s (.char d :: items) = some date) : ∃ rest, s = d :: rest := by
  cases s with
  | nil => cases h
  | cons c rest =>
    by_cases hc : c.toLower = d
    · exact ⟨rest, by rw [eq_of_toLower_eq hd hc]⟩
    · rw [readFrom_char_of_ne hc] at h
      cases h

theorem style_of_names {names : List String} (hnames : names ∈ nameLists)
    (h : Names names t n) : style (t ++ rest) = .named := by
  have halpha := h.isAlpha hnames
  cases t with
  | nil => exact absurd rfl (h.ne_nil hnames)
  | cons c t => exact style_cons_of_isAlpha (halpha c List.mem_cons_self)

theorem style_of_readName {names : List String} (hnames : names ∈ nameLists)
    (h : readName names s = some (n, rest)) : style s = .named := by
  obtain ⟨name, rfl, hname⟩ := names_of_readName h
  exact style_of_names hnames hname

theorem exists_of_readFrom_cons {item : Item} {date : Date}
    (h : Layout.readFrom p s (item :: items) = some date) :
    ∃ q rest, item.read p s = some (q, rest) ∧ Layout.readFrom q rest items = some date := by
  rw [readFrom_cons] at h
  obtain ⟨⟨q, rest⟩, hread, hrest⟩ := Option.bind_eq_some_iff.1 h
  exact ⟨q, rest, hread, hrest⟩

/-- Digits with a mark behind them have the style of the mark. -/
theorem style_of_numbered {item : Item} {d : Char} (hd : d.isLower = false)
    (hitem : ∀ q rest, item.read p s = some (q, rest) → style s = style rest) {date : Date}
    (h : Layout.readFrom p s (item :: .char d :: items) = some date) :
    ∃ rest, style s = style (d :: rest) := by
  obtain ⟨q, rest, hread, hrest⟩ := exists_of_readFrom_cons h
  obtain ⟨left, rfl⟩ := exists_of_readFrom_char hd hrest
  exact ⟨left, hitem q _ hread⟩

/-- A layout reads only texts of its own style. -/
theorem style_of_read? {layout : Layout} (hlayout : layout ∈ layouts) {date : Date}
    (h : layout.read? s = some date) : style s = layout.style := by
  have hyear : ∀ p q rest, Item.read p s .year = some (q, rest) → style s = style rest := by
    intro p q rest hread
    obtain ⟨r, hyear, heq⟩ := Option.map_eq_some_iff.1 hread
    rw [← (Prod.mk.inj heq).2]
    exact style_of_readYear hyear
  have hmonth : ∀ p q rest, Item.read p s .month = some (q, rest) → style s = style rest := by
    intro p q rest hread
    obtain ⟨r, hmonth, heq⟩ := Option.map_eq_some_iff.1 hread
    rw [← (Prod.mk.inj heq).2]
    exact style_of_readMonth hmonth
  rw [Layout.read?_eq] at h
  simp only [layouts, List.mem_cons, List.not_mem_nil, or_false] at hlayout
  rcases hlayout with rfl | rfl | rfl | rfl | rfl
  case inl | inr.inr.inr.inr =>
    obtain ⟨rest, hstyle⟩ := style_of_numbered (by decide) (hyear _) h
    rw [hstyle]
    rfl
  case inr.inl =>
    obtain ⟨rest, hstyle⟩ := style_of_numbered (by decide) (hmonth _) h
    rw [hstyle]
    rfl
  case inr.inr.inl =>
    obtain ⟨q, rest, hread, -⟩ := exists_of_readFrom_cons h
    obtain ⟨r, hname, -⟩ := Option.map_eq_some_iff.1 hread
    exact style_of_readName (by decide) hname
  case inr.inr.inr.inl =>
    obtain ⟨q, rest, hread, -⟩ := exists_of_readFrom_cons h
    obtain ⟨r, hname, -⟩ := Option.map_eq_some_iff.1 hread
    exact style_of_readName (by decide) hname

/-! ## Layouts of one style -/

theorem parts_append (first second : Layout) :
    Layout.parts p s (first ++ second) =
      (first.parts p s).bind fun r => Layout.parts r.1 r.2 second := by
  induction first generalizing p s with
  | nil => rfl
  | cons item items ih =>
    rw [List.cons_append, Layout.parts, Layout.parts]
    cases item.read p s with
    | none => rfl
    | some r => exact ih

/-- A whole date leaves nothing for a time. -/
theorem read?_isoMinute {date : Date} (h : isoDate.read? s = some date) :
    isoMinute.read? s = none := by
  rw [Layout.read?] at h ⊢
  rw [isoMinute, parts_append]
  split at h
  · rename_i heq
    rw [heq]
    rfl
  · cases h

theorem exists_blank_of_readFrom {date : Date}
    (h : Layout.readFrom p s (.blanks :: items) = some date) :
    ∃ b rest, s = b :: rest ∧ isBlank b = true := by
  obtain ⟨q, rest, hread, -⟩ := exists_of_readFrom_cons h
  cases s with
  | nil => cases hread
  | cons b left =>
    rw [Item.read] at hread
    split at hread
    · rename_i hb
      exact ⟨b, left, rfl, hb⟩
    · cases hread

/-- The layouts that read the name of a month differ in the names only. -/
def named (item : Item) : Layout := [item, .blanks, .day, .char ',', .blanks, .year]

/-- An item that reads the month by one of the two lists of names. -/
structure ReadsNames (item : Item) (names : List String) : Prop where
  mem : names ∈ nameLists
  read : ∀ p s, item.read p s = (readName names s).map fun r => ({ p with month := r.1 }, r.2)

theorem readsNames_monthName : ReadsNames .monthName monthNames := ⟨by decide, fun _ _ => rfl⟩

theorem readsNames_shortMonthName : ReadsNames .shortMonthName shortMonthNames :=
  ⟨by decide, fun _ _ => rfl⟩

/-- What a layout of named dates makes of a text with the name of a month. -/
theorem readFrom_named {own other : List String} (hown : own ∈ nameLists) {item : Item}
    (hitem : ReadsNames item other) {name : List Char} {month : Nat} (hname : Names own name month)
    {b : Char} (hb : isBlank b = true) (rest : List Char) :
    Layout.readFrom {} (name ++ b :: rest) (named item) =
        Layout.readFrom { month := month } (b :: rest) [.blanks, .day, .char ',', .blanks, .year] ∨
      own ≠ other ∧ Layout.readFrom {} (name ++ b :: rest) (named item) = none := by
  rw [named, readFrom_cons, hitem.read]
  rcases readName_spelled hown hitem.mem hname hb rest with hread | ⟨hne, hread⟩
  · left
    rw [hread]
    rfl
  · right
    refine ⟨hne, ?_⟩
    cases hfound : readName other (name ++ b :: rest) with
    | none => rfl
    | some r =>
      obtain ⟨c, hc, hblank⟩ := hread r hfound
      by_contra hsome
      obtain ⟨date, hdate⟩ := Option.ne_none_iff_exists'.1 hsome
      obtain ⟨b', left, hleft, hb'⟩ := exists_blank_of_readFrom hdate
      rw [show r.2 = b' :: left from hleft] at hc
      cases hc
      rw [hblank] at hb'
      cases hb'

/-- A date that is read by name has the month of this name. -/
theorem exists_name_of_readFrom {names : List String} {item : Item} (hitem : ReadsNames item names)
    {date : Date} (h : Layout.readFrom {} s (named item) = some date) :
    ∃ name b rest month, s = name ++ b :: rest ∧ isBlank b = true ∧ Names names name month ∧
      Layout.readFrom { month := month } (b :: rest)
        [.blanks, .day, .char ',', .blanks, .year] = some date := by
  obtain ⟨q, left, hread, hrest⟩ := exists_of_readFrom_cons h
  rw [hitem.read] at hread
  obtain ⟨⟨month, left⟩, hfound, heq⟩ := Option.map_eq_some_iff.1 hread
  obtain ⟨rfl, rfl⟩ := Prod.mk.inj heq
  obtain ⟨name, hs, hname⟩ := names_of_readName hfound
  obtain ⟨b, rest, rfl, hb⟩ := exists_blank_of_readFrom hrest
  exact ⟨name, b, rest, month, hs, hb, hname, hrest⟩

/-- The two lists of names give one date, if both give a date. -/
theorem read?_shortDate {d e : Date} (hd : longDate.read? s = some d)
    (he : shortDate.read? s = some e) : d = e := by
  obtain ⟨name, b, rest, month, rfl, hb, hname, hrest⟩ :=
    exists_name_of_readFrom readsNames_monthName hd
  rcases readFrom_named readsNames_monthName.mem readsNames_shortMonthName hname hb rest with
    hsame | ⟨-, hnone⟩
  · rw [← hsame] at hrest
    exact Option.some.inj (hrest.symm.trans he)
  · rw [show shortDate.read? (name ++ b :: rest) = none from hnone] at he
    cases he

theorem eq_of_style_eq : ∀ a ∈ layouts, ∀ b ∈ layouts, a.style = b.style →
    a = b ∨ a = isoDate ∧ b = isoMinute ∨ a = isoMinute ∧ b = isoDate ∨
      a = longDate ∧ b = shortDate ∨ a = shortDate ∧ b = longDate := by
  decide

/-- No text is read as two dates. -/
theorem read?_unique {a b : Layout} (ha : a ∈ layouts) (hb : b ∈ layouts) {d e : Date}
    (hd : a.read? s = some d) (he : b.read? s = some e) : d = e := by
  have hstyle : a.style = b.style := by
    rw [← style_of_read? ha hd, style_of_read? hb he]
  rcases eq_of_style_eq a ha b hb hstyle with
    rfl | ⟨rfl, rfl⟩ | ⟨rfl, rfl⟩ | ⟨rfl, rfl⟩ | ⟨rfl, rfl⟩
  · exact Option.some.inj (hd.symm.trans he)
  · rw [read?_isoMinute hd] at he
    cases he
  · rw [read?_isoMinute he] at hd
    cases hd
  · exact read?_shortDate hd he
  · exact (read?_shortDate he hd).symm

/-- The layouts may be tried in any order. -/
theorem findSome?_layouts {order : List Layout} (horder : order.Perm layouts) (s : List Char) :
    (order.findSome? fun layout => layout.read? s) =
      layouts.findSome? fun layout => layout.read? s := by
  cases hfirst : layouts.findSome? fun layout => layout.read? s with
  | none =>
    rw [List.findSome?_eq_none_iff] at hfirst ⊢
    exact fun a ha => hfirst a (horder.mem_iff.1 ha)
  | some d =>
    obtain ⟨a, ha, hd⟩ := List.exists_of_findSome?_eq_some hfirst
    cases hother : order.findSome? fun layout => layout.read? s with
    | none =>
      rw [List.findSome?_eq_none_iff] at hother
      rw [hother a (horder.mem_iff.2 ha)] at hd
      cases hd
    | some e =>
      obtain ⟨b, hb, he⟩ := List.exists_of_findSome?_eq_some hother
      rw [read?_unique (horder.mem_iff.1 hb) ha he hd]

end Intake.Calendar
