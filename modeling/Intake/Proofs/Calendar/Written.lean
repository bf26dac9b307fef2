import Intake.Proofs.Calendar.Layouts

/-!
# Written dates

Every spelling of a date in a known layout is read as this date, and the same spellings of
numbers that are not on the calendar are read as none.

There are three groups.

* Ranges.  `ofParts?_day` and `ofParts?_month` say that days and months out of range are on
  no calendar.
* Spellings.  `Written` lists them; `Written.read?_eq` reads a text in its own layout and
  `Written.read?_other` in any layout.
* Dates.  `read?_of_written` puts the layouts together.
-/

namespace Intake.Calendar

open Text Number

variable {year month day : Nat} {layout other : Layout}
  {text t m d name gap gap' rest lead trail : List Char} {items : Layout}

/-! ## Ranges -/

theorem ofParts?_of_not (hnot : ¬ OnCalendar year month day) :
    Date.ofParts? year month day = none :=
  dif_neg hnot

/-- A day out of range is on no calendar. -/
theorem ofParts?_day (year month day : Nat) :
    (if 1 ≤ day ∧ day ≤ 31 then Date.ofParts? year month day else none) =
      Date.ofParts? year month day := by
  split
  · rfl
  · rename_i hday
    exact (ofParts?_of_not fun hon => hday (Date.day_range ⟨year, month, day, hon⟩)).symm

/-- A month out of range is on no calendar. -/
theorem ofParts?_month (year month day : Nat) :
    (if 1 ≤ month ∧ month ≤ 12 then Date.ofParts? year month day else none) =
      Date.ofParts? year month day := by
  split
  · rfl
  · rename_i hmonth
    exact (ofParts?_of_not fun hon => hmonth (Date.month_range ⟨year, month, day, hon⟩)).symm

/-! ## Spellings -/

/-- Blanks between two parts of a date. -/
structure Gap (gap : List Char) : Prop where
  ne_nil : gap ≠ []
  blank : ∀ c ∈ gap, isBlank c = true

/-- The spellings of a year in four digits, a month and a day in a layout.  Leading zeros of
other numbers may be left out, names are in any letter case, and a time is one of the day. -/
inductive Written (year month day : Nat) : Layout → List Char → Prop where
  | iso {m d : List Char} (hm : Spells m month) (hd : Spells d day) :
      Written year month day isoDate (padded 4 year ++ '-' :: (m ++ '-' :: d))
  | slash {m d : List Char} (hm : Spells m month) (hd : Spells d day) :
      Written year month day slashDate (m ++ '/' :: (d ++ '/' :: padded 4 year))
  | long {name gap d gap' : List Char} (hname : Names monthNames name month) (hgap : Gap gap)
      (hd : Spells d day) (hgap' : Gap gap') :
      Written year month day longDate (name ++ (gap ++ (d ++ ',' :: (gap' ++ padded 4 year))))
  | short {name gap d gap' : List Char} (hname : Names shortMonthNames name month) (hgap : Gap gap)
      (hd : Spells d day) (hgap' : Gap gap') :
      Written year month day shortDate (name ++ (gap ++ (d ++ ',' :: (gap' ++ padded 4 year))))
  | minute {m d h mi : List Char} {hour minute : Nat} (hm : Spells m month) (hd : Spells d day)
      (hh : Spells h hour) (hhour : hour ≤ 23) (hmi : Spells mi minute) (hminute : minute ≤ 59) :
      Written year month day isoMinute
        (padded 4 year ++ '-' :: (m ++ '-' :: (d ++ 'T' :: (h ++ ':' :: mi))))

theorem readFrom_dashed (hyear : year < 10000) (hm : Spells m month) (hd : Spells d day)
    (hrest : Stops rest) (hitems : Guarded items) :
    Layout.readFrom {} (padded 4 year ++ '-' :: (m ++ '-' :: (d ++ rest))) (isoDate ++ items) =
      if 1 ≤ month ∧ month ≤ 12 then
        if 1 ≤ day ∧ day ≤ 31 then Layout.readFrom ⟨year, month, day⟩ rest items else none
      else none := by
  simp only [isoDate, List.cons_append, List.nil_append]
  rw [readFrom_year hyear, readFrom_char '-' '-' rfl,
    readFrom_month hm (stops_cons (by decide)) (guarded_char (by decide)),
    readFrom_char '-' '-' rfl, readFrom_day hd hrest hitems]

/-- The ends of numbers and names are no blanks. -/
theorem isBlank_head?_append (hne : t ≠ []) (ht : ∀ c ∈ t, isBlank c = false) :
    ∀ c ∈ (t ++ rest).head?, isBlank c = false := by
  intro c hc
  rw [List.head?_append_of_ne_nil _ hne] at hc
  exact ht c (List.mem_of_mem_head? hc)

theorem isBlank_of_mem_padded {width n : Nat} : ∀ c ∈ padded width n, isBlank c = false :=
  fun _ hc => isBlank_of_isDigit (isDigit_of_mem_padded hc)

theorem Spells.isBlank {n : Nat} (ht : Spells t n) : ∀ c ∈ t, isBlank c = false :=
  fun c hc => isBlank_of_isDigit (ht.isDigit c hc)

/-- What follows the name of a month gives a date, or none if the day is out of range. -/
theorem readFrom_afterName (hyear : year < 10000) (hgap : Gap gap) (hd : Spells d day)
    (hgap' : Gap gap') :
    Layout.readFrom { month := month } (gap ++ (d ++ ',' :: (gap' ++ padded 4 year)))
      [.blanks, .day, .char ',', .blanks, .year] = Date.ofParts? year month day := by
  have hyears : ∀ c ∈ (padded 4 year).head?, isBlank c = false := fun c hc =>
    isBlank_of_mem_padded c (List.mem_of_mem_head? hc)
  rw [readFrom_blanks hgap.ne_nil hgap.blank (isBlank_head?_append hd.ne_nil hd.isBlank),
    readFrom_day hd (stops_cons (by decide)) (guarded_char (by decide)), readFrom_char ',' ',' rfl,
    readFrom_blanks hgap'.ne_nil hgap'.blank hyears, ← List.append_nil (padded 4 year),
    readFrom_year hyear]
  exact ofParts?_day year month day

/-- A text with the name of a month is read by its own list of names.  The other list gives
the same date or none. -/
theorem readFrom_written {own names : List String} (hown : own ∈ nameLists) {item : Item}
    (hitem : ReadsNames item names) (hyear : year < 10000) (hname : Names own name month)
    (hgap : Gap gap) (hd : Spells d day) (hgap' : Gap gap') :
    Layout.readFrom {} (name ++ (gap ++ (d ++ ',' :: (gap' ++ padded 4 year)))) (named item) =
        Date.ofParts? year month day ∨
      own ≠ names ∧
        Layout.readFrom {} (name ++ (gap ++ (d ++ ',' :: (gap' ++ padded 4 year)))) (named item) =
          none := by
  have hafter : Layout.readFrom { month := month } _ _ = Date.ofParts? year month day :=
    readFrom_afterName hyear hgap hd hgap'
  obtain ⟨hne, hblank⟩ := hgap
  cases gap with
  | nil => exact absurd rfl hne
  | cons b gap =>
    have hread := readFrom_named hown hitem hname (hblank b List.mem_cons_self)
      (gap ++ (d ++ ',' :: (gap' ++ padded 4 year)))
    rw [← hafter]
    exact hread

/-- A text with slashes is read by its only layout. -/
theorem read?_slashed (hyear : year < 10000) (hm : Spells m month) (hd : Spells d day) :
    slashDate.read? (m ++ '/' :: (d ++ '/' :: padded 4 year)) =
      Date.ofParts? year month day := by
  rw [Layout.read?_eq, slashDate,
    readFrom_month hm (stops_cons (by decide)) (guarded_char (by decide)),
    readFrom_char '/' '/' rfl,
    readFrom_day hd (stops_cons (by decide)) (guarded_char (by decide)),
    readFrom_char '/' '/' rfl, ← List.append_nil (padded 4 year), readFrom_year hyear]
  show (if _ then if _ then Date.ofParts? year month day else none else none) = _
  rw [ofParts?_day, ofParts?_month]

theorem Written.read?_eq (h : Written year month day layout text) (hyear : year < 10000) :
    layout.read? text = Date.ofParts? year month day := by
  cases h with
  | iso hm hd =>
    have hread := readFrom_dashed hyear hm hd stops_nil guarded_nil
    rw [List.append_nil, List.append_nil] at hread
    rw [Layout.read?_eq, hread]
    show (if _ then if _ then Date.ofParts? year month day else none else none) = _
    rw [ofParts?_day, ofParts?_month]
  | slash hm hd => exact read?_slashed hyear hm hd
  | long hname hgap hd hgap' =>
    have hread := readFrom_written readsNames_monthName.mem readsNames_monthName hyear hname hgap
      hd hgap'
    exact hread.resolve_right fun hne => hne.1 rfl
  | short hname hgap hd hgap' =>
    have hread := readFrom_written readsNames_shortMonthName.mem readsNames_shortMonthName hyear
      hname hgap hd hgap'
    exact hread.resolve_right fun hne => hne.1 rfl
  | @minute m d h mi hour minute hm hd hh hhour hmi hminute =>
    have hclock : (0 ≤ hour ∧ hour ≤ 23) ∧ 0 ≤ minute ∧ minute ≤ 59 := by omega
    rw [Layout.read?_eq, isoMinute, readFrom_dashed hyear hm hd (stops_cons (by decide))
      (guarded_char (by decide)), readFrom_char 'T' 't' rfl,
      readFrom_hour hh (stops_cons (by decide)) (guarded_char (by decide)), if_pos hclock.1,
      readFrom_char ':' ':' rfl, ← List.append_nil mi, readFrom_minute hmi stops_nil guarded_nil,
      if_pos hclock.2]
    show (if _ then if _ then Date.ofParts? year month day else none else none) = _
    rw [ofParts?_day, ofParts?_month]

theorem Written.mem (h : Written year month day layout text) : layout ∈ layouts := by
  cases h <;> decide

/-- A spelling has the style of its layout, whatever it spells. -/
theorem Written.style_eq (h : Written year month day layout text) : style text = layout.style := by
  have hyear : ∀ s, style (padded 4 year ++ s) = style s := fun s =>
    style_append fun _ hc => isDigit_of_mem_padded hc
  cases h with
  | iso hm hd => exact hyear _
  | slash hm hd => exact style_append hm.isDigit
  | long hname => exact style_of_names readsNames_monthName.mem hname
  | short hname => exact style_of_names readsNames_shortMonthName.mem hname
  | minute hm hd => exact hyear _

theorem mem_of_style : ∀ other ∈ layouts,
    (other.style = .dashed → other = isoDate ∨ other = isoMinute) ∧
    (other.style = .slashed → other = slashDate) ∧
    (other.style = .named → other = longDate ∨ other = shortDate) := by
  decide

/-- No layout reads a spelling in another way. -/
theorem Written.read?_other (h : Written year month day layout text) (hyear : year < 10000)
    (hother : other ∈ layouts) :
    other.read? text = Date.ofParts? year month day ∨ other.read? text = none := by
  by_cases hstyle : other.style = layout.style
  · obtain ⟨hdashed, hslashed, hnamed⟩ := mem_of_style other hother
    have hown := h.read?_eq hyear
    cases h with
    | iso hm hd =>
      rcases hdashed hstyle with rfl | rfl
      · exact .inl hown
      · right
        have hread := readFrom_dashed hyear hm hd stops_nil
          (guarded_char (by decide) : Guarded [.char 't', .hour, .char ':', .minute])
        rw [List.append_nil] at hread
        rw [Layout.read?_eq, isoMinute, hread]
        split
        · split <;> rfl
        · rfl
    | slash hm hd =>
      rw [hslashed hstyle]
      exact .inl hown
    | long hname hgap hd hgap' =>
      rcases hnamed hstyle with rfl | rfl
      · exact .inl hown
      · exact (readFrom_written readsNames_monthName.mem readsNames_shortMonthName hyear hname hgap
          hd hgap').imp_right And.right
    | short hname hgap hd hgap' =>
      rcases hnamed hstyle with rfl | rfl
      · exact (readFrom_written readsNames_shortMonthName.mem readsNames_monthName hyear hname hgap
          hd hgap').imp_right And.right
      · exact .inl hown
    | @minute m d h mi _ _ hm hd hh hhour hmi hminute =>
      rcases hdashed hstyle with rfl | rfl
      · right
        have hread := readFrom_dashed hyear hm hd
          (stops_cons (by decide) : Stops ('T' :: (h ++ ':' :: mi))) guarded_nil
        rw [List.append_nil] at hread
        rw [Layout.read?_eq, hread]
        split
        · split <;> rfl
        · rfl
      · exact .inl hown
  · right
    cases hread : other.read? text with
    | none => rfl
    | some date => exact absurd ((style_of_read? hother hread).symm.trans h.style_eq) hstyle

/-! ## Dates -/

theorem isBlank_getLast?_append (hne : t ≠ []) (ht : ∀ c ∈ t, isBlank c = false) :
    ∀ c ∈ (rest ++ t).getLast?, isBlank c = false := by
  intro c hc
  rw [List.getLast?_append_of_ne_nil _ hne] at hc
  exact ht c (List.mem_of_getLast? hc)

/-- A spelling begins with a digit or a letter. -/
theorem Written.first (h : Written year month day layout text) :
    ∀ c ∈ text.head?, isBlank c = false := by
  cases h with
  | iso | minute => exact isBlank_head?_append (padded_ne_nil _ _) isBlank_of_mem_padded
  | slash hm => exact isBlank_head?_append hm.ne_nil hm.isBlank
  | long hname =>
    have hnames := readsNames_monthName.mem
    exact isBlank_head?_append (hname.ne_nil hnames) fun c hc =>
      isBlank_of_isAlpha (hname.isAlpha hnames c hc)
  | short hname =>
    have hnames := readsNames_shortMonthName.mem
    exact isBlank_head?_append (hname.ne_nil hnames) fun c hc =>
      isBlank_of_isAlpha (hname.isAlpha hnames c hc)

/-- A spelling ends with a digit. -/
theorem Written.last (h : Written year month day layout text) :
    ∀ c ∈ text.getLast?, isBlank c = false := by
  have hend : ∃ front t, text = front ++ t ∧ t ≠ [] ∧ ∀ c ∈ t, isBlank c = false := by
    cases h with
    | @iso m d _ hd =>
      exact ⟨padded 4 year ++ '-' :: (m ++ ['-']), d, by simp, hd.ne_nil, hd.isBlank⟩
    | @slash m d =>
      exact ⟨m ++ '/' :: (d ++ ['/']), padded 4 year, by simp, padded_ne_nil _ _,
        isBlank_of_mem_padded⟩
    | @long name gap d gap' =>
      exact ⟨name ++ (gap ++ (d ++ ',' :: gap')), padded 4 year, by simp, padded_ne_nil _ _,
        isBlank_of_mem_padded⟩
    | @short name gap d gap' =>
      exact ⟨name ++ (gap ++ (d ++ ',' :: gap')), padded 4 year, by simp, padded_ne_nil _ _,
        isBlank_of_mem_padded⟩
    | @minute m d h mi _ _ _ _ _ _ hmi =>
      exact ⟨padded 4 year ++ '-' :: (m ++ '-' :: (d ++ 'T' :: (h ++ [':']))), mi, by simp,
        hmi.ne_nil, hmi.isBlank⟩
  obtain ⟨front, t, rfl, hne, ht⟩ := hend
  exact isBlank_getLast?_append hne ht

theorem Written.trim_around (h : Written year month day layout text)
    (hlead : ∀ c ∈ lead, isBlank c = true) (htrail : ∀ c ∈ trail, isBlank c = true) :
    trim (lead ++ text ++ trail) = text :=
  IsStripped.eq ⟨⟨lead, trail, rfl, hlead, htrail⟩, h.first, h.last⟩

/-- A spelling with blanks around is read as the date that its numbers are, if any. -/
theorem read?_eq_of_written (h : Written year month day layout text) (hyear : year < 10000)
    (hlead : ∀ c ∈ lead, isBlank c = true) (htrail : ∀ c ∈ trail, isBlank c = true) :
    Date.read? (lead ++ text ++ trail) = Date.ofParts? year month day := by
  rw [Date.read?, h.trim_around hlead htrail]
  cases hfirst : layouts.findSome? fun other => other.read? text with
  | none =>
    rw [List.findSome?_eq_none_iff] at hfirst
    rw [← h.read?_eq hyear, hfirst layout h.mem]
  | some date =>
    obtain ⟨other, hother, hread⟩ := List.exists_of_findSome?_eq_some hfirst
    rcases h.read?_other hyear hother with heq | hnone
    · rw [← heq, hread]
    · rw [hnone] at hread
      cases hread

/-- Every spelling of a date is read as this date, and of numbers that are not on the calendar
as none.  No text is read as two dates by two layouts, and the layouts may be tried in any
order. -/
theorem read?_of_written :
    (∀ (d : Date) (layout : Layout) (text lead trail : List Char),
      Written d.year d.month d.day layout text →
      (∀ c ∈ lead, isBlank c = true) → (∀ c ∈ trail, isBlank c = true) →
      Date.read? (lead ++ text ++ trail) = some d) ∧
    (∀ (year month day : Nat) (layout : Layout) (text lead trail : List Char),
      year < 10000 → ¬ OnCalendar year month day → Written year month day layout text →
      (∀ c ∈ lead, isBlank c = true) → (∀ c ∈ trail, isBlank c = true) →
      Date.read? (lead ++ text ++ trail) = none) ∧
    (∀ (text : List Char), ∀ a ∈ layouts, ∀ b ∈ layouts, ∀ (d e : Date),
      a.read? text = some d → b.read? text = some e → d = e) ∧
    ∀ (text : List Char) (order : List Layout), order.Perm layouts →
      (order.findSome? fun layout => layout.read? (trim text)) = Date.read? text := by
  refine ⟨?_, ?_, ?_, ?_⟩
  · intro d layout text lead trail h hlead htrail
    have hyear := d.onCalendar.2.1
    rw [read?_eq_of_written h (by omega) hlead htrail, Date.ofParts?_self]
  · intro year month day layout text lead trail hyear hnot h hlead htrail
    rw [read?_eq_of_written h hyear hlead htrail, ofParts?_of_not hnot]
  · intro text a ha b hb d e hd he
    exact read?_unique ha hb hd he
  · intro text order horder
    exact findSome?_layouts horder (trim text)

theorem read?_of_written_leapDays :
    (¬ OnCalendar 2023 2 29 ∧ [isoMinute, isoDate, slashDate, longDate, shortDate].Perm layouts) ∧
    Date.read? (['\t'] ++ (['M', 'a', 'R', 'c', 'h'] ++ ([' '] ++ (['7'] ++
      ',' :: ([' '] ++ ['2', '0', '2', '4'])))) ++ ['\n']) = some ⟨2024, 3, 7, by decide⟩ ∧
    Date.read? ([] ++ (['0', '2'] ++ '/' :: (['2', '9'] ++ '/' :: ['2', '0', '2', '3'])) ++ []) =
      none ∧
    (∃ d e, longDate.read? ['M', 'a', 'y', ' ', '5', ',', ' ', '2', '0', '2', '4'] = some d ∧
      shortDate.read? ['M', 'a', 'y', ' ', '5', ',', ' ', '2', '0', '2', '4'] = some e ∧ d = e) ∧
    ([isoMinute, isoDate, slashDate, longDate, shortDate].findSome? fun layout =>
      layout.read? (trim ['5', '/', '6', '/', '2', '0', '2', '4'])) =
        Date.read? ['5', '/', '6', '/', '2', '0', '2', '4'] := by
  obtain ⟨hdate, hnone, hunique, horder⟩ := read?_of_written
  have hnot : ¬ OnCalendar 2023 2 29 := by decide
  have hperm : [isoMinute, isoDate, slashDate, longDate, shortDate].Perm layouts := by decide
  have hspace : Gap [' '] := ⟨List.cons_ne_nil _ _, List.forall_mem_singleton.2 rfl⟩
  have hlong : Written 2024 3 7 longDate (['M', 'a', 'R', 'c', 'h'] ++ ([' '] ++ (['7'] ++
      ',' :: ([' '] ++ ['2', '0', '2', '4'])))) :=
    .long ⟨2, "march", rfl, by decide, rfl⟩ hspace (.inl rfl) hspace
  have hslash : Written 2023 2 29 slashDate
      (['0', '2'] ++ '/' :: (['2', '9'] ++ '/' :: ['2', '0', '2', '3'])) :=
    .slash (.inr rfl) (.inl rfl)
  have hmay : longDate.read? ['M', 'a', 'y', ' ', '5', ',', ' ', '2', '0', '2', '4'] =
      some ⟨2024, 5, 5, by decide⟩ := by
    decide
  have hmay' : shortDate.read? ['M', 'a', 'y', ' ', '5', ',', ' ', '2', '0', '2', '4'] =
      some ⟨2024, 5, 5, by decide⟩ := by
    decide
  exact ⟨⟨hnot, hperm⟩, hdate ⟨2024, 3, 7, by decide⟩ _ _ _ _ hlong
    (List.forall_mem_singleton.2 rfl) (List.forall_mem_singleton.2 rfl),
    hnone 2023 2 29 _ _ _ _ (by decide) hnot hslash (List.forall_mem_nil _) (List.forall_mem_nil _),
    ⟨_, _, hmay, hmay', hunique _ _ (by decide) _ (by decide) _ _ hmay hmay'⟩, horder _ _ hperm⟩

end Intake.Calendar
