import Intake.Proofs.Json.Strings
import Mathlib.Data.List.TakeDrop

/-!
# Values written and read

A value without doubles that was written in one line of ASCII is read back
as it was.

There are four groups.

* Values.  `Json.Plain` says which values can be written and read back:
  strings are sound, whole numbers are not too long, and the nesting is not
  too deep.
* Numbers.  `readNumber_digits` reads a whole number up to what closes it.
* Reading back.  `readItems_write` and `readMembers_write` go through lists
  and objects, `readsAs_write` through any value; `read_write` is the result.
* What is read.  `Json.Legible` says which values a reader can give;
  `legible_of_read` says that it gives no others.
-/

namespace Intake.Json

open Text Number

/-! ## Values -/

/-- A value without doubles that nests at most so many brackets. -/
inductive Plain : Nat → Json → Prop where
  | null (depth : Nat) : Plain depth .null
  | bool (depth : Nat) (b : Bool) : Plain depth (.bool b)
  | int (depth : Nat) {n : Int} (h : n.natAbs < 10 ^ maxDigitsRead) : Plain depth (.int n)
  | str (depth : Nat) {p : Prose} (h : p.Sound) : Plain depth (.str p)
  | arr {depth : Nat} {items : List Json} (h : ∀ v ∈ items, Plain depth v) :
      Plain (depth + 1) (.arr items)
  | obj {depth : Nat} {members : Members} (hnames : ∀ m ∈ members, m.1.Sound)
      (h : ∀ m ∈ members, Plain depth m.2) : Plain (depth + 1) (.obj members)

/-- What may follow a value inside another one. -/
def Closes (left : List Char) : Prop := ∀ c ∈ left.head?, c = ',' ∨ c = ']' ∨ c = '\x7d'

theorem closes_nil : Closes [] := nofun

theorem closes_cons {c : Char} (h : c = ',' ∨ c = ']' ∨ c = '\x7d') (left : List Char) :
    Closes (c :: left) := by
  intro c' hc'
  rw [← Option.some.inj hc']
  exact h

theorem skipSpace_of_not_isSpace {c : Char} (h : isSpace c = false) (left : List Char) :
    skipSpace (c :: left) = c :: left := by
  rw [skipSpace, List.dropWhile_cons, h]
  rfl

/-! ## Numbers -/

theorem spanDigits_append {ds left : List Char} (hds : ∀ c ∈ ds, c.isDigit = true)
    (hleft : ∀ c ∈ left.head?, c.isDigit = false) : spanDigits (ds ++ left) = (ds, left) := by
  have hstop : left.takeWhile Char.isDigit = [] ∧ left.dropWhile Char.isDigit = left := by
    cases left with
    | nil => exact ⟨rfl, rfl⟩
    | cons c left =>
      have hc := hleft c rfl
      simp [hc]
  rw [spanDigits, List.span_eq_takeWhile_dropWhile, List.takeWhile_append_of_pos hds,
    List.dropWhile_append_of_pos hds, hstop.1, hstop.2, List.append_nil]

/-- What closes a value continues no number. -/
theorem not_continues_of_closes {left : List Char} (h : Closes left) :
    ∀ c ∈ left.head?, c.isDigit = false ∧ c ≠ '.' ∧ c ≠ 'e' ∧ c ≠ 'E' := by
  intro c hc
  rcases h c hc with rfl | rfl | rfl <;> decide

theorem wholePart_digits (n : Nat) {left : List Char} (h : Closes left) :
    wholePart (digits n ++ left) = (digits n, left) := by
  have hspan := spanDigits_append (fun c hc => isDigit_of_mem_digits (n := n) hc)
    fun c hc => (not_continues_of_closes h c hc).1
  rcases Nat.eq_zero_or_pos n with rfl | hpos
  · rfl
  · have hhead : ∀ rest, digits n ++ left ≠ '0' :: rest := by
      intro rest hrest
      have hhead : (digits n ++ left).head? = (digits n).head? :=
        List.head?_append_of_ne_nil _ (digits_ne_nil n)
      rw [hrest, List.head?_cons] at hhead
      exact head?_digits_ne hpos hhead.symm
    rw [wholePart]
    · exact hspan
    · exact hhead

theorem fractionPart_of_closes {left : List Char} (h : Closes left) :
    fractionPart left = ([], left) := by
  cases left with
  | nil => rfl
  | cons c left =>
    have hdot := (not_continues_of_closes h c rfl).2.1
    rw [fractionPart]
    intro rest hrest
    exact hdot (List.cons.inj hrest).1

theorem exponentPart_of_closes {left : List Char} (h : Closes left) :
    exponentPart left = (none, left) := by
  cases left with
  | nil => rfl
  | cons c left =>
    obtain ⟨-, -, hsmall, hlarge⟩ := not_continues_of_closes h c rfl
    simp [exponentPart, hsmall, hlarge]

/-- The text of a whole number. -/
theorem writeAt_int (style : Style) (depth : Nat) (n : Int) : writeAt style depth (.int n) =
    if n < 0 then '-' :: digits n.natAbs else digits n.natAbs := by
  rw [writeAt, intText, String.toList_ofList]

/-- A whole number is read up to what closes it, whatever sign stands before it. -/
theorem readNumber_digits {n : Nat} (hn : n < 10 ^ maxDigitsRead) {left : List Char}
    (h : Closes left) :
    readNumber (digits n ++ left) = some (.ok (.int n, left)) ∧
      readNumber ('-' :: (digits n ++ left)) = some (.ok (.int (-n), left)) := by
  have hsign : ∀ rest, digits n ++ left ≠ '-' :: rest := by
    intro rest hrest
    cases hds : digits n with
    | nil => exact digits_ne_nil n hds
    | cons d ds =>
      have hdigit := isDigit_of_mem_digits (n := n) (c := d) (by simp [hds])
      rw [hds, List.cons_append] at hrest
      rw [(List.cons.inj hrest).1] at hdigit
      exact absurd hdigit (by decide)
  obtain ⟨d, ds, hds⟩ := List.exists_cons_of_ne_nil (digits_ne_nil n)
  have hwhole := wholePart_digits n h
  have hread := ofAsciiDigits_digits hn
  rw [hds] at hwhole hsign hread
  rw [hds]
  constructor
  · rw [readNumber]
    · simp only [hwhole, fractionPart_of_closes h, exponentPart_of_closes h, hread]
      rfl
    · exact hsign
  · rw [readNumber]
    simp only [hwhole, fractionPart_of_closes h, exponentPart_of_closes h, hread]
    rfl

/-! ## Reading back -/

theorem ne_of_isDigit {d c : Char} (hd : d.isDigit = true) (hc : c.isDigit = false) : d ≠ c := by
  rintro rfl
  rw [hd] at hc
  cases hc

/-- No constant begins with a digit, whatever sign stands before it. -/
theorem find?_constants {d : Char} (hd : d.isDigit = true) (left : List Char) :
    (constants.find? fun entry => entry.1.isPrefixOf (d :: left)) = none ∧
      (constants.find? fun entry => entry.1.isPrefixOf ('-' :: d :: left)) = none := by
  have hne : ∀ c : Char, c.isDigit = false → ¬ c = d := fun c hc => (ne_of_isDigit hd hc).symm
  simp [constants, hne 'n' (by decide), hne 't' (by decide), hne 'f' (by decide),
    hne 'N' (by decide), hne 'I' (by decide), hne '-' (by decide)]

/-- A text that begins like no constant is read as a number. -/
theorem readAtom_write {n : Int} (hn : n.natAbs < 10 ^ maxDigitsRead) {left : List Char}
    (h : Closes left) (style : Style) (depth : Nat) :
    readAtom (writeAt style depth (.int n) ++ left) = .ok (.int n, left) := by
  obtain ⟨hplain, hsigned⟩ := readNumber_digits hn h
  obtain ⟨d, ds, hds⟩ := List.exists_cons_of_ne_nil (digits_ne_nil n.natAbs)
  have hd : d.isDigit = true := isDigit_of_mem_digits (n := n.natAbs) (by simp [hds])
  rw [writeAt_int]
  rw [hds] at hplain hsigned
  split
  · rename_i hneg
    have hvalue : -(n.natAbs : Int) = n := by omega
    rw [hds, List.cons_append, List.cons_append, readAtom, (find?_constants hd _).2]
    dsimp only
    rw [← List.cons_append, hsigned, hvalue]
    rfl
  · rename_i hpos
    have hvalue : (n.natAbs : Int) = n := by omega
    rw [hds, List.cons_append, readAtom, (find?_constants hd _).1]
    dsimp only
    rw [← List.cons_append, hplain, hvalue]
    rfl

/-- The text of a value begins with no space, no byte order mark and no closing
bracket. -/
def Opens (s : List Char) : Prop :=
  ∃ c rest, s = c :: rest ∧ isSpace c = false ∧ c ≠ '\ufeff' ∧ c ≠ ']'

theorem Opens.skipSpace {s : List Char} (h : Opens s) (left : List Char) :
    Json.skipSpace (s ++ left) = s ++ left := by
  obtain ⟨c, rest, rfl, hspace, -⟩ := h
  exact skipSpace_of_not_isSpace hspace _

theorem opens_digits (n : Nat) : Opens (digits n) := by
  obtain ⟨d, ds, hds⟩ := List.exists_cons_of_ne_nil (digits_ne_nil n)
  have hd : d.isDigit = true := isDigit_of_mem_digits (n := n) (by simp [hds])
  refine ⟨d, ds, hds, ?_, ne_of_isDigit hd (by decide), ne_of_isDigit hd (by decide)⟩
  simp [isSpace, ne_of_isDigit hd (c := ' ') (by decide), ne_of_isDigit hd (c := '\t') (by decide),
    ne_of_isDigit hd (c := '\n') (by decide), ne_of_isDigit hd (c := '\r') (by decide)]

theorem opens_write {bound : Nat} {v : Json} (h : Plain bound v) (style : Style) (depth : Nat) :
    Opens (writeAt style depth v) := by
  cases h with
  | null => exact ⟨'n', _, rfl, by decide⟩
  | bool _ b =>
    cases b with
    | true => exact ⟨'t', _, rfl, by decide⟩
    | false => exact ⟨'f', _, rfl, by decide⟩
  | int _ hn =>
    rw [writeAt_int]
    split
    · exact ⟨'-', _, rfl, by decide⟩
    · exact opens_digits _
  | str _ hp => exact ⟨'"', _, rfl, by decide⟩
  | @arr _ items _ =>
    cases items with
    | nil => exact ⟨'[', _, rfl, by decide⟩
    | cons v rest => exact ⟨'[', _, rfl, by decide⟩
  | @obj _ members _ _ =>
    cases members with
    | nil => exact ⟨'\x7b', _, rfl, by decide⟩
    | cons m rest => exact ⟨'\x7b', _, rfl, by decide⟩

/-- A text is read as a value with so many brackets open, whatever closes the
value behind it. -/
def ReadsAs (depth : Nat) (s : List Char) (v : Json) : Prop :=
  ∀ fuel left, s.length ≤ fuel → Closes left → readValue fuel depth (s ++ left) = .ok (v, left)

/-- Items are read up to the bracket that closes their list. -/
theorem readItems_write {depth k : Nat} {v : Json} {rest : List Json}
    (hread : ∀ u ∈ v :: rest, ReadsAs depth (writeAt .compact k u) u)
    (hopens : ∀ u ∈ rest, Opens (writeAt .compact k u)) (read : List Json) (left : List Char)
    (fuel : Nat)
    (hfuel : (writeAt .compact k v).length + (writeItems .compact k rest).length < fuel) :
    readItems fuel depth read
        (writeAt .compact k v ++ (writeItems .compact k rest ++ ']' :: left)) =
      .ok (.arr (read.reverse ++ v :: rest), left) := by
  -- One step of fuel is spent on each item, and each item has a character at least.
  induction rest generalizing v read fuel with
  | nil =>
    obtain ⟨fuel, rfl⟩ := Nat.exists_eq_succ_of_ne_zero (Nat.ne_zero_of_lt hfuel)
    have hv := hread v List.mem_cons_self fuel (']' :: left) (by omega)
      (closes_cons (Or.inr (Or.inl rfl)) left)
    rw [writeItems, List.nil_append, readItems, hv]
    simp [skipSpace_of_not_isSpace (c := ']') (by decide)]
  | cons u rest ih =>
    obtain ⟨fuel, rfl⟩ := Nat.exists_eq_succ_of_ne_zero (Nat.ne_zero_of_lt hfuel)
    have htext : writeItems .compact k (u :: rest) =
        ',' :: ' ' :: (writeAt .compact k u ++ writeItems .compact k rest) := rfl
    rw [htext, List.length_cons, List.length_cons, List.length_append] at hfuel
    have hv := hread v List.mem_cons_self fuel
      (',' :: ' ' :: (writeAt .compact k u ++ writeItems .compact k rest) ++ ']' :: left)
      (by omega) (closes_cons (Or.inl rfl) _)
    have hlater := ih (fun u hu => hread u (List.mem_cons_of_mem v hu))
      (fun u hu => hopens u (List.mem_cons_of_mem _ hu)) (v :: read) fuel (by omega)
    have hspace : skipSpace (' ' :: (writeAt .compact k u ++
        (writeItems .compact k rest ++ ']' :: left))) =
          writeAt .compact k u ++ (writeItems .compact k rest ++ ']' :: left) :=
      (hopens u List.mem_cons_self).skipSpace _
    rw [htext, readItems, hv]
    simp only [List.cons_append, List.append_assoc]
    rw [skipSpace_of_not_isSpace (c := ',') (by decide)]
    change readItems fuel depth (v :: read) (skipSpace (' ' :: _)) = _
    rw [hspace, hlater, List.reverse_cons, List.append_assoc, List.singleton_append]

theorem readString_writeString {p : Prose} (h : p.Sound) (left : List Char) :
    ∃ rest, writeString .compact p ++ left = '"' :: rest ∧ readString rest = .ok (p, left) :=
  ⟨p.flatMap (writeGlyph true) ++ ['"'] ++ left, rfl, by
    rw [List.append_assoc, List.singleton_append]
    exact readString_write h left⟩

/-- A member is read up to what follows its value. -/
theorem readMembers_step {depth k : Nat} {name : Prose} {v : Json} (hname : name.Sound)
    (hread : ReadsAs depth (writeAt .compact k v) v) (hopens : Opens (writeAt .compact k v))
    (read : Members) {left : List Char} (hleft : Closes left) (fuel : Nat)
    (hfuel : (writeAt .compact k v).length ≤ fuel) :
    readMembers (fuel + 1) depth read
        (writeString .compact name ++ ([':', ' '] ++ (writeAt .compact k v ++ left))) =
      match skipSpace left with
      | '\x7d' :: left => .ok (.obj ((name, v) :: read).reverse, left)
      | ',' :: left => readMembers fuel depth ((name, v) :: read) (skipSpace left)
      | left => .error (.syntactic .comma left) := by
  obtain ⟨rest, hrest, hstring⟩ :=
    readString_writeString hname ([':', ' '] ++ (writeAt .compact k v ++ left))
  have hspace : skipSpace (' ' :: (writeAt .compact k v ++ left)) =
      writeAt .compact k v ++ left := hopens.skipSpace left
  have hcolon : skipSpace ([':', ' '] ++ (writeAt .compact k v ++ left)) =
      ':' :: ' ' :: (writeAt .compact k v ++ left) := skipSpace_of_not_isSpace (by decide) _
  have hmember := readMembers.eq_def (fuel + 1) depth read ('"' :: rest)
  simp only [hstring, hcolon, hspace, hread fuel left hfuel hleft] at hmember
  rw [hrest]
  exact hmember

/-- Members are read up to the bracket that closes their object. -/
theorem readMembers_write {depth k : Nat} {name : Prose} {v : Json} {rest : Members}
    (hnames : ∀ m ∈ (name, v) :: rest, m.1.Sound)
    (hread : ∀ m ∈ (name, v) :: rest, ReadsAs depth (writeAt .compact k m.2) m.2)
    (hopens : ∀ m ∈ (name, v) :: rest, Opens (writeAt .compact k m.2)) (read : Members)
    (left : List Char) (fuel : Nat)
    (hfuel : (writeAt .compact k v).length + (writeMembers .compact k rest).length < fuel) :
    readMembers fuel depth read (writeString .compact name ++ ([':', ' '] ++
        (writeAt .compact k v ++ (writeMembers .compact k rest ++ '\x7d' :: left)))) =
      .ok (.obj (read.reverse ++ (name, v) :: rest), left) := by
  induction rest generalizing name v read fuel with
  | nil =>
    obtain ⟨fuel, rfl⟩ := Nat.exists_eq_succ_of_ne_zero (Nat.ne_zero_of_lt hfuel)
    have hstep := readMembers_step (hnames (name, v) List.mem_cons_self)
      (hread (name, v) List.mem_cons_self) (hopens (name, v) List.mem_cons_self) read
      (closes_cons (Or.inr (Or.inr rfl)) left) fuel (by dsimp only; omega)
    rw [writeMembers, List.nil_append, hstep]
    simp [skipSpace_of_not_isSpace (c := '\x7d') (by decide)]
  | cons m rest ih =>
    obtain ⟨later, u⟩ := m
    obtain ⟨fuel, rfl⟩ := Nat.exists_eq_succ_of_ne_zero (Nat.ne_zero_of_lt hfuel)
    have htext : writeMembers .compact k ((later, u) :: rest) = ',' :: ' ' ::
        (writeString .compact later ++ ([':', ' '] ++
          (writeAt .compact k u ++ writeMembers .compact k rest))) := by
      simp [writeMembers, Style.break, Style.compact]
    have hlength := congrArg List.length htext
    simp only [List.length_cons, List.length_append] at hlength
    have hlater := ih (fun m hm => hnames m (List.mem_cons_of_mem _ hm))
      (fun m hm => hread m (List.mem_cons_of_mem _ hm))
      (fun m hm => hopens m (List.mem_cons_of_mem _ hm)) ((name, v) :: read) fuel
      (by omega)
    have hspace : skipSpace (' ' :: (writeString .compact later ++ ([':', ' '] ++
        (writeAt .compact k u ++ (writeMembers .compact k rest ++ '\x7d' :: left))))) =
          writeString .compact later ++ ([':', ' '] ++
            (writeAt .compact k u ++ (writeMembers .compact k rest ++ '\x7d' :: left))) := rfl
    have hstep := readMembers_step (hnames (name, v) List.mem_cons_self)
      (hread (name, v) List.mem_cons_self) (hopens (name, v) List.mem_cons_self) read
      (closes_cons (Or.inl rfl) (' ' :: (writeString .compact later ++ ([':', ' '] ++
        (writeAt .compact k u ++ (writeMembers .compact k rest ++ '\x7d' :: left))))))
      fuel (by dsimp only; omega)
    rw [skipSpace_of_not_isSpace (c := ',') (by decide)] at hstep
    rw [htext]
    simp only [List.cons_append, List.append_assoc] at hstep hlater hspace ⊢
    rw [hstep]
    change readMembers fuel depth ((name, v) :: read) (skipSpace (' ' :: _)) = _
    rw [hspace, hlater, List.reverse_cons, List.append_assoc, List.singleton_append]

/-- A text that opens no string and no bracket is read as an atom. -/
theorem readsAs_of_readAtom {s : List Char} {v : Json} {depth : Nat}
    (hs : ∃ c rest, s = c :: rest ∧ c ≠ '"' ∧ c ≠ '[' ∧ c ≠ '\x7b')
    (h : ∀ left, Closes left → readAtom (s ++ left) = .ok (v, left)) : ReadsAs depth s v := by
  intro fuel left hfuel hleft
  obtain ⟨c, rest, rfl, hquote, hlist, hobject⟩ := hs
  obtain ⟨fuel, rfl⟩ := Nat.exists_eq_succ_of_ne_zero (Nat.ne_zero_of_lt hfuel)
  rw [← h left hleft, List.cons_append, readValue]
  · exact fun rest h => hquote (List.cons.inj h).1
  · exact fun rest h => hlist (List.cons.inj h).1
  · exact fun rest h => hobject (List.cons.inj h).1

theorem readsAs_null (depth : Nat) : ReadsAs depth "null".toList .null :=
  readsAs_of_readAtom ⟨'n', _, rfl, by decide⟩ fun _ _ => rfl

theorem readsAs_bool (depth : Nat) (b : Bool) :
    ReadsAs depth (if b then "true" else "false").toList (.bool b) := by
  cases b with
  | true => exact readsAs_of_readAtom ⟨'t', _, rfl, by decide⟩ fun _ _ => rfl
  | false => exact readsAs_of_readAtom ⟨'f', _, rfl, by decide⟩ fun _ _ => rfl

theorem readsAs_int {n : Int} (hn : n.natAbs < 10 ^ maxDigitsRead) (depth k : Nat) :
    ReadsAs depth (writeAt .compact k (.int n)) (.int n) := by
  refine readsAs_of_readAtom ?_ fun left hleft => readAtom_write hn hleft .compact k
  rw [writeAt_int]
  split
  · exact ⟨'-', _, rfl, by decide⟩
  · obtain ⟨d, ds, hds⟩ := List.exists_cons_of_ne_nil (digits_ne_nil n.natAbs)
    have hd : d.isDigit = true := isDigit_of_mem_digits (n := n.natAbs) (by simp [hds])
    exact ⟨d, ds, hds, ne_of_isDigit hd (by decide), ne_of_isDigit hd (by decide),
      ne_of_isDigit hd (by decide)⟩

theorem readsAs_str {p : Prose} (hp : p.Sound) (depth k : Nat) :
    ReadsAs depth (writeAt .compact k (.str p)) (.str p) := by
  intro fuel left hfuel _
  obtain ⟨fuel, rfl⟩ := Nat.exists_eq_succ_of_ne_zero (Nat.ne_zero_of_lt hfuel)
  obtain ⟨rest, hrest, hstring⟩ := readString_writeString hp left
  rw [writeAt, hrest, readValue, hstring]

/-- A list whose first item opens is read item by item. -/
theorem readValue_list {depth : Nat} (hdepth : depth < maxDepth) {s : List Char} (h : Opens s)
    (fuel : Nat) (left : List Char) :
    readValue (fuel + 1) depth ('[' :: (s ++ left)) =
      readItems fuel (depth + 1) [] (s ++ left) := by
  have hspace := h.skipSpace left
  obtain ⟨c, rest, rfl, -, -, hclose⟩ := h
  rw [readValue, if_neg (Nat.not_le_of_lt hdepth), hspace]
  split
  · rename_i hbody
    exact absurd (List.cons.inj hbody).1 hclose
  · rfl

theorem readsAs_arr {items : List Json} {depth k : Nat} (hdepth : depth < maxDepth)
    (hread : ∀ v ∈ items, ReadsAs (depth + 1) (writeAt .compact (k + 1) v) v)
    (hopens : ∀ v ∈ items, Opens (writeAt .compact (k + 1) v)) :
    ReadsAs depth (writeAt .compact k (.arr items)) (.arr items) := by
  intro fuel left hfuel _
  cases items with
  | nil =>
    obtain ⟨fuel, rfl⟩ := Nat.exists_eq_succ_of_ne_zero (Nat.ne_zero_of_lt hfuel)
    exact if_neg (Nat.not_le_of_lt hdepth)
  | cons v rest =>
    have htext : writeAt .compact k (.arr (v :: rest)) =
        '[' :: (writeAt .compact (k + 1) v ++ (writeItems .compact (k + 1) rest ++ [']'])) := by
      simp [writeAt, Style.break, Style.compact]
    rw [htext] at hfuel ⊢
    obtain ⟨fuel, rfl⟩ := Nat.exists_eq_succ_of_ne_zero (Nat.ne_zero_of_lt hfuel)
    simp only [List.length_cons, List.length_append, Nat.succ_eq_add_one] at hfuel
    simp only [List.cons_append, List.append_assoc, List.nil_append]
    rw [readValue_list hdepth (hopens v List.mem_cons_self), readItems_write hread
      (fun u hu => hopens u (List.mem_cons_of_mem v hu)) [] left fuel (by omega)]
    rfl

/-- An object with a member is read member by member. -/
theorem readValue_object {depth : Nat} (hdepth : depth < maxDepth) (fuel : Nat) (name : Prose)
    (left : List Char) :
    readValue (fuel + 1) depth ('\x7b' :: (writeString .compact name ++ left)) =
      readMembers fuel (depth + 1) [] (writeString .compact name ++ left) := by
  rw [readValue, if_neg (Nat.not_le_of_lt hdepth)]
  rfl

theorem readsAs_obj {members : Members} {depth k : Nat} (hdepth : depth < maxDepth)
    (hnames : ∀ m ∈ members, m.1.Sound)
    (hread : ∀ m ∈ members, ReadsAs (depth + 1) (writeAt .compact (k + 1) m.2) m.2)
    (hopens : ∀ m ∈ members, Opens (writeAt .compact (k + 1) m.2)) :
    ReadsAs depth (writeAt .compact k (.obj members)) (.obj members) := by
  intro fuel left hfuel _
  cases members with
  | nil =>
    obtain ⟨fuel, rfl⟩ := Nat.exists_eq_succ_of_ne_zero (Nat.ne_zero_of_lt hfuel)
    exact if_neg (Nat.not_le_of_lt hdepth)
  | cons m rest =>
    obtain ⟨name, v⟩ := m
    have htext : writeAt .compact k (.obj ((name, v) :: rest)) =
        '\x7b' :: (writeString .compact name ++ ([':', ' '] ++
          (writeAt .compact (k + 1) v ++ (writeMembers .compact (k + 1) rest ++ ['\x7d'])))) := by
      simp [writeAt, Style.break, Style.compact]
    rw [htext] at hfuel ⊢
    obtain ⟨fuel, rfl⟩ := Nat.exists_eq_succ_of_ne_zero (Nat.ne_zero_of_lt hfuel)
    simp only [List.length_cons, List.length_append, Nat.succ_eq_add_one] at hfuel
    have hmembers := readMembers_write hnames hread hopens [] left fuel (by omega)
    rw [List.cons_append, List.append_assoc, readValue_object hdepth]
    simp only [List.cons_append, List.append_assoc, List.nil_append] at hmembers ⊢
    exact hmembers

/-- A written value is read as it was. -/
theorem readsAs_write {bound : Nat} {v : Json} (h : Plain bound v) {depth : Nat}
    (hdepth : depth + bound ≤ maxDepth) (k : Nat) :
    ReadsAs depth (writeAt .compact k v) v := by
  induction h generalizing depth k with
  | null => exact readsAs_null depth
  | bool _ b => exact readsAs_bool depth b
  | int _ hn => exact readsAs_int hn depth k
  | str _ hp => exact readsAs_str hp depth k
  | arr hitems ih =>
    exact readsAs_arr (by omega) (fun v hv => ih v hv (by omega) (k + 1))
      fun v hv => opens_write (hitems v hv) _ _
  | obj hnames hmembers ih =>
    exact readsAs_obj (by omega) hnames (fun m hm => ih m hm (by omega) (k + 1))
      fun m hm => opens_write (hmembers m hm) _ _

/-- A text of one line that was written is read as what was written. -/
theorem read_write {bound : Nat} {v : Json} (h : Plain bound v) (hbound : bound ≤ maxDepth) :
    read (write .compact v) = .ok v := by
  have hopens := opens_write h .compact 0
  have hspace : skipSpace (write .compact v) = write .compact v := by
    rw [write, ← List.append_nil (writeAt .compact 0 v), hopens.skipSpace]
  have hvalue : readValue (2 * (write .compact v).length + 2) 0 (write .compact v) =
      .ok (v, []) := by
    have hreads : ReadsAs 0 (writeAt .compact 0 v) v := readsAs_write h (by omega) 0
    have hread := hreads (2 * (writeAt .compact 0 v).length + 2) [] (by omega) closes_nil
    rwa [List.append_nil] at hread
  have hmark : (write .compact v).head? ≠ some '\ufeff' := by
    obtain ⟨c, rest, htext, -, hmark, -⟩ := hopens
    rw [write, htext]
    exact fun h => hmark (Option.some.inj h)
  rw [read, if_neg hmark]
  simp only [hspace, hvalue]
  rfl

/-! ## What is read -/

/-- A value a reader can give: its strings are sound and its whole numbers
are not too long. -/
inductive Legible : Json → Prop where
  | null : Legible .null
  | bool (b : Bool) : Legible (.bool b)
  | int {n : Int} (h : n.natAbs < 10 ^ maxDigitsRead) : Legible (.int n)
  | double (x : Float) : Legible (.double x)
  | str {p : Prose} (h : p.Sound) : Legible (.str p)
  | arr {items : List Json} (h : ∀ v ∈ items, Legible v) : Legible (.arr items)
  | obj {members : Members} (h : ∀ m ∈ members, Legible m.2) : Legible (.obj members)

theorem isDigit_of_mem_wholePart (s : List Char) :
    ∀ c ∈ (wholePart s).1, c.isDigit = true := by
  intro c hc
  unfold wholePart at hc
  split at hc
  · rw [List.mem_singleton.1 hc]
    rfl
  · rw [spanDigits, List.span_eq_takeWhile_dropWhile] at hc
    exact List.all_eq_true.1 List.all_takeWhile c hc

theorem legible_of_readNumber {s left : List Char} {v : Json}
    (h : readNumber s = some (.ok (v, left))) : Legible v := by
  unfold readNumber at h
  dsimp only at h
  split at h
  · cases h
  · rename_i whole rest _ hwhole
    have hdigits : ∀ c ∈ whole, c.isDigit = true := fun c hc =>
      isDigit_of_mem_wholePart _ c (by rwa [hwhole])
    split at h
    · split at h
      · rename_i n hread
        have hn := lt_of_ofAsciiDigits hread hdigits
        cases h
        exact .int (by split <;> simpa using hn)
      · cases h
    · cases h
      exact .double _

theorem legible_of_readAtom {s left : List Char} {v : Json}
    (h : readAtom s = .ok (v, left)) : Legible v := by
  rw [readAtom] at h
  split at h
  · rename_i name u hfind
    have hmem := List.mem_of_find?_eq_some hfind
    cases h
    simp only [constants, List.mem_cons, Prod.mk.injEq, List.not_mem_nil, or_false] at hmem
    rcases hmem with ⟨-, rfl⟩ | ⟨-, rfl⟩ | ⟨-, rfl⟩ | ⟨-, rfl⟩ | ⟨-, rfl⟩ | ⟨-, rfl⟩
    · exact .null
    · exact .bool true
    · exact .bool false
    · exact .double _
    · exact .double _
    · exact .double _
  · cases hnumber : readNumber s with
    | none => rw [hnumber] at h; cases h
    | some step =>
      rw [hnumber] at h
      have hstep : readNumber s = some (.ok (v, left)) := hnumber.trans (congrArg some h)
      exact legible_of_readNumber hstep

/-- What is read at some fuel is legible. -/
def GivesLegible (fuel : Nat) : Prop :=
  ∀ depth s v left, readValue fuel depth s = .ok (v, left) → Legible v

/-- Items behind legible ones make legible lists at some fuel. -/
def GivesLegibleItems (fuel : Nat) : Prop :=
  ∀ depth items s v left, (∀ u ∈ items, Legible u) →
    readItems fuel depth items s = .ok (v, left) → Legible v

/-- Members behind legible ones make legible objects at some fuel. -/
def GivesLegibleMembers (fuel : Nat) : Prop :=
  ∀ depth members s v left, (∀ m ∈ members, Legible m.2) →
    readMembers fuel depth members s = .ok (v, left) → Legible v

theorem givesLegible_succ {fuel : Nat} (hitems : GivesLegibleItems fuel)
    (hmembers : GivesLegibleMembers fuel) : GivesLegible (fuel + 1) := by
  intro depth s v left h
  rw [readValue.eq_def] at h
  dsimp only at h
  split at h
  · split at h
    · rename_i hstring
      cases h
      exact .str (sound_of_readString hstring)
    · cases h
  · split at h
    · cases h
    · split at h
      · cases h
        exact .arr nofun
      · exact hitems _ _ _ _ _ (List.forall_mem_nil _) h
  · split at h
    · cases h
    · split at h
      · cases h
        exact .obj nofun
      · exact hmembers _ _ _ _ _ (List.forall_mem_nil _) h
  · exact legible_of_readAtom h

theorem givesLegibleItems_succ {fuel : Nat} (hvalue : GivesLegible fuel)
    (hitems : GivesLegibleItems fuel) : GivesLegibleItems (fuel + 1) := by
  intro depth items s v left hread h
  rw [readItems] at h
  split at h
  · cases h
  · rename_i u rest hu
    have hall : ∀ w ∈ u :: items, Legible w :=
      List.forall_mem_cons.2 ⟨hvalue _ _ _ _ hu, hread⟩
    split at h
    · cases h
      exact .arr fun w hw => hall w (List.mem_reverse.1 hw)
    · exact hitems _ _ _ _ _ hall h
    · cases h

theorem givesLegibleMembers_succ {fuel : Nat} (hvalue : GivesLegible fuel)
    (hmembers : GivesLegibleMembers fuel) : GivesLegibleMembers (fuel + 1) := by
  intro depth members s v left hread h
  rw [readMembers.eq_def] at h
  dsimp only at h
  split at h
  · split at h
    · cases h
    · rename_i name _ _
      split at h
      · split at h
        · cases h
        · rename_i u rest hu
          have hall : ∀ m ∈ (name, u) :: members, Legible m.2 :=
            List.forall_mem_cons.2 ⟨hvalue _ _ _ _ hu, hread⟩
          split at h
          · cases h
            exact .obj fun m hm => hall m (List.mem_reverse.1 hm)
          · exact hmembers _ _ _ _ _ hall h
          · cases h
      · cases h
  · cases h

theorem givesLegible (fuel : Nat) :
    GivesLegible fuel ∧ GivesLegibleItems fuel ∧ GivesLegibleMembers fuel := by
  induction fuel with
  | zero =>
    refine ⟨fun _ _ _ _ h => ?_, fun _ _ _ _ _ _ h => ?_, fun _ _ _ _ _ _ h => ?_⟩
    · rw [readValue] at h
      cases h
    · rw [readItems] at h
      cases h
    · rw [readMembers] at h
      cases h
  | succ fuel ih =>
    obtain ⟨hvalue, hitems, hmembers⟩ := ih
    exact ⟨givesLegible_succ hitems hmembers, givesLegibleItems_succ hvalue hitems,
      givesLegibleMembers_succ hvalue hmembers⟩

/-- A text gives legible values only. -/
theorem legible_of_read {doc : List Char} {v : Json} (h : read doc = .ok v) : Legible v := by
  rw [read] at h
  split at h
  · cases h
  · dsimp only at h
    split at h
    · cases h
    · rename_i u left hvalue
      split at h
      · cases h
        exact (givesLegible _).1 _ _ _ _ hvalue
      · cases h

end Intake.Json
