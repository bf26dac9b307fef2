import Intake.Number.Shortest

/-!
# Written doubles

Three ways of writing a double: with a fixed number of places, with six
significant digits, and in the fewest digits that read back.

* `fixed` rounds the exact value, ties to even.
* `significant` drops trailing zeros.
* `shortestText` is positional below `10 ^ 16` and from `10 ^ -4` on, and
  always shows a point or an exponent.
-/

namespace Intake.Number

/-- The decimal digits of a number. -/
def digits (n : Nat) : List Char := Nat.toDigits 10 n

/-- Digits padded with zeros in front. -/
def padded (width n : Nat) : List Char :=
  List.replicate (width - (digits n).length) '0' ++ digits n

/-- The decimal text of a whole number. -/
def intText (n : Int) : String :=
  String.ofList (if n < 0 then '-' :: digits n.natAbs else digits n.natAbs)

/-- Doubles without digits. -/
def nonFiniteText (x : Float) : List Char :=
  if x.isNaN then ['n', 'a', 'n'] else if x < 0 then ['-', 'i', 'n', 'f'] else ['i', 'n', 'f']

/-- The sign in front of a number. -/
def signText (negative : Bool) : List Char := if negative then ['-'] else []

/-- Writes `n / 10 ^ places` with all its places. -/
def withPlaces (n places : Nat) : List Char :=
  if places = 0 then digits n
  else digits (n / Nat.pow 10 places) ++ '.' :: padded places (n % Nat.pow 10 places)

/-- A double with a fixed number of places. -/
def fixed (places : Nat) (x : Float) : String :=
  String.ofList <| match Binary.ofFloat? x with
    | none => nonFiniteText x
    | some b =>
      let (num, den) := b.quotient
      signText b.negative ++ withPlaces (Decimal.divHalfEven (num * Nat.pow 10 places) den) places

/-- Drops zeros at the end. -/
def dropZeros (s : List Char) : List Char := (s.reverse.dropWhile (· == '0')).reverse

/-- Leading digit, point and further digits; the point is left out when
nothing follows. -/
def mantissaText : List Char → List Char
  | [] => ['0']
  | [d] => [d]
  | d :: rest => d :: '.' :: rest

/-- An exponent with its sign and at least two digits. -/
def exponentText (e : Int) : List Char :=
  'e' :: (if e < 0 then '-' else '+') :: padded 2 e.natAbs

/-- Digits whose first one stands at `10 ^ lead`, in positional form without
a point at the end. -/
def positional (ds : List Char) (lead : Int) : List Char :=
  if lead < 0 then '0' :: '.' :: (List.replicate (lead.natAbs - 1) '0' ++ ds)
  else
    let whole := lead.toNat + 1
    let front := ds.take whole ++ List.replicate (whole - ds.length) '0'
    match ds.drop whole with
    | [] => front
    | rest => front ++ '.' :: rest

/-- Six significant digits, ties to even, with the exponent of the first. -/
def sixDigits (b : Binary) : Nat × Int :=
  let (num, den) := b.quotient
  let lead := Binary.leadingExponent num den
  let n :=
    Decimal.divHalfEven (num * Nat.pow 10 (5 - lead).toNat) (den * Nat.pow 10 (lead - 5).toNat)
  if n = Nat.pow 10 6 then (Nat.pow 10 5, lead + 1) else (n, lead)

/-- A double in six significant digits. -/
def significant (x : Float) : String :=
  String.ofList <| match Binary.ofFloat? x with
    | none => nonFiniteText x
    | some b =>
      if b.mantissa = 0 then signText b.negative ++ ['0']
      else
        let (n, lead) := sixDigits b
        let ds := dropZeros (digits n)
        signText b.negative ++
          (if -4 ≤ lead && lead < 6 then positional ds lead
            else mantissaText ds ++ exponentText lead)

/-- A double in the fewest digits that read back. -/
def shortestText (x : Float) : String :=
  String.ofList <| match shortest? x with
    | none => nonFiniteText x
    | some d =>
      let all := digits d.coefficient
      let ds := if d.coefficient = 0 then ['0'] else dropZeros all
      let lead : Int := if d.coefficient = 0 then 0 else d.exponent + all.length - 1
      let body :=
        if -4 ≤ lead && lead < 16 then
          let text := positional ds lead
          if text.contains '.' then text else text ++ ['.', '0']
        else mantissaText ds ++ exponentText lead
      signText d.negative ++ body

end Intake.Number
