import Intake.Text.Visible

/-!
# Quoted texts

A text between quotes as diagnostics show it. The quote is the single one
unless the text holds a single quote and no double quote. The quote and
the backslash are escaped by a backslash, three controls have names, and
what is not visible is shown by its code point.

* `quoted` is the whole form; `quotedChars_plain` says that a text which
  needs no escape is shown as it is between single quotes.
-/

namespace Intake.Text

/-- The lower-case hexadecimal digits of a number, padded to a width. -/
def hex (width n : Nat) : List Char :=
  let digits := Nat.toDigits 16 n
  List.replicate (width - digits.length) '0' ++ digits

/-- The quote that encloses a text. -/
def quoteMark (s : List Char) : Char :=
  if s.contains '\'' && ! s.contains '"' then '"' else '\''

/-- One character inside quotes `q`. -/
def escapeChar (q c : Char) : List Char :=
  if c == q || c == '\\' then ['\\', c]
  else if c == '\n' then ['\\', 'n']
  else if c == '\r' then ['\\', 'r']
  else if c == '\t' then ['\\', 't']
  else if isVisible c then [c]
  else if c.toNat < 0x100 then '\\' :: 'x' :: hex 2 c.toNat
  else if c.toNat < 0x10000 then '\\' :: 'u' :: hex 4 c.toNat
  else '\\' :: 'U' :: hex 8 c.toNat

/-- A text in quotes. -/
def quotedChars (s : List Char) : List Char :=
  let q := quoteMark s
  q :: s.flatMap (escapeChar q) ++ [q]

/-- A text that needs no escape stands between single quotes as it is. -/
theorem quotedChars_plain {s : List Char}
    (h : ∀ c ∈ s, isVisible c = true ∧ c ≠ '\'' ∧ c ≠ '\\') :
    quotedChars s = '\'' :: s ++ ['\''] := by
  have hmark : quoteMark s = '\'' := by
    have : '\'' ∉ s := fun hmem => (h _ hmem).2.1 rfl
    simp [quoteMark, this]
  have hbody : ∀ t : List Char, (∀ c ∈ t, isVisible c = true ∧ c ≠ '\'' ∧ c ≠ '\\') →
      t.flatMap (escapeChar '\'') = t := by
    intro t ht
    induction t with
    | nil => rfl
    | cons c t ih =>
      have hc := ht c List.mem_cons_self
      have hn : c ≠ '\n' ∧ c ≠ '\r' ∧ c ≠ '\t' := by
        refine ⟨?_, ?_, ?_⟩ <;> rintro rfl <;> exact absurd hc.1 (by decide)
      have hchar : escapeChar '\'' c = [c] := by simp [escapeChar, hc, hn]
      rw [List.flatMap_cons, hchar, ih fun d hd => ht d (List.mem_cons_of_mem c hd)]
      rfl
  simp only [quotedChars, hmark, hbody s h]

/-- A string in quotes. -/
def quoted (s : String) : String := String.ofList (quotedChars s.toList)

end Intake.Text
