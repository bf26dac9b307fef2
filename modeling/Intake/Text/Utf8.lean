/-!
# UTF-8 with replacement

Reads bytes as UTF-8. Every maximal part that no character begins with is
read as one replacement character, so reading never fails.

* `decode` reads a whole text; `decode_nil` and `decode_ascii` say that
  ASCII bytes are read as they are.
-/

namespace Intake.Text.Utf8

/-- The raw content of a document or of a program's output. -/
abbrev Bytes := List UInt8

/-- Stands for a part that is not UTF-8. -/
def replacement : Char := '\ufffd'

/-- A character of several bytes whose first bytes have been read. -/
structure Begun where
  /-- The bits read so far. -/
  value : Nat
  /-- How many bytes are still missing. -/
  missing : Nat
  /-- The least and the greatest next byte that continues the character. -/
  range : Nat × Nat := (0x80, 0xBF)

/-- What a byte begins: a whole character, a longer one, or nothing. -/
inductive Lead where
  | whole (c : Char)
  | begun (b : Begun)
  | invalid

/-- Reads a byte in first position. -/
def lead (b : Nat) : Lead :=
  if b < 0x80 then .whole (Char.ofNat b)
  else if b < 0xC2 then .invalid
  else if b < 0xE0 then .begun ⟨b - 0xC0, 1, 0x80, 0xBF⟩
  else if b = 0xE0 then .begun ⟨0, 2, 0xA0, 0xBF⟩
  else if b = 0xED then .begun ⟨0xD, 2, 0x80, 0x9F⟩
  else if b < 0xF0 then .begun ⟨b - 0xE0, 2, 0x80, 0xBF⟩
  else if b = 0xF0 then .begun ⟨0, 3, 0x90, 0xBF⟩
  else if b < 0xF4 then .begun ⟨b - 0xF0, 3, 0x80, 0xBF⟩
  else if b = 0xF4 then .begun ⟨4, 3, 0x80, 0x8F⟩
  else .invalid

/-- The reader: the begun character, if any, and the characters read so far
in reverse. -/
structure Reader where
  begun : Option Begun := none
  read : List Char := []

/-- Reads a byte with no character begun. -/
def Reader.first (read : List Char) (b : Nat) : Reader :=
  match lead b with
  | .whole c => ⟨none, c :: read⟩
  | .begun p => ⟨some p, read⟩
  | .invalid => ⟨none, replacement :: read⟩

/-- Reads one byte. A byte that does not continue the begun character is
read again in first position. -/
def Reader.step (r : Reader) (byte : UInt8) : Reader :=
  let b := byte.toNat
  match r.begun with
  | none => .first r.read b
  | some p =>
    if p.range.1 ≤ b && b ≤ p.range.2 then
      let value := p.value * 64 + (b - 0x80)
      if p.missing ≤ 1 then ⟨none, Char.ofNat value :: r.read⟩
      else ⟨some ⟨value, p.missing - 1, 0x80, 0xBF⟩, r.read⟩
    else .first (replacement :: r.read) b

/-- The characters read; a character that stays incomplete is replaced. -/
def Reader.finish (r : Reader) : List Char :=
  (if r.begun.isSome then replacement :: r.read else r.read).reverse

/-- Reads bytes as UTF-8 with replacement. -/
def decode (bytes : Bytes) : List Char := (bytes.foldl Reader.step {}).finish

/-- `decode` as a string. -/
def decodeString (bytes : Bytes) : String := String.ofList (decode bytes)

/-- The UTF-8 bytes of a string. -/
def encode (s : String) : Bytes := s.toUTF8.toList

/-! ## ASCII -/

theorem decode_nil : decode [] = [] := rfl

private theorem foldl_ascii (bytes : Bytes) (read : List Char)
    (h : ∀ b ∈ bytes, b.toNat < 0x80) :
    bytes.foldl Reader.step ⟨none, read⟩ =
      ⟨none, (bytes.map fun b => Char.ofNat b.toNat).reverse ++ read⟩ := by
  induction bytes generalizing read with
  | nil => rfl
  | cons b bytes ih =>
    have hb : b.toNat < 128 := h b List.mem_cons_self
    have hstep : Reader.step ⟨none, read⟩ b = ⟨none, Char.ofNat b.toNat :: read⟩ := by
      simp [Reader.step, Reader.first, lead, hb]
    rw [List.foldl_cons, hstep, ih _ fun x hx => h x (List.mem_cons_of_mem b hx)]
    simp

/-- ASCII bytes are read as they are. -/
theorem decode_ascii (bytes : Bytes) (h : ∀ b ∈ bytes, b.toNat < 0x80) :
    decode bytes = bytes.map fun b => Char.ofNat b.toNat := by
  simp only [decode, foldl_ascii bytes [] h, Reader.finish]
  simp

/-! ## Parts that are not UTF-8 -/

example : decode [0xED, 0xA0, 0x80] = [replacement, replacement, replacement] := by decide

example : decode [0xE4, 0xB8, 0x41] = [replacement, 'A'] := by decide

example : decode [0xF0, 0x9F, 0x98, 0x80] = ['😀'] := by decide

end Intake.Text.Utf8
