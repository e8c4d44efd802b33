/-!
# Bytes of a text

`bytes` are the UTF-8 bytes of a text and `ofBytes?` reads them back, refusing ill-formed ones.
`lossy` reads anything: each longest ill-formed start of a character becomes one replacement
character.
-/

namespace GuardedWrites.Text

/-- The UTF-8 bytes of a text. -/
def bytes (s : String) : List UInt8 := s.toUTF8.data.toList

/-- The text that well-formed bytes write. -/
def ofBytes? (bs : List UInt8) : Option String := String.fromUTF8? ⟨⟨bs⟩⟩

theorem ofBytes?_bytes (s : String) : ofBytes? (bytes s) = some s := by
  have h : (⟨⟨(bytes s)⟩⟩ : ByteArray) = s.toByteArray := rfl
  simp only [ofBytes?, h, String.fromUTF8?]
  have v := s.isValidUTF8
  split
  · rfl
  · rename_i hn
    exact absurd v (by simpa using hn)

/-- The range that the second byte of a character must lie in, and the number of bytes that follow
the first one, by the first byte. -/
def leadByte? (b : Nat) : Option (Nat × Nat × Nat) :=
  if 0xc2 ≤ b ∧ b ≤ 0xdf then some (0x80, 0xbf, 1)
  else if b = 0xe0 then some (0xa0, 0xbf, 2)
  else if b = 0xed then some (0x80, 0x9f, 2)
  else if 0xe1 ≤ b ∧ b ≤ 0xef then some (0x80, 0xbf, 2)
  else if b = 0xf0 then some (0x90, 0xbf, 3)
  else if 0xf1 ≤ b ∧ b ≤ 0xf3 then some (0x80, 0xbf, 3)
  else if b = 0xf4 then some (0x80, 0x8f, 3)
  else none

/-- The character that shows an ill-formed run of bytes. -/
def replacement : Char := Char.ofNat 0xfffd

/-- Reads bytes with a character under way: `pending` bytes are missing, the next of them in the
given range, and `code` holds the bits so far. -/
def lossyChars : (pending low high code : Nat) → List UInt8 → List Char
  | 0, _, _, _, [] => []
  | _ + 1, _, _, _, [] => [replacement]
  | 0, _, _, _, b :: bs =>
    let n := b.toNat
    if n < 0x80 then Char.ofNat n :: lossyChars 0 0 0 0 bs
    else match leadByte? n with
      | some (low, high, more) => lossyChars more low high (n % Nat.pow 2 (6 - more)) bs
      | none => replacement :: lossyChars 0 0 0 0 bs
  | pending + 1, low, high, code, b :: bs =>
    let n := b.toNat
    if low ≤ n ∧ n ≤ high then
      let code := code * 64 + n % 64
      if pending = 0 then Char.ofNat code :: lossyChars 0 0 0 0 bs
      else lossyChars pending 0x80 0xbf code bs
    else replacement ::
      (if n < 0x80 then Char.ofNat n :: lossyChars 0 0 0 0 bs
       else match leadByte? n with
        | some (low, high, more) => lossyChars more low high (n % Nat.pow 2 (6 - more)) bs
        | none => replacement :: lossyChars 0 0 0 0 bs)

/-- The text of any bytes. -/
def lossy (bs : List UInt8) : String := String.ofList (lossyChars 0 0 0 0 bs)

end GuardedWrites.Text
