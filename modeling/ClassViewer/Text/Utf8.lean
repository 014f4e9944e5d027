/-!
# UTF-8 with replacement

Decoding of arbitrary bytes. A longest beginning of a well-formed sequence that is not continued,
and any byte that cannot begin one, becomes one replacement character `U+FFFD`; the byte that broke
a sequence is read again as the beginning of the next.
-/

namespace ClassViewer.Text.Utf8

/-- A sequence begun: the bits so far, how many bytes are missing, and the range of the next one. -/
structure Open where
  bits : Nat
  missing : Nat
  low : Nat
  high : Nat

/-- The decoder between two bytes: the open sequence, and the characters so far, last one first. -/
structure State where
  pending : Option Open
  output : List Char

/-- The character that stands for bytes that do not decode. -/
def replacement : Char := Char.ofNat 0xFFFD

/-- Reads a byte where a new sequence begins. -/
def begin (out : List Char) (b : Nat) : State :=
  if b < 0x80 then ⟨none, Char.ofNat b :: out⟩
  else if b < 0xC2 then ⟨none, replacement :: out⟩
  else if b < 0xE0 then ⟨some ⟨b % 0x20, 1, 0x80, 0xBF⟩, out⟩
  else if b = 0xE0 then ⟨some ⟨b % 0x10, 2, 0xA0, 0xBF⟩, out⟩
  else if b = 0xED then ⟨some ⟨b % 0x10, 2, 0x80, 0x9F⟩, out⟩
  else if b < 0xF0 then ⟨some ⟨b % 0x10, 2, 0x80, 0xBF⟩, out⟩
  else if b = 0xF0 then ⟨some ⟨b % 0x08, 3, 0x90, 0xBF⟩, out⟩
  else if b < 0xF4 then ⟨some ⟨b % 0x08, 3, 0x80, 0xBF⟩, out⟩
  else if b = 0xF4 then ⟨some ⟨b % 0x08, 3, 0x80, 0x8F⟩, out⟩
  else ⟨none, replacement :: out⟩

/-- Reads one byte. -/
def step (s : State) (byte : UInt8) : State :=
  let b := byte.toNat
  match s.pending with
  | none => begin s.output b
  | some o =>
    if o.low ≤ b ∧ b ≤ o.high then
      let bits := o.bits * 0x40 + b % 0x40
      if o.missing ≤ 1 then ⟨none, Char.ofNat bits :: s.output⟩
      else ⟨some ⟨bits, o.missing - 1, 0x80, 0xBF⟩, s.output⟩
    else begin (replacement :: s.output) b

/-- The characters after the last byte; an open sequence is replaced. -/
def finish (s : State) : List Char :=
  match s.pending with
  | none => s.output.reverse
  | some _ => (replacement :: s.output).reverse

/-- The text of `bytes`, with replacement characters where they are not UTF-8. -/
def decodeLossy (bytes : ByteArray) : String :=
  String.ofList (finish (bytes.foldl step ⟨none, []⟩))

end ClassViewer.Text.Utf8
