import ClassViewer.Lines.Mapping
import ClassViewer.Text.Basic

/-!
# Realignment

Blank lines put before the lines of a text so that a mapped line lands on its source line number.
Lines are never removed or moved, so a target that the text has passed already is ignored.
-/

namespace ClassViewer

/-- The greatest line number. -/
def LineNumber.max : LineNumber := 0xFFFFFFFF

/-- The line number after `n`, which stays at the greatest. -/
def LineNumber.next (n : LineNumber) : LineNumber := if n = LineNumber.max then n else n + 1

/-- The line number of a count, which stays at the greatest. -/
def LineNumber.ofCount (n : Nat) : LineNumber :=
  if n < 0x100000000 then UInt32.ofNat n else LineNumber.max

/-- How many blank lines go before the line with number `index` when the next line of output has
number `output`. -/
def padding (m : LineMapping) (index output : LineNumber) : Nat :=
  match m.get? index with
  | some target => target.toNat - output.toNat
  | none => 0

/-- Places lines one after the other. `count` lines of input were placed before, `output` is the
number of the next line of output, and `acc` holds the output so far, last line first. -/
def placeLines (m : LineMapping) :
    Nat → LineNumber → List String → List String → List String
  | _, _, acc, [] => acc.reverse
  | count, output, acc, line :: rest =>
    let pad := padding m (LineNumber.ofCount (count + 1)) output
    let placed := UInt32.ofNat (output.toNat + pad)
    placeLines m (count + 1) (LineNumber.next placed)
      (line :: (List.replicate pad "" ++ acc)) rest

/-- The text with blank lines inserted so that each mapped line lands on its source line. -/
def realign (text : String) (m : LineMapping) : String :=
  if m.isEmpty then text
  else Text.join "\n" (placeLines m 0 1 [] (Text.newlineSplit text))

end ClassViewer
