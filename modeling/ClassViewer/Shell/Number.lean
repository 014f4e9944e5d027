import ClassViewer.Text.Basic

/-!
# Numbers in scripts

How digits in a script are read: in base ten, or in the base their beginning names. A number has
sixty-four bits; one that does not fit is told apart from one that does.
-/

namespace ClassViewer.Shell

/-- The value of decimal digits. -/
def digitsValue (cs : List Char) : Nat := cs.foldl (fun n c => 10 * n + (c.toNat - 48)) 0

namespace Number

/-- A blank before or behind a number. -/
def isBlank (c : Char) : Bool := c == ' ' || ('\t' ≤ c && c ≤ '\r')

def isOctal (c : Char) : Bool := '0' ≤ c && c ≤ '7'

/-- The value of a digit in any base up to sixteen. -/
def digit? (c : Char) : Option Nat :=
  if c.isDigit then some (c.toNat - 48)
  else if 'a' ≤ c && c ≤ 'f' then some (c.toNat - 87)
  else if 'A' ≤ c && c ≤ 'F' then some (c.toNat - 55)
  else none

/-- The value of digits in a base. -/
def value (base : Nat) (cs : List Char) : Nat :=
  cs.foldl (fun n c => base * n + (digit? c).getD 0) 0

/-- How digits are read. -/
inductive Style where
  /-- In base ten. -/
  | decimal
  /-- In base sixteen behind `0x`, in base eight behind `0`, and in base ten otherwise. -/
  | marked
  deriving DecidableEq, Repr

/-- The digits at the beginning of some characters: their value, and what is behind them. -/
def natAt? (style : Style) (cs : List Char) : Option (Nat × List Char) :=
  let isHex (c : Char) : Bool := (digit? c).isSome
  let run (base : Nat) (isDigit : Char → Bool) (cs : List Char) : Option (Nat × List Char) :=
    match cs.takeWhile isDigit with
    | [] => none
    | ds => some (value base ds, cs.dropWhile isDigit)
  match style, cs with
  | .marked, '0' :: x :: rest =>
    if (x = 'x' || x = 'X') && rest.head?.any isHex then run 16 isHex rest else run 8 isOctal cs
  | .marked, '0' :: _ => run 8 isOctal cs
  | _, cs => run 10 Char.isDigit cs

/-- The number at the beginning of some characters, behind blanks and a sign, and what is behind
it. -/
def intAt? (style : Style) (cs : List Char) : Option (Int × List Char) :=
  match cs.dropWhile isBlank with
  | '-' :: cs => (natAt? style cs).map fun r => (-(r.1 : Int), r.2)
  | '+' :: cs => (natAt? style cs).map fun r => ((r.1 : Int), r.2)
  | cs => (natAt? style cs).map fun r => ((r.1 : Int), r.2)

/-- The least number. -/
def least : Int := -9223372036854775808

/-- The greatest number. -/
def greatest : Int := 9223372036854775807

/-- Whether a number has its place in sixty-four bits. -/
def fits (n : Int) : Bool := decide (least ≤ n ∧ n ≤ greatest)

/-- The nearest number that has its place. -/
def clamp (n : Int) : Int := max least (min greatest n)

/-- The number that the last thirty-two bits of a number stand for. -/
def narrow (n : Int) : Int := Int.bmod n 4294967296

/-- The number a whole text is, with blanks around it. -/
def ofText? (style : Style) (s : String) : Option Int := do
  let (n, rest) ← intAt? style s.toList
  if rest.all isBlank && fits n then some n else none

end Number

end ClassViewer.Shell
