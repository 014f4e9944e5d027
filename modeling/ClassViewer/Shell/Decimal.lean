import ClassViewer.Shell.Number

/-!
# Fractions in scripts

Numbers with a point, as formats write them. A number that is read is first brought to the nearest
binary fraction of fifty-three digits; that fraction is then written exactly, rounded to the places
asked for with a half going to the even neighbour.
-/

namespace ClassViewer.Shell.Decimal

/-- A fraction that is not negative, and its sign. -/
structure Fraction where
  negative : Bool
  numerator : Nat
  denominator : Nat
  deriving DecidableEq, Repr

/-- The power of ten. -/
def tens (n : Nat) : Nat := Nat.pow 10 n

/-- The quotient, rounded to the nearest number; a half goes to the even one. -/
def rounded (n d : Nat) : Nat :=
  let q := n / d
  let twice := 2 * (n % d)
  if twice < d || (twice = d && q % 2 = 0) then q else q + 1

/-- The nearest fraction with fifty-three binary digits, of which none stands beyond the place
1074 behind the point. -/
def nearest (n d : Nat) : Nat × Nat :=
  if n = 0 then (0, 1)
  else
    let (up, down) := if n.log2 < 52 + d.log2 then (52 + d.log2 - n.log2, 0)
      else (0, n.log2 - d.log2 - 52)
    let (up, down) :=
      if (n <<< up) < (d <<< down) <<< 52 then
        if down = 0 then (up + 1, 0) else (up, down - 1)
      else (up, down)
    let up := min up 1074
    let m := rounded (n <<< up) (d <<< down)
    (m <<< down, 1 <<< up)

/-- A number that a format writes. -/
inductive Value where
  | finite (f : Fraction)
  | infinite (negative : Bool)
  | undefined (negative : Bool)
  deriving DecidableEq, Repr

/-- A number that was read, whether it is out of the range of numbers, and what is behind it. -/
structure Read where
  value : Value
  outOfRange : Bool
  rest : List Char

/-- The number that is read for a quotient: infinite from the power 1024 of two on, and out of range
too where it is too small to be exact. -/
def Read.ofQuotient (negative : Bool) (n d : Nat) (rest : List Char) : Read :=
  let (m, e) := nearest n d
  if (e <<< 1024) ≤ m then ⟨.infinite negative, true, rest⟩
  else
    let small := (m <<< 1022) < e
    ⟨.finite ⟨negative, m, e⟩, small && m * d != n * e, rest⟩

/-- The number that is read for digits behind which so many powers of a base follow. Powers beyond
what any number in range has are not worked out. -/
def Read.ofScaled (negative : Bool) (digits base : Nat) (exponent : Int) (rest : List Char) :
    Read :=
  let size : Int := digits.log2 + (if base = 2 then exponent else exponent * 3)
  if digits = 0 then ⟨.finite ⟨negative, 0, 1⟩, false, rest⟩
  else if 0 ≤ exponent && 1100 < size then ⟨.infinite negative, true, rest⟩
  else if exponent < 0 && size < -1200 then ⟨.finite ⟨negative, 0, 1⟩, true, rest⟩
  else if 0 ≤ exponent then Read.ofQuotient negative (digits * Nat.pow base exponent.toNat) 1 rest
  else Read.ofQuotient negative digits (Nat.pow base (-exponent).toNat) rest

/-- Reads the exponent behind its letter, if it is well formed. -/
def exponentAt (letter : Char) (cs : List Char) : Int × List Char :=
  match cs with
  | e :: more =>
    if e.toLower = letter && !more.head?.any Number.isBlank then
      match Number.intAt? .decimal more with
      | some (n, rest) => (n, rest)
      | none => (0, cs)
    else (0, cs)
  | [] => (0, [])

/-- Digits of a kind before and behind a point, and what is behind them. -/
def pointedDigits (isDigit : Char → Bool) (cs : List Char) : List Char × List Char × List Char :=
  let whole := cs.takeWhile isDigit
  match cs.dropWhile isDigit with
  | '.' :: rest =>
    let part := rest.takeWhile isDigit
    if whole.isEmpty && part.isEmpty then ([], [], cs)
    else (whole, part, rest.dropWhile isDigit)
  | rest => (whole, [], rest)

/-- What is behind a word at the beginning, in either case of letters. -/
def behind? (word : String) (cs : List Char) : Option (List Char) :=
  let n := word.toList.length
  if (cs.take n).map Char.toLower = word.toList then some (cs.drop n) else none

/-- Reads a number without its sign. -/
def unsignedAt? (negative : Bool) (cs : List Char) : Option Read :=
  match behind? "infinity" cs, behind? "inf" cs, behind? "nan" cs with
  | some rest, _, _ => some ⟨.infinite negative, false, rest⟩
  | none, some rest, _ => some ⟨.infinite negative, false, rest⟩
  | none, none, some rest =>
    let inner := (rest.drop 1).takeWhile fun c => c.isAlphanum || c == '_'
    let after := rest.drop (inner.length + 1)
    some ⟨.undefined negative, false,
      if rest.head? = some '(' && after.head? = some ')' then after.drop 1 else rest⟩
  | none, none, none =>
    let isHex (c : Char) : Bool := (Number.digit? c).isSome
    let hex := match behind? "0x" cs with
      | some rest => pointedDigits isHex rest
      | none => ([], [], [])
    match hex with
    | ([], [], _) =>
      match pointedDigits Char.isDigit cs with
      | ([], [], _) => none
      | (whole, part, rest) =>
        let (exponent, rest) := exponentAt 'e' rest
        some (Read.ofScaled negative (digitsValue (whole ++ part)) 10 (exponent - part.length) rest)
    | (whole, part, rest) =>
      let (exponent, rest) := exponentAt 'p' rest
      let digits := Number.value 16 (whole ++ part)
      some (Read.ofScaled negative digits 2 (exponent - 4 * part.length) rest)

/-- Reads a number: decimal or hexadecimal with a point and an exponent, or by name. -/
def valueAt? (cs : List Char) : Option Read :=
  match cs.dropWhile Number.isBlank with
  | '-' :: cs => unsignedAt? true cs
  | '+' :: cs => unsignedAt? false cs
  | cs => unsignedAt? false cs

/-- The digits of a number, at least so many. -/
def padDigits (width n : Nat) : String :=
  let digits := toString n
  String.ofList (List.replicate (width - digits.length) '0') ++ digits

/-- A number with so many places behind the point, given in units of the last place. -/
def pointed (places units : Nat) (pointAlways : Bool) : String :=
  let digits := (padDigits (places + 1) units).toList
  let whole := String.ofList (digits.take (digits.length - places))
  if places = 0 && !pointAlways then whole
  else whole ++ "." ++ String.ofList (digits.drop (digits.length - places))

/-- The fraction with so many places behind the point. -/
def fixed (places : Nat) (pointAlways : Bool) (f : Fraction) : String :=
  pointed places (rounded (f.numerator * tens places) f.denominator) pointAlways

/-- The exponent of the first digit of a fraction. -/
def exponentOf (f : Fraction) : Int :=
  if f.numerator = 0 then 0
  else if f.denominator ≤ f.numerator then
    ((toString (f.numerator / f.denominator)).length : Int) - 1
  else
    let guess := (toString (f.denominator / f.numerator)).length
    if f.denominator ≤ f.numerator * tens (guess - 1) then 1 - (guess : Int) else -(guess : Int)

/-- The digits of a fraction, one before the point and so many places behind it, in units of the
last place, and the exponent of the first. -/
def significant (places : Nat) (f : Fraction) : Nat × Int :=
  let e := exponentOf f
  let shift := (places : Int) - e
  let units := if 0 ≤ shift then rounded (f.numerator * tens shift.toNat) f.denominator
    else rounded f.numerator (f.denominator * tens (-shift).toNat)
  if units = tens (places + 1) then (tens places, e + 1) else (units, e)

/-- The text of an exponent. -/
def exponentText (e : Int) : String :=
  "e" ++ (if e < 0 then "-" else "+") ++ padDigits 2 e.natAbs

/-- The fraction with one digit before the point, and an exponent. -/
def scientific (places : Nat) (pointAlways : Bool) (f : Fraction) : String :=
  let (units, e) := significant places f
  pointed places units pointAlways ++ exponentText e

/-- The text without zeros at the end of its places. -/
def withoutZeros (s : String) : String :=
  if Text.holds '.' s then
    let kept := s.toList.reverse.dropWhile (· == '0')
    String.ofList (match kept with | '.' :: cs => cs | cs => cs).reverse
  else s

/-- The fraction with so many digits, in the shorter of both ways of writing. -/
def general (digits : Nat) (keepZeros : Bool) (f : Fraction) : String :=
  let digits := max digits 1
  let (units, e) := significant (digits - 1) f
  let trim (s : String) : String := if keepZeros then s else withoutZeros s
  if -4 ≤ e && e < digits then trim (fixed ((digits : Int) - 1 - e).toNat keepZeros f)
  else trim (pointed (digits - 1) units keepZeros) ++ exponentText e

/-- The fraction in base sixteen, with one digit before the point and a power of two; as many places
as it has where their number is not given. -/
def binary (places : Option Nat) (pointAlways : Bool) (f : Fraction) : String :=
  let size : Int := (f.numerator.log2 : Int) - f.denominator.log2
  let e : Int := if f.numerator = 0 then 0 else max size (-1022)
  let (n, d) := if 0 ≤ e then (f.numerator, f.denominator <<< e.toNat)
    else (f.numerator <<< (-e).toNat, f.denominator)
  let all := places.getD 13
  let units := rounded (n <<< (4 * all)) d
  let whole := toString (units >>> (4 * all))
  let digits := Nat.toDigits 16 (units % (1 <<< (4 * all)))
  let part := if all = 0 then [] else List.replicate (all - digits.length) '0' ++ digits
  let part := if places.isSome then part else (part.reverse.dropWhile (· == '0')).reverse
  let point := if part.isEmpty && !pointAlways then "" else "."
  whole ++ point ++ String.ofList part ++ "p" ++ (if e < 0 then "-" else "+") ++ toString e.natAbs

end ClassViewer.Shell.Decimal
