import ClassViewer.Shell.Utility.Options

/-!
# Utilities on bytes

The programs that show bytes as text, turn them into text and back, and compare them.
-/

namespace ClassViewer.Shell

open Session

/-! ## Dumps -/

/-- How a byte is shown. -/
inductive ByteFormat where
  | character
  | octal
  | hexadecimal
  | decimal
  deriving DecidableEq, Repr

/-- A number in a base with so many digits. -/
def digitsIn (base width n : Nat) : String :=
  let digits := Nat.toDigits base n
  String.ofList (List.replicate (width - digits.length) '0' ++ digits)

/-- A text behind blanks, so wide. -/
def rightAligned (width : Nat) (s : String) : String :=
  String.ofList (List.replicate (width - s.toList.length) ' ') ++ s

/-- The text of a byte, with a blank before it. -/
def ByteFormat.text (f : ByteFormat) (c : Char) : String :=
  match f with
  | .octal => " " ++ digitsIn 8 3 c.toNat
  | .hexadecimal => " " ++ digitsIn 16 2 c.toNat
  | .decimal => rightAligned 4 (toString c.toNat)
  | .character =>
    rightAligned 4 (match c with
      | '\n' => "\\n"
      | '\t' => "\\t"
      | '\r' => "\\r"
      | c =>
        if c.toNat = 0 then "\\0"
        else if c.toNat = 7 then "\\a"
        else if c.toNat = 8 then "\\b"
        else if c.toNat = 11 then "\\v"
        else if c.toNat = 12 then "\\f"
        else if isUnprintable c then digitsIn 8 3 c.toNat
        else String.singleton c)

/-- The bytes in rows of sixteen; `fuel` bounds the rows. -/
def rowsOf : Nat → List Char → List (List Char)
  | 0, _ => []
  | fuel + 1, cs => if cs.isEmpty then [] else cs.take 16 :: rowsOf fuel (cs.drop 16)

/-- The rows of a dump with the places they begin at; a row like the one before it is left out, and
a star stands for all of those. -/
def dumpRows (f : ByteFormat) (place : Nat → String) (all : Bool) :
    Nat → Option (List Char) → Bool → List (List Char) → List String
  | n, _, _, [] => [place n]
  | n, before, starred, row :: rest =>
    if !all && before = some row then
      (if starred then [] else ["*"]) ++ dumpRows f place all (n + row.length) before true rest
    else (place n ++ Text.join "" (row.map f.text)) ::
      dumpRows f place all (n + row.length) (some row) false rest

/-- The dump of a text by the options given. -/
def dump (g : Given) (text : String) : String :=
  let number (letter : Char) : Option Nat := (g.value? letter).map fun n => digitsValue n.toList
  let skipped := (number 'j').getD 0
  let bytes := text.toList.drop skipped
  let bytes := match number 'N' with
    | some n => bytes.take n
    | none => bytes
  let f := match g.options.filterMap fun o =>
      match o.1, (o.2.toList.head?) with
      | 'c', _ => some ByteFormat.character
      | 'b', _ => some .octal
      | 't', some 'c' => some .character
      | 't', some 'x' => some .hexadecimal
      | 't', some 'o' => some .octal
      | 't', some _ => some .decimal
      | _, _ => none with
    | f :: _ => f
    | [] => .octal
  let place (n : Nat) : String := match g.value? 'A' with
    | some "n" => ""
    | some "d" => digitsIn 10 7 n
    | some "x" => digitsIn 16 6 n
    | _ => digitsIn 8 7 n
  let rows := dumpRows f place (g.has 'v') skipped none false (rowsOf (bytes.length + 1) bytes)
  ofLines (if g.value? 'A' = some "n" then rows.dropLast else rows)

def od : Utility := withOptions "od" "cbvx" "AtNj" [] 1 fun g => do
  let isWrong (o : Char × String) : Bool :=
    (o.1 == 'j' || o.1 == 'N') && (o.2 == "" || !o.2.toList.all Char.isDigit)
  match g.options.find? isWrong with
  | some (letter, value) =>
    complain ("od: invalid -" ++ String.singleton letter ++ " argument " ++ between value)
    return 1
  | none =>
    let (parts, status) ← contents "od" g.operands
    say (dump g (Text.join "" parts))
    return status

/-! ## Base sixty-four -/

/-- The digits. -/
def base64Digits : List Char :=
  "ABCDEFGHIJKLMNOPQRSTUVWXYZabcdefghijklmnopqrstuvwxyz0123456789+/".toList

/-- The digits of bytes, three at a time. -/
def encode64 : List Char → List Char
  | a :: b :: c :: rest =>
    let n := a.toNat * 65536 + b.toNat * 256 + c.toNat
    [n / 262144, n / 4096 % 64, n / 64 % 64, n % 64].map (base64Digits.getD · '=') ++ encode64 rest
  | [a, b] =>
    let n := a.toNat * 65536 + b.toNat * 256
    [n / 262144, n / 4096 % 64, n / 64 % 64].map (base64Digits.getD · '=') ++ ['=']
  | [a] =>
    let n := a.toNat * 65536
    [n / 262144, n / 4096 % 64].map (base64Digits.getD · '=') ++ ['=', '=']
  | [] => []

/-- The bytes of digits, four at a time; none if they are malformed. -/
def decode64? : List Char → Option (List Char)
  | [] => some []
  | a :: b :: '=' :: '=' :: rest => do
    let n := (← base64Digits.idxOf? a) * 64 + (← base64Digits.idxOf? b)
    return Char.ofNat (n / 16) :: (← decode64? rest)
  | a :: b :: c :: '=' :: rest => do
    let n := ((← base64Digits.idxOf? a) * 64 + (← base64Digits.idxOf? b)) * 64 +
      (← base64Digits.idxOf? c)
    return Char.ofNat (n / 1024) :: Char.ofNat (n / 4 % 256) :: (← decode64? rest)
  | a :: b :: c :: d :: rest => do
    let n := (((← base64Digits.idxOf? a) * 64 + (← base64Digits.idxOf? b)) * 64 +
      (← base64Digits.idxOf? c)) * 64 + (← base64Digits.idxOf? d)
    return Char.ofNat (n / 65536) :: Char.ofNat (n / 256 % 256) :: Char.ofNat (n % 256) ::
      (← decode64? rest)
  | _ => none

/-- The characters in lines of so many; `fuel` bounds the lines. -/
def wrapped (width : Nat) : Nat → List Char → List String
  | 0, _ => []
  | fuel + 1, cs =>
    if cs.isEmpty then []
    else String.ofList (cs.take width) :: wrapped width fuel (cs.drop width)

def base64 : Utility := withOptions "base64" "di" "w" [("decode", 'd')] 1 fun g => do
  let (parts, status) ← contents "base64" (g.operands.take 1)
  let cs := (Text.join "" parts).toList
  if status != 0 then return status
  else if g.has 'd' then
    match decode64? (cs.filter (· != '\n')) with
    | some bytes =>
      say (String.ofList bytes)
      return 0
    | none =>
      complain "base64: invalid input"
      return 1
  else
    let digits := encode64 cs
    match ((g.value? 'w').map fun n => digitsValue n.toList).getD 76 with
    | 0 => say (String.ofList digits)
    | width => say (ofLines (wrapped width (digits.length + 1) digits))
    return 0

/-! ## Comparison -/

/-- The place of the first difference, and how many lines end before it. -/
def firstDifference : Nat → Nat → List Char → List Char → Option (Nat × Nat × Bool)
  | _, _, [], [] => none
  | n, lines, a :: as, b :: bs =>
    if a = b then firstDifference (n + 1) (if a = '\n' then lines + 1 else lines) as bs
    else some (n + 1, lines + 1, false)
  | n, lines, _, _ => some (n, lines, true)

def cmp : Utility := withOptions "cmp" "sbl" "n" [("silent", 's'), ("quiet", 's')] 2 fun g => do
  match g.operands with
  | [a, b] =>
    match ← content "cmp" a, ← content "cmp" b with
    | some x, some y =>
      match firstDifference 0 0 x.toList y.toList with
      | none => return 0
      | some (n, line, false) =>
        if !g.has 's' then
          say (a ++ " " ++ b ++ " differ: char " ++ toString n ++ ", line " ++ toString line ++
            "\n")
        return 1
      | some (n, line, true) =>
        let shorter := if x.toList.length < y.toList.length then a else b
        if !g.has 's' then
          complain ("cmp: EOF on " ++ shorter ++ (if n = 0 then " which is empty" else
            " after byte " ++ toString n ++ ", in line " ++ toString (line + 1)))
        return 1
    | _, _ => return 2
  | operands =>
    let called := ((← get).called.map (·.2)).getD "cmp"
    misuse "cmp" ("missing operand after " ++ between (operands.getLast?.getD called)) 2

end ClassViewer.Shell
