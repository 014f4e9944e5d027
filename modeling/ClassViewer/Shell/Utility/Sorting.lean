import ClassViewer.Shell.Decimal
import ClassViewer.Shell.Expansion
import ClassViewer.Shell.Utility.Options

/-!
# Utilities that order lines
-/

namespace ClassViewer.Shell

open Session

/-! ## Keys -/

/-- How lines, or the keys of lines, are compared. -/
structure LineOrder where
  /-- The letters of the ways that are asked for. -/
  ways : List Char
  deriving DecidableEq, Repr

/-- Whether a way is asked for. -/
def LineOrder.has (o : LineOrder) (way : Char) : Bool := o.ways.contains way

/-- The letters of the ways lines can be compared in. -/
def orderLetters : List Char := "bdfghiMnRrV".toList

/-- A place in a line: a field and a character of it, both counted from one; the character zero is
the last one of the field. -/
structure Place where
  field : Nat
  char : Nat
  /-- Whether blanks before the characters do not count. -/
  trimmed : Bool
  deriving DecidableEq, Repr

/-- A key: the places it reaches from and to, and how it is compared. -/
structure Key where
  first : Place
  last : Option Place
  ways : LineOrder
  deriving DecidableEq, Repr

/-- Reads digits; what is wrong where there are none. -/
def readCount (words : String) (cs : List Char) : Except String (Nat × List Char) :=
  match cs.takeWhile Char.isDigit with
  | [] => .error (words ++ ": invalid count at start of " ++ cited (String.ofList cs))
  | ds => .ok (digitsValue ds, cs.drop ds.length)

/-- Reads a key such as `2`, `2,2`, `1.3,1.5` or `2,3nr`; what is wrong with it otherwise. -/
def Key.ofText (s : String) : Except String Key := do
  let wrong (words : String) : String := words ++ ": invalid field specification " ++ cited s
  let letters (cs : List Char) : List Char × List Char :=
    (cs.takeWhile orderLetters.contains, cs.dropWhile orderLetters.contains)
  let (field, cs) ← readCount "invalid number at field start" s.toList
  if field = 0 then throw (wrong "field number is zero")
  let (char, cs) ← match cs with
    | '.' :: cs => readCount "invalid number after '.'" cs
    | cs => pure (1, cs)
  if char = 0 then throw (wrong "character offset is zero")
  let (ways, cs) := letters cs
  let first : Place := ⟨field, char, ways.contains 'b'⟩
  match cs with
  | [] => return ⟨first, none, ⟨ways⟩⟩
  | ',' :: cs =>
    let (field, cs) ← readCount "invalid number after ','" cs
    if field = 0 then throw (wrong "field number is zero")
    let (char, cs) ← match cs with
      | '.' :: cs => readCount "invalid number after '.'" cs
      | cs => pure (0, cs)
    let (more, cs) := letters cs
    if cs.isEmpty then return ⟨first, some ⟨field, char, more.contains 'b'⟩, ⟨ways ++ more⟩⟩
    else throw (wrong "stray character in field spec")
  | _ => throw (wrong "stray character in field spec")

/-- A blank between fields. -/
def isFieldBlank (c : Char) : Bool := c == ' ' || c == '\t' || c == '\n'

/-- Passes over so many fields. With a mark between fields, the last mark is passed over only where
`behind` says so. -/
def passFields (mark : Option Char) (behind : Bool) : Nat → List Char → List Char
  | 0, cs => cs
  | n + 1, cs =>
    match mark with
    | some m =>
      let rest := cs.dropWhile (· != m)
      passFields mark behind n (if n = 0 && !behind then rest else rest.drop 1)
    | none =>
      passFields mark behind n ((cs.dropWhile isFieldBlank).dropWhile fun c => !isFieldBlank c)

/-- The part of a line that a key reaches over. -/
def Key.part (mark : Option Char) (k : Key) (line : List Char) : List Char :=
  let trim (b : Bool) (cs : List Char) : List Char := if b then cs.dropWhile isFieldBlank else cs
  let start := (trim k.first.trimmed (passFields mark true (k.first.field - 1) line)).drop
    (k.first.char - 1)
  match k.last with
  | none => start
  | some last =>
    let after := if last.char = 0 then passFields mark false last.field line
      else (trim last.trimmed (passFields mark true (last.field - 1) line)).drop last.char
    start.take (start.length - after.length)

/-! ## Order -/

/-- The number at the beginning of a text, in units of the eighteenth place behind the point. -/
def leadingNumber (cs : List Char) : Int :=
  let cs := cs.dropWhile Number.isBlank
  let (negative, cs) := match cs with
    | '-' :: cs => (true, cs)
    | cs => (false, cs)
  let whole := cs.takeWhile Char.isDigit
  let part := match cs.dropWhile Char.isDigit with
    | '.' :: rest => (rest.takeWhile Char.isDigit).take 18
    | _ => []
  let n : Int := digitsValue (whole ++ part ++ List.replicate (18 - part.length) '0')
  if negative then -n else n

/-- The rank of the letter that stands behind a number for a power of a thousand. -/
def sizeRank (cs : List Char) : Int :=
  let cs := cs.dropWhile Number.isBlank
  let isNumeral (c : Char) : Bool := c.isDigit || c == '.' || c == '-'
  let rank := match (cs.dropWhile isNumeral).head? with
    | some c => ("KMGTPEZYRQ".toList.idxOf? (if c = 'k' then 'K' else c)).map (· + 1)
    | none => none
  let n : Int := rank.getD 0
  if leadingNumber cs = 0 then 0 else if cs.head? = some '-' then -n else n

/-- The number of the month whose name begins a text, or zero. -/
def monthOf (cs : List Char) : Int :=
  let name := String.ofList (((cs.dropWhile Number.isBlank).take 3).map Char.toUpper)
  let months := ["JAN", "FEB", "MAR", "APR", "MAY", "JUN", "JUL", "AUG", "SEP", "OCT", "NOV", "DEC"]
  ((months.idxOf? name).map fun i => (i : Int) + 1).getD 0

/-- The order of numbers that may be infinite or undefined: what is no number comes first. -/
def compareValues (a b : List Char) : Int :=
  let rank (cs : List Char) : Int × Int × Nat := match Decimal.valueAt? cs with
    | none => (0, 0, 1)
    | some ⟨.undefined _, _, _⟩ => (1, 0, 1)
    | some ⟨.infinite negative, _, _⟩ => (if negative then 2 else 4, 0, 1)
    | some ⟨.finite f, _, _⟩ =>
      (3, if f.negative then -(f.numerator : Int) else f.numerator, f.denominator)
  let (x, n, d) := rank a
  let (y, m, e) := rank b
  if x != y then x - y else n * e - m * d

/-- How two texts are ordered. -/
def LineOrder.compare (o : LineOrder) (a b : List Char) : Int :=
  let prepare (cs : List Char) : List Char :=
    let cs := if o.has 'b' then cs.dropWhile isFieldBlank else cs
    let cs := if o.has 'd' then cs.filter fun c => c.isAlphanum || isFieldBlank c else cs
    let cs := if o.has 'i' then cs.filter fun c => !isUnprintable c else cs
    if o.has 'f' then cs.map Char.toUpper else cs
  let sign : Int :=
    if o.has 'n' then leadingNumber a - leadingNumber b
    else if o.has 'g' then compareValues a b
    else if o.has 'h' then
      if sizeRank a != sizeRank b then sizeRank a - sizeRank b
      else leadingNumber a - leadingNumber b
    else if o.has 'M' then monthOf a - monthOf b
    else if prepare a = prepare b then 0
    else if notAfter (prepare a) (prepare b) then -1 else 1
  if o.has 'r' then -sign else sign

/-- How two lines are ordered: by their keys, then by all of their bytes unless told otherwise. -/
def compareLines (mark : Option Char) (keys : List Key) (o : LineOrder) (byAll : Bool)
    (a b : String) : Int :=
  let byKey (k : Key) : Int :=
    if k.ways.ways.isEmpty then
      let trimmed (p : Place) : Place := { p with trimmed := o.has 'b' }
      let k : Key := ⟨trimmed k.first, k.last.map trimmed, k.ways⟩
      o.compare (k.part mark a.toList) (k.part mark b.toList)
    else
      let ways : LineOrder := ⟨k.ways.ways.filter (· != 'b')⟩
      ways.compare (k.part mark a.toList) (k.part mark b.toList)
  let signs := if keys.isEmpty then [o.compare a.toList b.toList] else keys.map byKey
  match signs.find? (· != 0) with
  | some n => n
  | none => if byAll then (LineOrder.mk (o.ways.filter (· == 'r'))).compare a.toList b.toList else 0

/-- The first line that does not come in order, and its number. -/
def firstDisorder (wrong : String → String → Bool) : Nat → List String → Option (Nat × String)
  | n, a :: b :: rest =>
    if wrong a b then some (n + 1, b) else firstDisorder wrong (n + 1) (b :: rest)
  | _, _ => none

/-- The neighbours that count as equal, once. -/
def dropRepeats (same : String → String → Bool) : List String → List String
  | [] => []
  | a :: rest =>
    match dropRepeats same rest with
    | b :: more => if same a b then a :: more else a :: b :: more
    | [] => [a]

/-- The character that parts fields; what is wrong with the text that should name it. -/
def fieldMark (text : String) : Except String Char :=
  match text.toList with
  | [] => .error "empty tab"
  | [c] => .ok c
  | ['\\', '0'] => .ok (Char.ofNat 0)
  | _ => .error ("multi-character tab " ++ cited text)

/-- Sorts lines, or says whether they are sorted. -/
def sortLines (g : Given) (mark : Option Char) (keys : List Key) : SessionM Nat := do
  let o : LineOrder := ⟨orderLetters.filter g.has⟩
  let names := if g.operands.isEmpty then ["-"] else g.operands
  let parts ← names.mapM fun name => do
    let s ← get
    let isDirectory := name != "-" && s.disk.isDirectory s.here (pathOf name)
    match ← contentOf name with
    | .ok text => return some text
    | .error e =>
      complain ("sort: " ++ (if isDirectory then "read failed: " else "cannot read: ") ++
        shownName name ++ ": " ++ reason e)
      return none
  let order := compareLines mark keys o (!g.has 'u' && !g.has 's')
  let lines := (parts.filterMap id).flatMap linesOf
  if parts.contains none then return 2
  else if g.has 'c' || g.has 'C' then
    let least : Int := if g.has 'u' then 0 else 1
    let wrong (a b : String) : Bool := decide (least ≤ order a b)
    match names, firstDisorder wrong 1 lines with
    | _ :: extra :: _, _ =>
      complain ("sort: extra operand " ++ cited extra ++ " not allowed with -" ++
        (if g.has 'c' then "c" else "C"))
      return 2
    | _, none => return 0
    | names, some (n, line) =>
      if !g.has 'C' then
        complain ("sort: " ++ names.headD "-" ++ ":" ++ toString n ++ ": disorder: " ++ line)
      return 1
  else
    let lines := lines.mergeSort fun a b => decide (order a b ≤ 0)
    let lines := if g.has 'u' then dropRepeats (fun a b => order a b == 0) lines else lines
    match g.value? 'o' with
    | some target =>
      let status ← report ("sort: open failed: " ++ shownName target) (← change fun d here =>
        d.write here (pathOf target) (Text.Octets.toBytes (ofLines lines)))
      return if status = 0 then 0 else 2
    | none =>
      say (ofLines lines)
      return 0

def sort : Utility := withOptions "sort" "bcCdfghiMmnRrsuVz" "ktoST"
    [("reverse", 'r'), ("unique", 'u'), ("numeric-sort", 'n'), ("key", 'k'),
      ("field-separator", 't'), ("output", 'o'), ("stable", 's'), ("ignore-case", 'f'),
      ("ignore-leading-blanks", 'b'), ("dictionary-order", 'd'), ("general-numeric-sort", 'g'),
      ("human-numeric-sort", 'h'), ("month-sort", 'M'), ("check", 'c')] 2 fun g => do
  let wrong (message : String) : SessionM Nat := do
    complain ("sort: " ++ message)
    return 2
  match (g.values 'k').mapM Key.ofText, (g.value? 't').map fieldMark with
  | .error message, _ => wrong message
  | _, some (.error message) => wrong message
  | .ok keys, some (.ok mark) => sortLines g (some mark) keys
  | .ok keys, none => sortLines g none keys

/-! ## Neighbours -/

/-- The runs of equal neighbours: the first of each and their number. -/
def runsOf (same : String → String → Bool) : List String → List (String × Nat)
  | [] => []
  | a :: rest =>
    match runsOf same rest with
    | (b, n) :: more => if same a b then (a, n + 1) :: more else (a, 1) :: (b, n) :: more
    | [] => [(a, 1)]

/-- The part of a line that counts: behind so many fields and bytes, and at most so many bytes. -/
def countedPart (g : Given) (line : String) : List Char :=
  let number (letter : Char) : Option Nat := (g.value? letter).bind fun v => String.toNat? v
  let behind := (passFields none true ((number 'f').getD 0) line.toList).drop ((number 's').getD 0)
  match number 'w' with
  | some n => behind.take n
  | none => behind

def uniq : Utility := withOptions "uniq" "cdDuiz" "fsw"
    [("count", 'c'), ("repeated", 'd'), ("unique", 'u'), ("ignore-case", 'i'), ("skip-fields", 'f'),
      ("skip-chars", 's'), ("check-chars", 'w')] 1 fun g => do
  let (parts, status) ← contents "uniq" (g.operands.take 1)
  let fold (s : String) : List Char :=
    if g.has 'i' then (countedPart g s).map Char.toUpper else countedPart g s
  let lines := parts.flatMap linesOf
  let same (a b : String) : Bool := fold a == fold b
  let runs := if g.has 'D' then
      let flags := lines.zip ((none :: lines.map some).zip ((lines.drop 1).map some ++ [none]))
      (flags.filter fun l => l.2.1.any (same l.1) || l.2.2.any (same l.1)).map fun l => (l.1, 2)
    else runsOf same lines
  let kept := runs.filter fun r =>
    (!g.has 'd' || 1 < r.2) && (!g.has 'u' || r.2 == 1)
  let shown (r : String × Nat) : String :=
    if g.has 'c' then
      let digits := toString r.2
      String.ofList (List.replicate (7 - digits.length) ' ') ++ digits ++ " " ++ r.1
    else r.1
  let text := ofLines (kept.map shown)
  match g.operands with
  | [_, target] =>
    report ("uniq: " ++ shownName target) (← change fun d here =>
      d.write here (pathOf target) (Text.Octets.toBytes text))
  | _ =>
    say text
    return status

end ClassViewer.Shell
