import ClassViewer.Shell.Decimal

/-!
# Formatted output

The escapes of `echo` and the format texts of `printf`. Texts are bytes, one character for each: an
octal escape writes the byte of that number.
-/

namespace ClassViewer.Shell

/-! ## Escapes -/

/-- The character of a one-letter escape. -/
def escapeChar : Char → Option Char
  | 'a' => some (Char.ofNat 7)
  | 'b' => some (Char.ofNat 8)
  | 't' => some '\t'
  | 'n' => some '\n'
  | 'v' => some (Char.ofNat 11)
  | 'f' => some (Char.ofNat 12)
  | 'r' => some '\r'
  | '\\' => some '\\'
  | _ => none

/-- Reads the escape behind a backslash: the character it stands for and the characters behind it. A
backslash before anything else stands for itself. -/
def readEscape (cs : List Char) : Char × List Char :=
  match cs with
  | [] => ('\\', [])
  | c :: rest =>
    if Number.isOctal c then
      let ds := (cs.take 3).takeWhile Number.isOctal
      (Char.ofNat (Number.value 8 ds % 256), cs.drop ds.length)
    else match escapeChar c with
      | some d => (d, rest)
      | none => if c = 'e' then (Char.ofNat 27, rest) else ('\\', cs)

/-- What `echo` makes of a text, and whether an escape ends all output; `fuel` bounds the
characters. -/
def echoText : Nat → List Char → List Char × Bool
  | 0, _ => ([], false)
  | _ + 1, [] => ([], false)
  | _ + 1, '\\' :: 'c' :: _ => ([], true)
  | fuel + 1, '\\' :: cs =>
    let (c, rest) := match cs with
      | '0' :: d :: more => if Number.isOctal d then readEscape (d :: more) else readEscape cs
      | cs => readEscape cs
    let (text, ended) := echoText fuel rest
    (c :: text, ended)
  | fuel + 1, c :: cs =>
    let (text, ended) := echoText fuel cs
    (c :: text, ended)

/-- What `echo` writes for its arguments. -/
def echo (args : List String) : String :=
  let (newline, args) := match args with
    | "-n" :: rest => (false, rest)
    | args => (true, args)
  let s := (Text.join " " args).toList
  let (text, ended) := echoText (s.length + 1) s
  String.ofList (if newline && !ended then text ++ ['\n'] else text)

/-! ## Formats -/

/-- One conversion of a format. -/
structure Conversion where
  leftAligned : Bool
  zeros : Bool
  plus : Bool
  space : Bool
  alternate : Bool
  width : Nat
  precision : Option Nat
  kind : Char

/-- A text brought to a width. -/
def Conversion.padded (c : Conversion) (s : String) : String :=
  let fill := String.ofList (List.replicate (c.width - s.toList.length) ' ')
  if c.leftAligned then s ++ fill else fill ++ s

/-- The sign of a number. -/
def Conversion.sign (c : Conversion) (negative : Bool) : String :=
  if negative then "-" else if c.plus then "+" else if c.space then " " else ""

/-- Digits behind their beginning, brought to a width by blanks or by zeros. -/
def Conversion.filled (c : Conversion) (zeros : Bool) (start digits : String) : String :=
  if zeros && !c.leftAligned then
    let missing := c.width - start.toList.length - digits.toList.length
    start ++ String.ofList (List.replicate missing '0') ++ digits
  else c.padded (start ++ digits)

/-- The digits of a whole number. -/
def Conversion.whole (c : Conversion) (start : String) (base n : Nat) : String :=
  let digits := if c.precision = some 0 && n = 0 then [] else Nat.toDigits base n
  let zeros := List.replicate ((c.precision.getD 0) - digits.length) '0'
  let digits := zeros ++ digits
  let needsZero := c.alternate && base = 8 && digits.head? != some '0'
  let digits := if needsZero then '0' :: digits else digits
  let start := if c.alternate && base = 16 && n != 0 then start ++ "0x" else start
  let upper (s : List Char) : List Char := if c.kind = 'X' then s.map Char.toUpper else s
  c.filled (c.zeros && c.precision.isNone) (String.ofList (upper start.toList))
    (String.ofList (upper digits))

/-- The text of a number with a point. -/
def Conversion.fractional (c : Conversion) (value : Decimal.Value) : String :=
  let named (negative : Bool) (name : String) : String :=
    c.padded (c.sign negative ++ if c.kind.isUpper then name.map Char.toUpper else name)
  match value with
  | .infinite negative => named negative "inf"
  | .undefined negative => named negative "nan"
  | .finite f =>
  let places := c.precision.getD 6
  let digits := match c.kind.toLower with
    | 'e' => Decimal.scientific places c.alternate f
    | 'g' => Decimal.general places c.alternate f
    | 'a' => Decimal.binary c.precision c.alternate f
    | _ => Decimal.fixed places c.alternate f
  let start := c.sign f.negative ++ if c.kind.toLower = 'a' then "0x" else ""
  let upper (s : String) : String := if c.kind.isUpper then s.map Char.toUpper else s
  c.filled c.zeros (upper start) (upper digits)

/-! ## Arguments -/

/-- Why a text is not the number it should be. -/
inductive NumberFault where
  | notNumeric
  | notWhole
  | outOfRange
  deriving DecidableEq, Repr

/-- What is said of such a text. -/
def NumberFault.message (text : String) : NumberFault → String
  | notNumeric => text ++ ": expected numeric value"
  | notWhole => text ++ ": not completely converted"
  | outOfRange => text ++ ": Numerical result out of range"

/-- The fault of an argument of which a rest was left. -/
def restFault (arg : List Char) (found : Option (List Char)) : Option NumberFault :=
  match found with
  | some [] => none
  | some _ => some .notWhole
  | none => if arg.isEmpty then none else some .notNumeric

/-- The number of the character behind a quotation mark or an apostrophe. -/
def quotedCharacter? : List Char → Option Nat
  | c :: rest =>
    if c = '"' || c = Char.ofNat 39 then some ((rest.head?.map Char.toNat).getD 0) else none
  | [] => none

/-- The number of an argument, and what is wrong with it. -/
def integerArgument (signed : Bool) (arg : String) : Int × Option NumberFault :=
  let cs := arg.toList
  match quotedCharacter? cs with
  | some n => (n, none)
  | none =>
    let found := Number.intAt? .marked cs
    let n := (found.map (·.1)).getD 0
    let fault := restFault cs (found.map (·.2))
    let top : Int := 18446744073709551615
    if signed then
      if Number.fits n then (n, fault) else (Number.clamp n, some (fault.getD .outOfRange))
    else if top < n.natAbs then (top, some (fault.getD .outOfRange))
    else (n % (top + 1), fault)

/-- The number with a point that an argument is, and what is wrong with it. -/
def fractionArgument (arg : String) : Decimal.Value × Option NumberFault :=
  let cs := arg.toList
  match quotedCharacter? cs with
  | some n => (.finite ⟨false, n, 1⟩, none)
  | none =>
    match Decimal.valueAt? cs with
    | none => (.finite ⟨false, 0, 1⟩, restFault cs none)
    | some r =>
      let fault := restFault cs (some r.rest)
      (r.value, if r.outOfRange then some (fault.getD .outOfRange) else fault)

/-! ## Passes over a format -/

/-- How writing a format ends before its end. -/
inductive Stop where
  /-- An escape ends all output. -/
  | finished
  /-- The format is malformed. -/
  | refused (message : String)
  deriving DecidableEq, Repr

/-- A pass over a format: what was written, last piece first, the arguments that are left, and what
is wrong with those it took. -/
structure Pass where
  written : List String
  arguments : List String
  taken : Bool
  faults : List String
  stop : Option Stop

/-- Takes an argument; an absent one is empty. -/
def Pass.take (p : Pass) : String × Pass :=
  match p.arguments with
  | a :: rest => (a, { p with arguments := rest, taken := true })
  | [] => ("", p)

/-- Writes a text. -/
def Pass.write (p : Pass) (s : String) : Pass := { p with written := s :: p.written }

/-- Takes note of a fault of an argument. -/
def Pass.note (p : Pass) (arg : String) (fault : Option NumberFault) : Pass :=
  { p with faults := p.faults ++ (fault.map (NumberFault.message arg)).toList }

/-- Reads digits, or takes an argument for a star. -/
def Pass.count (p : Pass) (cs : List Char) : Option Int × Pass × List Char :=
  match cs with
  | '*' :: cs =>
    let (arg, p) := p.take
    let (n, fault) := integerArgument true arg
    (some (Number.narrow n), p.note arg fault, cs)
  | cs =>
    match cs.takeWhile Char.isDigit with
    | [] => (none, p, cs)
    | ds => (some (digitsValue ds), p, cs.dropWhile Char.isDigit)

/-- Writes an argument as a conversion says; the format up to the conversion is for the message. -/
def Pass.convert (p : Pass) (c : Conversion) (source : List Char) : Pass :=
  let cut (s : List Char) : String := String.ofList (match c.precision with
    | some n => s.take n
    | none => s)
  match c.kind with
  | 's' =>
    let (arg, p) := p.take
    p.write (c.padded (cut arg.toList))
  | 'b' =>
    let (arg, p) := p.take
    let (text, ended) := echoText (arg.toList.length + 1) arg.toList
    let p := p.write (c.padded (cut text))
    if ended then { p with stop := some .finished } else p
  | 'c' =>
    let (arg, p) := p.take
    p.write (c.padded (String.singleton (arg.toList.headD (Char.ofNat 0))))
  | kind =>
    if kind = 'd' || kind = 'i' then
      let (arg, p) := p.take
      let (n, fault) := integerArgument true arg
      (p.note arg fault).write (c.whole (c.sign (n < 0)) 10 n.natAbs)
    else if "ouxX".toList.contains kind then
      let (arg, p) := p.take
      let (n, fault) := integerArgument false arg
      let base := if kind = 'o' then 8 else if kind = 'u' then 10 else 16
      (p.note arg fault).write (c.whole "" base n.natAbs)
    else if "aAfFeEgG".toList.contains kind then
      let (arg, p) := p.take
      let (f, fault) := fractionArgument arg
      (p.note arg fault).write (c.fractional f)
    else
      { p with stop := some (.refused (String.ofList source ++ ": invalid directive")) }

/-- Writes a conversion behind its percent sign; what is behind it. -/
def Pass.conversion (p : Pass) (cs : List Char) : Pass × List Char :=
  let isFlag (c : Char) : Bool := "#-+ 0".toList.contains c
  let flags := cs.takeWhile isFlag
  let (width, p, rest) := p.count (cs.dropWhile isFlag)
  let (precision, p, rest) := match rest with
    | '.' :: rest =>
      let (n, p, rest) := p.count rest
      (if n.any (· < 0) then none else some ((n.getD 0).toNat), p, rest)
    | rest => (none, p, rest)
  match rest with
  | [] => ({ p with stop := some (.refused "missing format character") }, [])
  | kind :: rest =>
    let width := width.getD 0
    let c : Conversion :=
      { leftAligned := flags.contains '-' || width < 0, zeros := flags.contains '0'
        plus := flags.contains '+', space := flags.contains ' ', alternate := flags.contains '#'
        width := width.natAbs, precision := precision, kind := kind }
    (p.convert c ('%' :: cs.take (cs.length - rest.length)), rest)

/-- Writes a format once; `fuel` bounds its characters. -/
def Pass.once : Nat → Pass → List Char → Pass
  | 0, p, _ => p
  | _ + 1, p, [] => p
  | fuel + 1, p, c :: cs =>
    if p.stop.isSome then p
    else match c, cs with
      | '\\', cs =>
        let (c, rest) := readEscape cs
        Pass.once fuel (p.write (String.singleton c)) rest
      | '%', '%' :: cs => Pass.once fuel (p.write "%") cs
      | '%', cs =>
        let (p, rest) := p.conversion cs
        Pass.once fuel p rest
      | c, cs => Pass.once fuel (p.write (String.singleton c)) cs

/-- Writes a format again for as long as it takes arguments and some are left. -/
def Pass.all (format : List Char) : Nat → Pass → Pass
  | 0, p => p
  | fuel + 1, p =>
    let q := Pass.once (format.length + 1) { p with taken := false } format
    if q.taken && !q.arguments.isEmpty && q.stop.isNone then Pass.all format fuel q else q

/-- Writes arguments as a format says: the pass that was made. -/
def printf (format : String) (args : List String) : Pass :=
  Pass.all format.toList (args.length + 1) ⟨[], args, false, [], none⟩

/-- All that was written. -/
def Pass.text (p : Pass) : String := Text.join "" p.written.reverse

end ClassViewer.Shell
