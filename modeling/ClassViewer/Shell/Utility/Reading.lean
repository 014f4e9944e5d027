import ClassViewer.Digest.Sha256
import ClassViewer.Shell.Printf
import ClassViewer.Shell.Utility.Options
import ClassViewer.Text.Hex

/-!
# Utilities that show files

The programs that write the bytes of files, parts of them, or counts and digests of them.
-/

namespace ClassViewer.Shell

open Session

/-! ## Whole files -/

/-- The lines of a text with the ends they have. -/
def piecesOf (text : String) : List String :=
  let ps := Text.split '\n' text
  (ps.dropLast.map (· ++ "\n")) ++ (ps.getLast?.toList.filter (· != ""))

/-- The digits of a number after as many blanks as fill the width. -/
def column (width n : Nat) : String :=
  let digits := toString n
  String.ofList (List.replicate (width - digits.length) ' ') ++ digits

/-- The lines with their numbers, from one number on. -/
def numbered (skipEmpty : Bool) : Nat → List String → List String
  | _, [] => []
  | n, line :: rest =>
    if skipEmpty && line = "\n" then line :: numbered skipEmpty n rest
    else (column 6 n ++ "\t" ++ line) :: numbered skipEmpty (n + 1) rest

/-- The lines with one empty line for several in a row. -/
def withoutEmptyRuns : List String → List String
  | a :: b :: rest =>
    if a = "\n" && b = "\n" then withoutEmptyRuns (b :: rest) else a :: withoutEmptyRuns (b :: rest)
  | lines => lines

/-- A byte in letters that can be printed. -/
def visibleByte (c : Char) : String :=
  let low (n : Nat) : String :=
    if n < 32 then "^" ++ String.singleton (Char.ofNat (n + 64))
    else if n = 127 then "^?" else String.singleton (Char.ofNat n)
  if c = '\t' || c = '\n' then String.singleton c
  else if c.toNat < 128 then low c.toNat else "M-" ++ low (c.toNat - 128)

/-- Shows a text, with numbered lines, marked ends and bytes made visible if asked. -/
def catText (g : Given) (text : String) : String :=
  let pieces := piecesOf text
  let pieces := if g.has 's' then withoutEmptyRuns pieces else pieces
  let ends := g.has 'E' || g.has 'A' || g.has 'e'
  let tabs := g.has 'T' || g.has 'A' || g.has 't'
  let visible := g.has 'v' || g.has 'A' || g.has 'e' || g.has 't'
  let shown (c : Char) : String :=
    if tabs && c = '\t' then "^I" else if ends && c = '\n' then "$\n"
    else if visible then visibleByte c else String.singleton c
  let display (p : String) : String := Text.join "" (p.toList.map shown)
  if g.has 'b' || g.has 'n' then
    let marked := (numbered (g.has 'b') 1 pieces).zip pieces
    Text.join "" (marked.map fun p => Text.dropTail p.2 p.1 ++ display p.2)
  else Text.join "" (pieces.map display)

/-- Whether what is read from a file at a position will be read again once it is written. -/
def feedsItself (s : Session) (r : Route) (position : Nat) : Bool :=
  match s.channel? 1, s.disk.item? r with
  | some (.file target place atEnd), some (.file bytes _) =>
    (s.disk.routesOf r).contains target && position < (if atEnd then bytes.size else place)
  | _, _ => false

/-- The bytes of a file that is not the one written to. -/
def catContent (name : String) : SessionM (Option String) := do
  let s ← get
  let isOutput := if name = "-" then
      match s.channel? 0 with
      | some (.file r position _) => feedsItself s r position
      | _ => false
    else match s.disk.lookup s.here true (pathOf name) with
      | .ok (r, _) => feedsItself s r 0
      | .error _ => false
  if isOutput then
    complain ("cat: " ++ shownName name ++ ": input file is output file")
    return none
  else content "cat" name

def cat : Utility := withOptions "cat" "AbeEnstTuv" ""
    [("show-all", 'A'), ("number-nonblank", 'b'), ("show-ends", 'E'), ("number", 'n'),
      ("squeeze-blank", 's'), ("show-tabs", 'T'), ("show-nonprinting", 'v')] 1 fun g => do
  if g.options.any (·.1 != 'u') then
    let parts ← (if g.operands.isEmpty then ["-"] else g.operands).mapM catContent
    say (catText g (Text.join "" (parts.filterMap id)))
    return if parts.contains none then 1 else 0
  else
    forAll (if g.operands.isEmpty then ["-"] else g.operands) fun name => do
      match ← catContent name with
      | some text =>
        say text
        return 0
      | none => return 1

/-- Numbers lines; those that are not numbered begin with blanks instead. -/
def nl : Utility := withAllOptions "nl" "p" "bdfhilnsvw"
    [("body-numbering", 'b'), ("line-increment", 'i'), ("number-format", 'n'),
      ("number-separator", 's'), ("starting-line-number", 'v'), ("number-width", 'w')] 1 fun g => do
  let number (letter : Char) (standard : Nat) : Nat :=
    ((g.value? letter).bind fun v => String.toNat? v).getD standard
  let width := number 'w' 6
  let between := (g.value? 's').getD "\t"
  let all := g.value? 'b' = some "a"
  let none := g.value? 'b' = some "n"
  let shown (n : Nat) : String :=
    let digits := toString n
    let fill := width - digits.length
    match g.value? 'n' with
    | some "ln" => digits ++ String.ofList (List.replicate fill ' ')
    | some "rz" => String.ofList (List.replicate fill '0') ++ digits
    | _ => column width n
  let blank := String.ofList (List.replicate (width + between.toList.length) ' ')
  let (parts, status) ← contents "nl" g.operands
  let lines := (parts.flatMap linesOf).foldl (fun (acc : Nat × List String) line =>
    if none || line = "" && !all then (acc.1, (blank ++ line) :: acc.2)
    else (acc.1 + number 'i' 1, (shown acc.1 ++ between ++ line) :: acc.2)) (number 'v' 1, [])
  say (ofLines lines.2.reverse)
  return status

def tac : Utility := withOptions "tac" "" "" [] 1 fun g => do
  let (parts, status) ← contents "tac" g.operands
  parts.forM fun text => say (Text.join "" (piecesOf text).reverse)
  return status

def rev : Utility := withOptions "rev" "" "" [] 1 fun g => do
  let (parts, status) ← contents "rev" g.operands
  parts.forM fun text =>
    let lines := (Text.split '\n' text).map fun l => String.ofList l.toList.reverse
    say (Text.join "\n" lines)
  return status

def tee : Utility := withOptions "tee" "aip" "" [("append", 'a')] 1 fun g => do
  let bytes ← takeInput
  let _ ← emit 1 bytes
  forAll g.operands fun name => do
    let s ← get
    match s.disk.lookup s.here true (pathOf name) with
    | .ok (_, .device (.stream n)) =>
      let _ ← emit n bytes
      return 0
    | _ =>
      let before := match s.disk.read s.here (pathOf name) with
        | .ok old => if g.has 'a' then old else ByteArray.empty
        | .error _ => ByteArray.empty
      report ("tee: " ++ shownName name)
        (← change fun d here => d.write here (pathOf name) (before ++ bytes))

/-! ## Ends of files -/

/-- A part of a text, counted in lines or in bytes. -/
structure Portion where
  bytes : Bool
  /-- Whether the count has a sign: a place for the end of a text, what is left out for its
  beginning. -/
  signed : Bool
  count : Nat

/-- The pieces a portion counts. -/
def Portion.pieces (e : Portion) (text : String) : List String :=
  if e.bytes then text.toList.map String.singleton else piecesOf text

/-- An option such as `-3`, put into its longer form. -/
def expandCount : List String → List String
  | a :: rest =>
    match Text.dropHead? "-" a with
    | some digits =>
      if digits != "" && digits.toList.all Char.isDigit then "-n" :: digits :: rest else a :: rest
    | none => a :: rest
  | [] => []

/-- The factor a letter behind a number stands for. -/
def unitOf? (cs : List Char) : Option Nat :=
  match String.ofList cs with
  | "" => some 1
  | "b" => some 512
  | "k" => some 1024
  | "K" => some 1024
  | "KiB" => some 1024
  | "kB" => some 1000
  | "KB" => some 1000
  | "M" => some 1048576
  | "m" => some 1048576
  | "MB" => some 1000000
  | "G" => some 1073741824
  | _ => none

/-- Reads the portion options ask for. -/
def readPortion (tool : String) (sign : Char) (g : Given) : Except String Portion :=
  let (bytes, text) := match (g.options.filter fun o => o.1 == 'n' || o.1 == 'c').getLast? with
    | some ('c', n) => (true, n)
    | some (_, n) => (false, n)
    | none => (false, "10")
  let (signed, digits) := match text.toList with
    | c :: cs => if c = sign then (true, cs) else if c = '-' || c = '+' then (false, cs)
      else (false, c :: cs)
    | [] => (false, [])
  let count := digits.takeWhile Char.isDigit
  match count, unitOf? (digits.drop count.length) with
  | _ :: _, some unit => .ok ⟨bytes, signed, unit * digitsValue count⟩
  | _, _ =>
    let shown := (Text.dropHead? "-" text).getD text
    .error (tool ++ ": invalid number of " ++ (if bytes then "bytes" else "lines") ++ ": " ++
      cited shown)

/-- Shows a part of every file; the names stand above the parts if there are several, and `needed`
says how much is read of what has no end. -/
def showPortions (tool : String) (g : Given) (needed : Nat) (part : String → String) :
    SessionM Nat := do
  let names := if g.operands.isEmpty then ["-"] else g.operands
  let titled := (1 < names.length || g.has 'v') && !g.has 'q'
  let statuses ← names.zipIdx.mapM fun (name, _) => do
    let s ← get
    let isDirectory := name != "-" && s.disk.isDirectory s.here (pathOf name)
    let title := (if name = "-" then "standard input" else name)
    match ← contentUpTo needed name with
    | .ok text => return (some (title, part text), 0)
    | .error e =>
      if isDirectory then
        complain (tool ++ ": error reading " ++ quoted name ++ ": " ++ reason e)
        return (some (title, ""), 1)
      else
        complain (tool ++ ": cannot open " ++ quoted name ++ " for reading: " ++ reason e)
        return (none, 1)
  (statuses.filterMap (·.1)).zipIdx.forM fun ((title, text), i) => do
    if titled then say ((if i = 0 then "" else "\n") ++ "==> " ++ title ++ " <==\n")
    say text
  return (statuses.map (·.2)).foldl max 0

/-- The beginning of a text. -/
def headOf (e : Portion) (text : String) : String :=
  let pieces := e.pieces text
  Text.join "" (pieces.take (if e.signed then pieces.length - e.count else e.count))

/-- Shows the beginnings of files. Of an input that is a file, only what is shown is passed over. -/
def head : Utility := fun args =>
  withOptions "head" "qvz" "nc" [("lines", 'n'), ("bytes", 'c')] 1 (fun g => do
    match readPortion "head" '-' g with
    | .error message =>
      complain message
      return 1
    | .ok e =>
      match g.operands, (← get).channel? 0 with
      | [], some (.file _ _ _) =>
        let text := headOf e (Text.Octets.ofBytes (← remaining 0))
        advance 0 text.length
        say text
        return 0
      | [], some (.device d) =>
        say (headOf e (Text.Octets.ofBytes (deviceBytes d e.count)))
        return 0
      | _, _ => showPortions "head" g e.count (headOf e)) (expandCount args)

/-- The end of a text. -/
def tailOf (e : Portion) (text : String) : String :=
  let pieces := e.pieces text
  let passed := if e.signed then e.count - 1 else pieces.length - e.count
  Text.join "" (pieces.drop passed)

/-- An option such as `-3`, `+3` or `-3c` before at most one name, put into its longer form. -/
def expandTailCount (args : List String) : List String :=
  match args with
  | a :: rest =>
    match a.toList with
    | sign :: cs =>
      let count := String.ofList (cs.takeWhile Char.isDigit)
      let place := if sign = '+' then "+" ++ count else count
      match cs.dropWhile Char.isDigit with
      | [] =>
        if (sign = '-' || sign = '+') && count != "" && rest.length ≤ 1 then "-n" :: place :: rest
        else args
      | ['c'] =>
        if (sign = '-' || sign = '+') && count != "" && rest.length ≤ 1 then "-c" :: place :: rest
        else args
      | _ => args
    | [] => args
  | [] => []

def tail : Utility := fun args => do
  match args with
  | a :: _ :: _ :: _ =>
    match a.toList with
    | '-' :: d :: _ =>
      if d.isDigit then
        complain ("tail: option used in invalid context -- " ++ String.singleton d)
        return 1
    | _ => pure ()
  | _ => pure ()
  withOptions "tail" "qvz" "nc" [("lines", 'n'), ("bytes", 'c')] 1 (fun g => do
    match readPortion "tail" '+' g with
    | .error message =>
      complain message
      return 1
    | .ok e => showPortions "tail" g endless (tailOf e)) (expandTailCount args)

/-! ## Counts -/

/-- The number of words. -/
def countWords (text : String) : Nat :=
  (text.toList.foldl (fun (acc : Nat × Bool) c =>
    if Number.isBlank c then (acc.1, false)
    else (if acc.2 then acc.1 else acc.1 + 1, true)) (0, false)).1

/-- The counts a line of `wc` shows. -/
def shownCounts (g : Given) (text : String) : List Nat :=
  let bytes := text.toList.length
  let longest := ((linesOf text).map fun l => l.toList.length).foldl max 0
  let standard := g.options.isEmpty
  let counts := [('l', text.toList.count '\n', standard), ('w', countWords text, standard),
    ('m', bytes, false), ('c', bytes, standard), ('L', longest, false)]
  (counts.filter fun c => c.2.2 || g.has c.1).map (·.2.1)

/-- Counts. The columns are as wide as the number of all bytes, or seven wide where the size of the
input is not known before it is read; a single number stands alone. -/
def wc : Utility := withOptions "wc" "lwcmL" "" [("lines", 'l'), ("bytes", 'c'), ("words", 'w')] 1
    fun g => do
  let names := if g.operands.isEmpty then ["-"] else g.operands
  let s ← get
  let isDirectory (name : String) : Bool := s.disk.isDirectory s.here (pathOf name)
  let isFile := match s.channel? 0 with
    | some (.file _ _ _) => true
    | _ => false
  let known (name : String) : Bool := if name = "-" then isFile else !isDirectory name
  let parts ← names.mapM (content "wc")
  let total := Text.join "" (parts.filterMap id)
  let single := (shownCounts g total).length = 1 && names.length = 1
  let width := if single then 1
    else if !names.all known then 7
    else (toString total.toList.length).length
  let row (counts : List Nat) (label : String) : SessionM Unit :=
    let numbers := Text.join " " (counts.map (column width))
    say (numbers ++ (if label = "" then "" else " " ++ label) ++ "\n")
  (names.zip parts).forM fun (name, part) =>
    match part with
    | some text => row (shownCounts g text) (if g.operands.isEmpty then "" else name)
    | none => if isDirectory name then row (shownCounts g "") name else pure ()
  if 1 < names.length then
    let sums := (parts.filterMap id).map (shownCounts g)
    let zero := (shownCounts g total).map fun _ => 0
    row (sums.foldl (List.zipWith (· + ·)) zero) "total"
  return if parts.contains none then 1 else 0

def sha256sum : Utility := withOptions "sha256sum" "bt" "" [] 1 fun g => do
  forAll (if g.operands.isEmpty then ["-"] else g.operands) fun name => do
    match ← content "sha256sum" name with
    | some text =>
      let digest := Digest.Sha256.digest (Text.Octets.toBytes text)
      say (Text.toHex digest ++ (if g.has 'b' then " *" else "  ") ++ name ++ "\n")
      return 0
    | none => return 1

/-! ## Columns -/

/-- Reads a list of places such as `1,3-5` as ranges; what is wrong with it otherwise. -/
def readPlaces (fields : Bool) (s : String) : Except String (List (Nat × Option Nat)) :=
  (Text.split ',' s).flatMap (Text.split ' ') |>.mapM fun item =>
    let isNumber (t : String) : Bool := t != "" && t.toList.all Char.isDigit
    let bounded (a b : Nat) : Except String (Nat × Option Nat) :=
      if a = 0 then
        .error (if fields then "fields are numbered from 1"
          else "byte/character positions are numbered from 1")
      else if b < a then .error "invalid decreasing range"
      else .ok (a, some b)
    let wrong : Except String (Nat × Option Nat) :=
      .error ((if fields then "invalid field value " else "invalid byte/character position ") ++
        cited s)
    match Text.split '-' item with
    | [""] => bounded 0 0
    | [a] => if isNumber a then bounded (digitsValue a.toList) (digitsValue a.toList) else wrong
    | [a, b] =>
      if a = "" && b = "" then .error "invalid range with no endpoint: -"
      else if (a = "" || isNumber a) && (b = "" || isNumber b) then
        let first := if a = "" then 1 else digitsValue a.toList
        if b = "" then (bounded first first).map fun _ => (first, none)
        else bounded first (digitsValue b.toList)
      else wrong
    | _ => .error (if fields then "invalid field range" else "invalid byte or character range")

/-- Whether a place is in one of the ranges. -/
def isPlaced (ranges : List (Nat × Option Nat)) (n : Nat) : Bool :=
  ranges.any fun r => r.1 ≤ n && r.2.all (n ≤ ·)

/-- What is kept of a line by its bytes; `between` stands where some were left out. -/
def cutBytes (kept : Nat → Bool) (between : Option String) (line : String) : String :=
  match between with
  | none => String.ofList ((line.toList.zipIdx.filter fun p => kept p.2).map (·.1))
  | some mark =>
    let pieces := line.toList.zipIdx.filter fun p => kept p.2
    Text.join "" (pieces.map fun p =>
      (if p.2 != 0 && !kept (p.2 - 1) && pieces.head?.any (·.2 != p.2) then mark else "") ++
        String.singleton p.1)

def cut : Utility := withOptions "cut" "snC" "dfcbO"
    [("output-delimiter", 'O'), ("fields", 'f'), ("delimiter", 'd'), ("characters", 'c'),
      ("bytes", 'b'), ("only-delimited", 's'), ("complement", 'C')] 1 fun g => do
  let places := g.options.filter fun o => o.1 == 'f' || o.1 == 'c' || o.1 == 'b'
  let isLong := (g.values 'd').any fun d => 1 < d.toList.length
  match places with
  | [] =>
    if isLong then misuse "cut" "the delimiter must be a single character" 1
    else misuse "cut" "you must specify a list of bytes, characters, or fields" 1
  | _ :: _ :: _ => misuse "cut" "only one list may be specified" 1
  | [(kind, text)] =>
    if isLong then misuse "cut" "the delimiter must be a single character" 1
    else if kind != 'f' && (g.value? 'd').isSome then
      misuse "cut" "an input delimiter may be specified only when operating on fields" 1
    else if kind != 'f' && g.has 's' then
      misuse "cut" "suppressing non-delimited lines makes sense\n\tonly when operating on fields" 1
    else match readPlaces (kind == 'f') text with
    | .error message => misuse "cut" message 1
    | .ok ranges =>
      let kept (i : Nat) : Bool := isPlaced ranges (i + 1) != g.has 'C'
      let mark := match g.value? 'd' with
        | some d => d.toList.headD (Char.ofNat 0)
        | none => '\t'
      let between := (g.value? 'O').getD (String.singleton mark)
      let (parts, status) ← contents "cut" g.operands
      let cutLine (line : String) : Option String :=
        if kind = 'f' then
          if Text.holds mark line then
            let items := (Text.split mark line).zipIdx.filter fun p => kept p.2
            some (Text.join between (items.map (·.1)))
          else if g.has 's' then none else some line
        else some (cutBytes kept (g.value? 'O') line)
      say (ofLines ((parts.flatMap linesOf).filterMap cutLine))
      return status

end ClassViewer.Shell
