import ClassViewer.Shell.Expression
import ClassViewer.Shell.Utility.Options

/-!
# Editing lines

The scripts of `sed`. A script is a list of steps with a place for each; a block is a step that goes
on behind its end unless its lines are selected. For every line the steps are run in order.
-/

namespace ClassViewer.Shell.Edit

open Session

/-! ## Scripts -/

/-- One end of the lines a step is for. -/
inductive Mark where
  | number (n : Nat)
  | last
  | holding (e : Expression) (folded : Bool)
  /-- So many lines behind the first. -/
  | further (n : Nat)
  /-- Every so many lines from a first one on. -/
  | steps (first step : Nat)
  /-- The next line with a number that is so many times another. -/
  | multiple (n : Nat)

/-- The lines a step is for. -/
inductive Address where
  | every
  | one (m : Mark)
  | range (first final : Mark)

/-- A substitution. -/
structure Substitution where
  expression : Expression
  replacement : List Char
  folded : Bool
  every : Bool
  /-- The first match that counts. -/
  nth : Nat
  shown : Bool
  /-- The file that the line goes to. -/
  file : Option String

/-- What a step does. -/
inductive Action where
  | substitute (s : Substitution)
  | exchange (source target : List Char)
  | delete
  | deleteFirst
  | print
  | printFirst
  /-- Prints the line with its characters spelled out. -/
  | spell
  /-- Writes the line to a file. -/
  | write (file : String)
  /-- Writes a file behind the line. -/
  | read (file : String)
  | number
  | next
  | nextToo
  | hold
  | holdToo
  | get
  | getToo
  | swap
  | append (text : String)
  | insert (text : String)
  | change (text : String)
  | quit (status : Nat) (silent : Bool)
  | empty
  | label (name : String)
  /-- Goes on at a label, or at the end; `onChange` only if a substitution was made. -/
  | branch (name : String) (onChange : Bool)
  /-- A block up to the step of that number. -/
  | block (stop : Nat)
  | blockEnd

/-- A step. -/
structure Step where
  address : Address
  negated : Bool
  action : Action

/-! ## Reading -/

/-- The characters that are left, and how many were read. -/
structure Progress where
  rest : List Char
  read : Nat
  steps : List Step
  /-- The blocks that are open, by their numbers. -/
  opened : List Nat
  /-- The expression read last, for which an empty one stands. -/
  latest : Option (Expression × Nat)

/-- What is wrong, and where. -/
abbrev Reader := StateT Progress (Except (Nat × String))

/-- Fails at the characters read so far. -/
def fail {α : Type} (message : String) : Reader α := do throw ((← get).read, message)

/-- Passes over characters. -/
def pass (n : Nat) : Reader Unit :=
  modify fun p => { p with rest := p.rest.drop n, read := p.read + min n p.rest.length }

/-- Passes over characters of a kind. -/
def passWhile (f : Char → Bool) : Reader Unit := do
  pass ((← get).rest.takeWhile f).length

/-- The characters up to a mark that neither a backslash nor a bracket hides, and their number with
the mark. -/
def upTo (mark : Char) : Nat → Bool → List Char → Option (List Char × Nat)
  | 0, _, _ => none
  | _ + 1, _, [] => none
  | fuel + 1, inSet, '\\' :: c :: cs =>
    (upTo mark fuel inSet cs).map fun r =>
      if c = mark && c != '\\' then (c :: r.1, r.2 + 2)
      else if c = 'n' then ('\n' :: r.1, r.2 + 2)
      else ('\\' :: c :: r.1, r.2 + 2)
  | fuel + 1, inSet, c :: cs =>
    if c = mark && !inSet then some ([], 1)
    else if c = '[' && !inSet then
      let opening := match cs with
        | '^' :: ']' :: _ => ['^', ']']
        | '^' :: _ => ['^']
        | ']' :: _ => [']']
        | _ => []
      (upTo mark fuel true (cs.drop opening.length)).map fun r =>
        (c :: opening ++ r.1, r.2 + 1 + opening.length)
    else (upTo mark fuel (inSet && c != ']') cs).map fun r => (c :: r.1, r.2 + 1)

/-- The text of a replacement up to a mark, and its number with the mark. -/
def replacementUpTo (mark : Char) : List Char → Option (List Char × Nat)
  | [] => none
  | '\\' :: c :: cs =>
    (replacementUpTo mark cs).map fun r =>
      (if c = mark && c != '&' then c :: r.1 else '\\' :: c :: r.1, r.2 + 2)
  | c :: cs =>
    if c = mark then some ([], 1) else (replacementUpTo mark cs).map fun r => (c :: r.1, r.2 + 1)

/-- The largest group that a replacement refers to. -/
def lastReference : List Char → Option Nat
  | '\\' :: c :: cs =>
    let rest := lastReference cs
    if '1' ≤ c && c ≤ '9' then some (max (c.toNat - 48) (rest.getD 0)) else rest
  | _ :: cs => lastReference cs
  | [] => none

/-- Reads an expression; one that is malformed fails at the characters read so far. -/
def expression (extended : Bool) (cs : List Char) : Reader (Expression × Nat) := do
  if cs.isEmpty then
    match (← get).latest with
    | some e => return e
    | none => fail "no previous regular expression"
  else match Expression.ofText extended (String.ofList cs) with
    | .ok e =>
      modify fun p => { p with latest := some e }
      return e
    | .error fault => fail fault.message

/-- Reads digits. -/
def number : Reader Nat := do
  let digits := (← get).rest.takeWhile Char.isDigit
  pass digits.length
  return digitsValue digits

/-- Reads the name of a file up to the end of the line. -/
def fileName : Reader String := do
  passWhile fun c => c == ' ' || c == '\t'
  let name := (← get).rest.takeWhile (· != '\n')
  pass name.length
  if name.isEmpty then fail "missing filename in r/R/w/W commands"
  return String.ofList name

/-- Reads an end of an address; none if there is none. -/
def readMark (extended second : Bool) : Reader (Option Mark) := do
  match (← get).rest with
  | '$' :: _ =>
    pass 1
    return some .last
  | '+' :: d :: _ =>
    if second && d.isDigit then
      pass 1
      return some (.further (← number))
    else return none
  | '~' :: d :: _ =>
    if second && d.isDigit then
      pass 1
      return some (.multiple (← number))
    else return none
  | c :: cs =>
    if c.isDigit then
      let n ← number
      match (← get).rest with
      | '~' :: d :: _ =>
        if !second && d.isDigit then
          pass 1
          return some (.steps n (← number))
        else return some (.number n)
      | _ => return some (.number n)
    else if c = '/' || c = '\\' then
      let (mark, skipped) := if c = '/' then ('/', 1) else (cs.headD '/', 2)
      let body := (c :: cs).drop skipped
      match upTo mark (body.length + 1) false body with
      | none =>
        pass body.length
        pass skipped
        fail "unterminated address regex"
      | some (text, n) =>
        pass (skipped + n)
        let folded := (← get).rest.head? = some 'I'
        if folded then pass 1
        return some (.holding (← expression extended text).1 folded)
    else return none
  | [] => return none

/-- Reads an address and its negation. -/
def readAddress (extended : Bool) : Reader (Address × Bool) := do
  let isBlank (c : Char) : Bool := c == ' ' || c == '\t'
  let first ← readMark extended false
  let address ← match first with
    | none => pure .every
    | some m => do
      passWhile isBlank
      if (← get).rest.head? = some ',' then
        pass 1
        passWhile isBlank
        match ← readMark extended true with
        | some n => pure (.range m n)
        | none => fail "unexpected \x60,'"
      else pure (.one m)
  match address with
  | .one (.number 0) => fail "invalid usage of line address 0"
  | .range (.number 0) (.holding _ _) => pure ()
  | .range (.number 0) _ => fail "invalid usage of line address 0"
  | _ => pure ()
  passWhile isBlank
  if (← get).rest.head? = some '!' then
    passWhile fun c => c == '!' || isBlank c
    return (address, true)
  else return (address, false)

/-- The text behind `a`, `i` or `c`: on the next line behind a backslash, or on the same line. -/
def readText : Reader String := do
  let isBlank (c : Char) : Bool := c == ' ' || c == '\t'
  passWhile isBlank
  match (← get).rest with
  | [] => fail "expected \\ after \x60a', \x60c' or \x60i'"
  | '\\' :: cs =>
    pass 1
    if (cs.dropWhile isBlank).head? = some '\n' then
      passWhile isBlank
      pass 1
    let rec lines : Nat → List Char → List Char × Nat
      | 0, _ => ([], 0)
      | _ + 1, [] => ([], 0)
      | fuel + 1, '\\' :: c :: cs =>
        let (t, n) := lines fuel cs
        (c :: t, n + 2)
      | _ + 1, '\n' :: _ => ([], 0)
      | fuel + 1, c :: cs =>
        let (t, n) := lines fuel cs
        (c :: t, n + 1)
    let (text, n) := lines ((← get).rest.length + 1) (← get).rest
    pass n
    return String.ofList text
  | _ =>
    let text := (← get).rest.takeWhile (· != '\n')
    pass text.length
    return String.ofList text

/-- Reads the flags of a substitution. -/
def readFlags : Nat → Substitution → Reader Substitution
  | 0, s => return s
  | fuel + 1, s => do
    match (← get).rest with
    | 'g' :: _ =>
      pass 1
      if s.every then fail "multiple \x60g' options to \x60s' command"
      readFlags fuel { s with every := true }
    | 'p' :: _ =>
      pass 1
      readFlags fuel { s with shown := true }
    | 'i' :: _ =>
      pass 1
      readFlags fuel { s with folded := true }
    | 'I' :: _ =>
      pass 1
      readFlags fuel { s with folded := true }
    | 'w' :: _ =>
      pass 1
      return { s with file := some (← fileName) }
    | c :: _ =>
      if c.isDigit then
        let digits := (← get).rest.takeWhile Char.isDigit
        pass digits.length
        readFlags fuel { s with nth := digitsValue digits }
      else if c = '\n' || c = ';' || c = '}' || c = '#' || c = ' ' then return s
      else
        pass 1
        fail "unknown option to \x60s'"
    | [] => return s

/-- Reads a substitution behind its letter. -/
def readSubstitution (extended : Bool) : Reader Action := do
  let unterminated : Reader Action := do
    pass (← get).rest.length
    fail "unterminated \x60s' command"
  match (← get).rest with
  | [] => unterminated
  | mark :: cs =>
    match upTo mark (cs.length + 1) false cs with
    | none => unterminated
    | some (pattern, n) =>
      match replacementUpTo mark (cs.drop n) with
      | none => unterminated
      | some (replacement, m) =>
        pass (1 + n + m)
        let s ← readFlags 8 ⟨.nothing, replacement, false, false, 1, false, none⟩
        let (e, groups) ← expression extended pattern
        match lastReference replacement with
        | some d =>
          if groups < d then
            fail ("invalid reference \\" ++ toString d ++ " on \x60s' command's RHS")
        | none => pure ()
        return .substitute { s with expression := e }

/-- Reads an exchange of characters behind its letter. -/
def readExchange : Reader Action := do
  let unterminated : Reader Action := do
    pass (← get).rest.length
    fail "unterminated \x60y' command"
  let plain (cs : List Char) : List Char :=
    cs.foldr (fun c acc => match c, acc with
      | '\\', 'n' :: rest => '\n' :: rest
      | '\\', '\\' :: rest => '\\' :: rest
      | c, acc => c :: acc) []
  match (← get).rest with
  | [] => unterminated
  | mark :: cs =>
    match replacementUpTo mark cs with
    | none => unterminated
    | some (source, n) =>
      match replacementUpTo mark (cs.drop n) with
      | none => unterminated
      | some (target, m) =>
        pass (1 + n + m)
        if (plain source).length != (plain target).length then
          fail "strings for \x60y' command are different lengths"
        return .exchange (plain source) (plain target)

/-- Reads the action of a step. -/
def readAction (extended : Bool) : Reader Action := do
  match (← get).rest with
  | [] => fail "missing command"
  | c :: _ =>
    pass 1
    let word : Reader String := do
      passWhile fun c => c == ' '
      let name := (← get).rest.takeWhile fun c => c != '\n' && c != ';' && c != ' '
      pass name.length
      return String.ofList name
    let status : Reader Nat := do
      passWhile fun c => c == ' '
      number
    match c with
    | 's' => readSubstitution extended
    | 'y' => readExchange
    | 'd' => return .delete
    | 'D' => return .deleteFirst
    | 'p' => return .print
    | 'P' => return .printFirst
    | 'l' => return .spell
    | 'w' => return .write (← fileName)
    | 'r' => return .read (← fileName)
    | '=' => return .number
    | 'n' => return .next
    | 'N' => return .nextToo
    | 'h' => return .hold
    | 'H' => return .holdToo
    | 'g' => return .get
    | 'G' => return .getToo
    | 'x' => return .swap
    | 'z' => return .empty
    | 'a' => return .append (← readText)
    | 'i' => return .insert (← readText)
    | 'c' => return .change (← readText)
    | 'q' => return .quit (← status) false
    | 'Q' => return .quit (← status) true
    | ':' => return .label (← word)
    | 'b' => return .branch (← word) false
    | 't' => return .branch (← word) true
    | '{' => return .block 0
    | '}' => return .blockEnd
    | '\n' => fail "missing command"
    | c => fail ("unknown command: \x60" ++ String.singleton c ++ "'")

/-- Passes over the end of a step. -/
def readEnd (a : Action) : Reader Unit := do
  passWhile fun c => c == ' ' || c == '\t'
  match a, (← get).rest with
  | .block _, _ => return ()
  | _, [] => return ()
  | _, c :: _ =>
    if c = '\n' || c = ';' then pass 1
    else if c = '}' || c = '#' then return ()
    else
      pass 1
      fail "extra characters after command"

/-- Reads the steps of a script; `fuel` bounds their number. -/
def readSteps (extended : Bool) : Nat → Reader Unit
  | 0 => return ()
  | fuel + 1 => do
    passWhile fun c => c == ' ' || c == ';' || c == '\n' || c == '\t'
    match (← get).rest with
    | [] =>
      if !(← get).opened.isEmpty then throw (0, "unmatched \x60\x7b'")
    | '#' :: _ =>
      passWhile (· != '\n')
      readSteps extended fuel
    | _ =>
      let (address, negated) ← readAddress extended
      let action ← readAction extended
      let n := (← get).steps.length
      match action with
      | .block _ => modify fun p => { p with opened := n :: p.opened }
      | .blockEnd =>
        match (← get).opened with
        | [] => fail "unexpected \x60\x7d'"
        | o :: rest =>
          modify fun p => { p with
            opened := rest
            steps := p.steps.modify o fun s => { s with action := .block n } }
      | _ => pure ()
      readEnd action
      modify fun p => { p with steps := p.steps ++ [⟨address, negated, action⟩] }
      readSteps extended fuel

/-- Reads a script. -/
def readScript (extended : Bool) (source : String) : Except (Nat × String) (List Step) :=
  let cs := source.toList
  match (readSteps extended (cs.length + 1)).run ⟨cs, 0, [], [], none⟩ with
  | .ok (_, p) => .ok p.steps
  | .error e => .error e

/-! ## Running -/

/-- The state of an edit. -/
structure State where
  /-- The lines behind the current one. -/
  rest : List String
  number : Nat
  line : String
  held : String
  written : List String
  /-- What is written behind the line. -/
  later : List String
  changed : Bool
  /-- The steps whose ranges are open, with the lines they end at if those are known. -/
  ranges : List (Nat × Option Nat)
  /-- The status with which the edit ends. -/
  ended : Option Nat
  /-- The contents of files that are read. -/
  contents : List (String × String)
  /-- What is written to files, last first. -/
  filed : List (String × String)
  /-- Whether the line is left out of the output. -/
  dropped : Bool
  /-- Whether the next round begins without a new line. -/
  again : Bool

/-- Whether a mark holds the current line. -/
def Mark.holds (s : State) : Mark → Bool
  | .number n => s.number == n
  | .last => s.rest.isEmpty
  | .holding e folded => (e.find? folded s.line.toList).isSome
  | .further _ => false
  | .steps first step =>
    if step = 0 then s.number == first
    else decide (first ≤ s.number) && (s.number - first) % step == 0
  | .multiple _ => false

/-- Whether a step is for the current line, and the state with the range it opens or closes. -/
def selects (i : Nat) (a : Address) (s : State) : Bool × State :=
  match a with
  | .every => (true, s)
  | .one m => (m.holds s, s)
  | .range first final =>
    match s.ranges.lookup i with
    | some stop =>
      let ends : Bool := match stop with
        | some n => decide (n ≤ s.number)
        | none => final.holds s
      let past : Bool := match stop with
        | some n => decide (n < s.number)
        | none => false
      let s' := if ends then { s with ranges := s.ranges.filter (·.1 != i) } else s
      if past then (first.holds s, s') else (true, s')
    | none =>
      let fromTop := match first with
        | .number 0 => s.number == 1
        | _ => false
      if !(first.holds s || fromTop) then (false, s)
      else if fromTop && final.holds s then (true, s)
      else
        let stop : Option (Option Nat) := match final with
          | .multiple n => if n = 0 || s.number % n == 0 then none
            else some (some (s.number + (n - s.number % n)))
          | .steps n _ => if n ≤ s.number then none else some (some n)
          | .number n => if n ≤ s.number then none else some (some n)
          | .further n => if n = 0 then none else some (some (s.number + n))
          | .last => if s.rest.isEmpty then none else some none
          | .holding _ _ => some none
        match stop with
        | none => (true, s)
        | some stop => (true, { s with ranges := (i, stop) :: s.ranges })

/-- A case change in a replacement. -/
inductive Case where
  | kept
  | upper
  | lower
  deriving DecidableEq

/-- The text that replaces a match. -/
def replacementText (m : Expression.Match) (whole : List Char) :
    Case → Case → List Char → List Char
  | lasting, once, cs =>
    let put (lasting once : Case) (t : List Char) : List Char :=
      let apply (k : Case) (c : Char) : Char :=
        match k with
        | .kept => c
        | .upper => c.toUpper
        | .lower => c.toLower
      match t with
      | [] => []
      | c :: t => apply (if once = .kept then lasting else once) c :: t.map (apply lasting)
    match cs with
    | [] => []
    | '\\' :: c :: cs =>
      match c with
      | 'U' => replacementText m whole .upper .kept cs
      | 'L' => replacementText m whole .lower .kept cs
      | 'E' => replacementText m whole .kept .kept cs
      | 'u' => replacementText m whole lasting .upper cs
      | 'l' => replacementText m whole lasting .lower cs
      | 'n' => '\n' :: replacementText m whole lasting .kept cs
      | 't' => '\t' :: replacementText m whole lasting .kept cs
      | c =>
        if '1' ≤ c && c ≤ '9' then
          let t := (m.groups.lookup (c.toNat - 48)).getD []
          let next := if t.isEmpty then once else .kept
          put lasting once t ++ replacementText m whole lasting next cs
        else put lasting once [c] ++ replacementText m whole lasting .kept cs
    | '&' :: cs => put lasting once whole ++ replacementText m whole lasting .kept cs
    | c :: cs => put lasting once [c] ++ replacementText m whole lasting .kept cs

/-- A line with its matches replaced, if there are any that count. -/
def Substitution.apply? (s : Substitution) (line : List Char) : Option (List Char) :=
  let found := s.expression.findAll s.folded line
  let chosen := found.drop (s.nth - 1)
  let chosen := if s.every then chosen else chosen.take 1
  if chosen.isEmpty then none
  else
    let (text, i) := chosen.foldl (fun (acc : List Char × Nat) m =>
      let whole := (line.drop m.start).take m.length
      (acc.1 ++ (line.drop acc.2).take (m.start - acc.2) ++
        replacementText m whole .kept .kept s.replacement, m.start + m.length)) ([], 0)
    some (text ++ line.drop i)

/-- The first line of a text. -/
def firstLine (s : String) : String := (Text.split '\n' s).headD ""

/-- A character as it is spelled out. -/
def spelledChar (c : Char) : List Char :=
  let named : List (Nat × Char) :=
    [(7, 'a'), (8, 'b'), (12, 'f'), (10, 'n'), (13, 'r'), (9, 't'), (11, 'v'), (92, '\\')]
  match named.lookup c.toNat with
  | some d => ['\\', d]
  | none =>
    if 32 ≤ c.toNat && c.toNat < 127 then [c]
    else
      let digit (n : Nat) : Char := Char.ofNat (48 + n % 8)
      ['\\', digit (c.toNat / 64), digit (c.toNat / 8), digit c.toNat]

/-- How long a spelled line may be, without the backslash that goes on. -/
def spelledWidth : Nat := 69

/-- The lines that spell out a text. -/
def spelled (text : String) : String :=
  let (lines, line) := text.toList.foldl (fun (acc : List Char × List Char) c =>
    let piece := spelledChar c
    if spelledWidth < acc.2.length + piece.length then
      (acc.1 ++ acc.2 ++ ['\\', '\n'], piece)
    else (acc.1, acc.2 ++ piece)) ([], [])
  String.ofList (lines ++ line ++ ['$', '\n'])

/-- Writes to a file, of which one is the output itself. -/
def State.toFile (s : State) (file text : String) : State :=
  if file = "/dev/stdout" then { s with written := text :: s.written }
  else { s with filed := (file, text) :: s.filed }

/-- Takes the next line, behind what is written behind the current one. -/
def State.advance (s : State) : State :=
  match s.rest with
  | line :: rest =>
    { s with rest := rest, number := s.number + 1, line := line
             written := s.later.reverse ++ s.written, later := [] }
  | [] => s

/-- Where the step of a label is. -/
def labelPlace (steps : List Step) (name : String) : Nat :=
  (steps.findIdx? fun s => match s.action with
    | .label n => n == name
    | _ => false).getD steps.length

/-- Runs the steps from a place on; `fuel` bounds their number. -/
def runSteps (quiet : Bool) (steps : List Step) : Nat → Nat → State → State
  | 0, _, s => s
  | fuel + 1, i, s =>
    match steps[i]? with
    | none => s
    | some step =>
      let (selected, s) := selects i step.address s
      let isBlock := match step.action with
        | .block _ => true
        | _ => false
      if selected == step.negated then
        runSteps quiet steps fuel (match step.action with | .block e => e + 1 | _ => i + 1) s
      else if isBlock then runSteps quiet steps fuel (i + 1) s
      else
        let go (s : State) : State := runSteps quiet steps fuel (i + 1) s
        match step.action with
        | .substitute sub =>
          match sub.apply? s.line.toList with
          | some line =>
            let line := String.ofList line
            let s := { s with
              line := line, changed := true
              written := if sub.shown then (line ++ "\n") :: s.written else s.written }
            go (match sub.file with
              | some file => s.toFile file (line ++ "\n")
              | none => s)
          | none => go s
        | .exchange source target =>
          go { s with line := s.line.map fun c =>
            match source.idxOf? c with
            | some k => target.getD k c
            | none => c }
        | .delete => { s with dropped := true }
        | .deleteFirst =>
          if Text.holds '\n' s.line then
            { s with
              dropped := true, again := true
              line := Text.join "\n" ((Text.split '\n' s.line).drop 1) }
          else { s with dropped := true }
        | .print => go { s with written := (s.line ++ "\n") :: s.written }
        | .printFirst => go { s with written := (firstLine s.line ++ "\n") :: s.written }
        | .spell => go { s with written := spelled s.line :: s.written }
        | .write file => go (s.toFile file (s.line ++ "\n"))
        | .read file => go { s with later := (s.contents.lookup file).toList ++ s.later }
        | .number => go { s with written := (toString s.number ++ "\n") :: s.written }
        | .next =>
          if s.rest.isEmpty then { s with ended := some 0 }
          else
            let s := if quiet then s else { s with written := (s.line ++ "\n") :: s.written }
            go s.advance
        | .nextToo =>
          if s.rest.isEmpty then { s with ended := some 0 }
          else
            let t := s.advance
            go { t with line := s.line ++ "\n" ++ t.line }
        | .hold => go { s with held := s.line }
        | .holdToo => go { s with held := s.held ++ "\n" ++ s.line }
        | .get => go { s with line := s.held }
        | .getToo => go { s with line := s.line ++ "\n" ++ s.held }
        | .swap => go { s with line := s.held, held := s.line }
        | .append text => go { s with later := (text ++ "\n") :: s.later }
        | .insert text => go { s with written := (text ++ "\n") :: s.written }
        | .change text =>
          let last := match step.address with
            | .range _ _ => step.negated || (s.ranges.lookup i).isNone
            | _ => true
          { s with
            dropped := true
            written := if last then (text ++ "\n") :: s.written else s.written }
        | .quit status silent => { s with ended := some status, dropped := silent }
        | .empty => go { s with line := "" }
        | .label _ => go s
        | .branch name onChange =>
          if onChange && !s.changed then go s
          else
            runSteps quiet steps fuel (if name = "" then steps.length else labelPlace steps name)
              { s with changed := false }
        | .block _ => go s
        | .blockEnd => go s

/-- Runs the rounds of an edit, one for each line; `fuel` bounds them. -/
def runRounds (quiet : Bool) (steps : List Step) : Nat → State → State
  | 0, s => s
  | fuel + 1, s =>
    let s := runSteps quiet steps 10000 0 { s with dropped := false, again := false }
    let s := if quiet || s.dropped then s else { s with written := (s.line ++ "\n") :: s.written }
    let s := { s with written := s.later.reverse ++ s.written, later := [] }
    if s.ended.isSome then s
    else if s.again then runRounds quiet steps fuel s
    else if s.rest.isEmpty then s
    else runRounds quiet steps fuel { s.advance with changed := false }

/-- The files that steps write to. -/
def targetsOf (steps : List Step) : List String :=
  steps.filterMap fun step => match step.action with
    | .write file => some file
    | .substitute sub => sub.file
    | _ => none

/-- The files that steps read. -/
def sourcesOf (steps : List Step) : List String :=
  steps.filterMap fun step => match step.action with
    | .read file => some file
    | _ => none

/-- The label a step goes to that there is not. -/
def missingLabel? (steps : List Step) : Option String :=
  (steps.filterMap fun step => match step.action with
    | .branch name _ => some name
    | _ => none).find? fun name => name != "" && labelPlace steps name = steps.length

/-- What an edit comes to. -/
structure Edited where
  text : String
  status : Nat
  /-- What is written to files, in order. -/
  filed : List (String × String)

/-- Edits a text, with the contents of the files that are read. -/
def edit (quiet : Bool) (steps : List Step) (contents : List (String × String)) (text : String) :
    Edited :=
  match linesOf text with
  | [] => ⟨"", 0, []⟩
  | line :: rest =>
    let s := runRounds quiet steps (2 * text.toList.length + 2)
      ⟨rest, 1, line, "", [], [], false, [], none, contents, [], false, false⟩
    let out := Text.join "" s.written.reverse
    ⟨if isEnded text || s.rest != [] then out else Text.dropTail "\n" out, s.ended.getD 0,
      s.filed.reverse⟩

/-- Puts a new file in the place of one that is edited, which stays under another name if `kept` is
not empty. -/
def replaceFile (kept name text : String) : SessionM Unit := do
  let s ← get
  match s.disk.lookup s.here false (pathOf name), s.disk.lookup s.here true (pathOf name) with
  | .ok (r, _), .ok (_, .file _ runners) =>
    let last := r.getLast?.getD ""
    let kept := Text.Octets.toText kept
    let goal := if Text.holds '*' kept then Text.join last (Text.split '*' kept) else last ++ kept
    let d := if kept = "" then s.disk else s.disk.move r (r.dropLast ++ [goal])
    set { s with disk := d.put r (.file (Text.Octets.toBytes text) runners) }
  | _, _ => return ()

/-- Writes what an edit has for files. -/
def writeFiled (filed : List (String × String)) : SessionM Unit :=
  filed.forM fun (file, text) => do
    if file = "/dev/stderr" then
      let _ ← emit 2 (Text.Octets.toBytes text)
    else
      let _ ← change fun d here =>
        let before := (d.read here (pathOf file)).toOption.getD ByteArray.empty
        d.write here (pathOf file) (before ++ Text.Octets.toBytes text)

/-- Edits files, each by itself if they are kept apart or changed in place. -/
def editFiles (g : Given) (steps : List Step) (files : List String) : SessionM Nat := do
  let quiet := g.has 'n'
  let names := if files.isEmpty then ["-"] else files
  (targetsOf steps).forM fun file => do
    if !Text.startsWith "/dev/std" file then
      let _ ← change fun d here => d.write here (pathOf file) ByteArray.empty
  let parts ← names.mapM fun name => do
    let s ← get
    let isDirectory := name != "-" && s.disk.isDirectory s.here (pathOf name)
    match ← contentOf name with
    | .ok text => return .ok (name, text)
    | .error e =>
      complain (if isDirectory then
          (if g.has 'i' then "sed: couldn't edit " ++ name ++ ": not a regular file"
          else "sed: couldn't read " ++ name ++ ": Is a directory")
        else "sed: can't read " ++ name ++ ": " ++ reason e)
      return .error (if isDirectory && g.has 'i' then 4 else 2)
  let found := parts.filterMap Except.toOption
  let contents ← (sourcesOf steps).filterMapM fun file => do
    match ← contentOf (if file = "/dev/stdin" then "-" else file) with
    | .ok text => return some (file, text)
    | .error _ => return none
  let editOne (text : String) : SessionM Edited := do
    let e := edit quiet steps contents text
    writeFiled e.filed
    return e
  let status ← if g.has 'i' then do
      found.forM fun (name, text) => do
        let e ← editOne text
        replaceFile ((g.value? 'i').getD "") name e.text
      pure 0
    else if g.has 's' then do
      let statuses ← found.mapM fun (_, text) => do
        let e ← editOne text
        say e.text
        return e.status
      pure (statuses.foldl max 0)
    else do
      let e ← editOne (Text.join "" (found.zipIdx.map fun ((_, text), i) =>
        if i + 1 < found.length && !isEnded text then text ++ "\n" else text))
      say e.text
      pure e.status
  return parts.foldl (fun worst p => match p with
    | .error n => max worst n
    | .ok _ => worst) status

/-- The arguments with the suffix of an option taken out of it; the option goes without one by
itself, so that its letter can stand among others. -/
def splitSuffix : List String → List String × String
  | [] => ([], "")
  | "--" :: rest => ("--" :: rest, "")
  | a :: rest =>
    let (more, later) := splitSuffix rest
    match Text.dropHead? "--in-place=" a, Text.dropHead? "-" a with
    | some suffix, _ => ("-i" :: more, if later = "" then suffix else later)
    | none, some letters =>
      let before := letters.toList.takeWhile fun c => Text.holds c "nErsuz"
      match letters.toList.drop before.length with
      | 'i' :: suffix =>
        (String.ofList ('-' :: before ++ ['i']) :: more,
          if later = "" then String.ofList suffix else later)
      | _ => (a :: more, later)
    | none, none => (a :: more, later)

/-- The scripts that options give, in order, each with what it is called in messages; or the file
that cannot be read. -/
def givenScripts (g : Given) : SessionM (Except String (List String)) := do
  let parts ← (g.options.filter fun o => o.1 == 'e' || o.1 == 'f').mapM fun (letter, value) => do
    if letter = 'e' then return .ok value
    else match ← contentOf value with
      | .ok text => return .ok (Text.dropTail "\n" text)
      | .error e => return .error ("couldn't open file " ++ value ++ ": " ++ reason e)
  return parts.foldr (fun part acc => do return (← part) :: (← acc)) (.ok [])

def sed : Utility := fun args => do
  let (args, suffix) := splitSuffix args
  withOptions "sed" "nErsiuz" "ef"
    [("quiet", 'n'), ("silent", 'n'), ("expression", 'e'), ("file", 'f'),
      ("regexp-extended", 'E'), ("separate", 's'), ("in-place", 'i')] 1 (fun g => do
    match ← givenScripts g with
    | .error message =>
      complain ("sed: " ++ message)
      return 1
    | .ok scripts =>
      let (source, files) := match scripts, g.operands with
        | [], script :: files => (some script, files)
        | [], [] => (none, [])
        | scripts, files => (some (Text.join "\n" scripts), files)
      match source.map (readScript (g.has 'E' || g.has 'r')) with
      | none =>
        complain "Usage: sed [OPTION]... \x7bscript-only-if-no-other-script\x7d [input-file]..."
        return 1
      | some (.error (n, message)) =>
        complain ("sed: -e expression #1, char " ++ toString n ++ ": " ++ message)
        return 1
      | some (.ok steps) =>
        match missingLabel? steps with
        | some name =>
          complain ("sed: can't find label for jump to \x60" ++ name ++ "'")
          return 4
        | none =>
          let suffixed (o : Char × String) := if o.1 = 'i' then ('i', suffix) else o
          editFiles { g with options := g.options.map suffixed } steps files) args

end ClassViewer.Shell.Edit
