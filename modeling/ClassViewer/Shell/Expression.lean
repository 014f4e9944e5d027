import ClassViewer.Shell.Number
import ClassViewer.Shell.Pattern

/-!
# Regular expressions

The expressions of the programs that search and change lines, in their basic and their extended
spelling. Of the matches that begin first, the longest counts.

An expression takes all places it may begin at to all places it may end at. Places that have passed
the same number of characters are kept once, so that no expression costs more than a polynomial of
the length of the line.
-/

namespace ClassViewer.Shell

/-- A regular expression. -/
inductive Expression where
  | nothing
  /-- One character. -/
  | one (p : Pattern.Piece)
  | lineStart
  | lineEnd
  /-- Between a character of a word and another one, or none. -/
  | wordEdge (atStart atEnd : Bool)
  | group (n : Nat) (e : Expression)
  /-- What a group matched, again. -/
  | again (n : Nat)
  | sequence (a b : Expression)
  | either (a b : Expression)
  | repeated (e : Expression) (least : Nat) (most : Option Nat)
  deriving DecidableEq, Repr

namespace Expression

/-! ## Matching -/

/-- A place in a line: how many characters are before it, the last of them, those behind it, and
what groups have matched. -/
structure Place where
  index : Nat
  before : Option Char
  rest : List Char
  groups : List (Nat × List Char)

/-- Whether a character belongs to words. -/
def isWordChar (c : Char) : Bool := c.isAlphanum || c == '_'

/-- Whether a piece accepts a character; `folded` makes cases equal. -/
def accepts (folded : Bool) (p : Pattern.Piece) (c : Char) : Bool :=
  p.accepts c || (folded && (p.accepts c.toLower || p.accepts c.toUpper))

/-- The places in order, the farthest first, each once. -/
def distinct (ps : List Place) : List Place :=
  (ps.mergeSort fun p q => decide (q.index ≤ p.index)).foldr (fun p acc =>
    match acc with
    | q :: rest => if p.index = q.index then p :: rest else p :: acc
    | [] => [p]) []

/-- The place behind so many characters. -/
def Place.advance (p : Place) (n : Nat) : Place :=
  { p with
    index := p.index + n, rest := p.rest.drop n
    before := if n = 0 then p.before else p.rest[n - 1]? }

/-- The places after up to `fuel` more steps: `count` says how many were made, and `acc` holds the
places after enough of them. -/
def iterate (step : List Place → List Place) (least : Nat) (most : Option Nat) :
    Nat → Nat → List Place → List Place → List Place
  | 0, _, _, acc => acc
  | fuel + 1, count, front, acc =>
    let acc := if least ≤ count then front ++ acc else acc
    if most.any (· ≤ count) then acc
    else
      let front := (step front).filter fun p => count < least || !acc.any (·.index == p.index)
      if front.isEmpty then acc else iterate step least most fuel (count + 1) front acc

/-- The places an expression ends at, from those it begins at. -/
def run (folded : Bool) : Expression → List Place → List Place
  | .nothing, ps => ps
  | .one p, ps => ps.filterMap fun q => match q.rest with
    | c :: _ => if accepts folded p c then some (q.advance 1) else none
    | [] => none
  | .lineStart, ps => ps.filter fun q => q.index == 0
  | .lineEnd, ps => ps.filter fun q => q.rest.isEmpty
  | .wordEdge atStart atEnd, ps => ps.filter fun q =>
    let inside := q.before.any isWordChar
    let next := q.rest.head?.any isWordChar
    (atStart && !inside && next) || (atEnd && inside && !next)
  | .group n e, ps => distinct (ps.flatMap fun q =>
    (run folded e [q]).map fun r =>
      { r with groups := (n, q.rest.take (r.index - q.index)) :: r.groups })
  | .again n, ps => ps.filterMap fun q =>
    match q.groups.lookup n with
    | some cs => if cs.isPrefixOf q.rest then some (q.advance cs.length) else none
    | none => none
  | .sequence a b, ps => run folded b (run folded a ps)
  | .either a b, ps => distinct (run folded a ps ++ run folded b ps)
  | .repeated e least most, ps =>
    let longest := (ps.map fun q => q.rest.length).foldl max 0
    let step (ps : List Place) := distinct (run folded e ps)
    distinct (iterate step least most (longest + least + 2) 0 ps [])

/-- A match: where it begins, how long it is, and what its groups matched. -/
structure Match where
  start : Nat
  length : Nat
  groups : List (Nat × List Char)

/-- The longest match at a place. -/
def matchAt (folded : Bool) (e : Expression) (p : Place) : Option Match :=
  (run folded e [p]).foldl (fun acc q =>
    let m : Match := ⟨p.index, q.index - p.index, q.groups⟩
    match acc with
    | some best => if best.length < m.length then some m else some best
    | none => some m) none

/-- The first match from a place on; `fuel` bounds the places. -/
def matchFrom (folded : Bool) (e : Expression) : Nat → Place → Option Match
  | 0, _ => none
  | fuel + 1, p =>
    match matchAt folded e p with
    | some m => some m
    | none => if p.rest.isEmpty then none else matchFrom folded e fuel (p.advance 1)

/-- The first match in a line. -/
def find? (folded : Bool) (e : Expression) (line : List Char) : Option Match :=
  matchFrom folded e (line.length + 1) ⟨0, none, line, []⟩

/-- All matches in a line, none inside another; `fuel` bounds their number. An empty match right
behind another one does not count. -/
def matchesFrom (folded : Bool) (e : Expression) (line : List Char) :
    Nat → Nat → Option Nat → List Match
  | 0, _, _ => []
  | fuel + 1, i, last =>
    let before := if i = 0 then none else (line.drop (i - 1)).head?
    let place : Place := ⟨i, before, line.drop i, []⟩
    match matchFrom folded e (line.length + 1) place with
    | none => []
    | some m =>
      if m.length = 0 then
        let more := if line.length ≤ m.start then []
          else matchesFrom folded e line fuel (m.start + 1) none
        if last = some m.start then more else m :: more
      else m :: matchesFrom folded e line fuel (m.start + m.length) (some (m.start + m.length))

/-- All matches in a line. -/
def findAll (folded : Bool) (e : Expression) (line : List Char) : List Match :=
  matchesFrom folded e line (line.length + 2) 0 none

/-! ## Reading -/

/-- What is wrong with the text of an expression. -/
inductive Fault where
  /-- A bracket with nothing behind it. -/
  | lastBracket
  | openBracket
  | badRange
  | openGroup
  | closedGroup
  | badCount
  | badReference
  | trailingBackslash
  deriving DecidableEq, Repr

/-- The words for a malformed expression. -/
def Fault.message : Fault → String
  | lastBracket => "Invalid regular expression"
  | openBracket => "Unmatched [, [^, [:, [., or [="
  | badRange => "Invalid range end"
  | openGroup => "Unmatched ( or \\("
  | closedGroup => "Unmatched ) or \\)"
  | badCount => "Invalid content of \\\x7b\\\x7d"
  | badReference => "Invalid back reference"
  | trailingBackslash => "Trailing backslash"

/-- The characters that are left, the number of groups begun, and how many are open. -/
structure Progress where
  rest : List Char
  groups : Nat
  depth : Nat

abbrev Reader := StateT Progress (Except Fault)

/-- Goes on with other characters. -/
def goTo (cs : List Char) : Reader Unit := modify fun p => { p with rest := cs }

/-- Whether an operator that is written with a backslash in basic expressions comes next, and what
is behind it. -/
def operator? (extended : Bool) (c : Char) (cs : List Char) : Option (List Char) :=
  match extended, cs with
  | true, d :: rest => if d = c then some rest else none
  | false, '\\' :: d :: rest => if d = c then some rest else none
  | _, _ => none

/-- Whether a sequence ends here. -/
def endsSequence (extended : Bool) (cs : List Char) : Bool :=
  cs.isEmpty || (operator? extended ')' cs).isSome || (operator? extended '|' cs).isSome

/-- Reads a count such as `2`, `2,` or `2,3` up to its brace. -/
def countAt (extended : Bool) (cs : List Char) : Option (Nat × Option Nat × List Char) :=
  let first := cs.takeWhile Char.isDigit
  let cs := cs.dropWhile Char.isDigit
  let (most, cs) : Option Nat × List Char := match cs with
    | ',' :: cs =>
      let second := cs.takeWhile Char.isDigit
      (if second.isEmpty then none else some (digitsValue second), cs.dropWhile Char.isDigit)
    | cs => (some (digitsValue first), cs)
  match operator? extended '}' cs with
  | some rest =>
    if first.isEmpty && most = some 0 then none else some (digitsValue first, most, rest)
  | none => none

/-- Reads what repeats the expression before it; `fuel` bounds how often. -/
def readRepeats (extended : Bool) : Nat → Expression → Reader Expression
  | 0, e => return e
  | fuel + 1, e => do
    let cs := (← get).rest
    match cs with
    | '*' :: rest =>
      goTo rest
      readRepeats extended fuel (.repeated e 0 none)
    | cs =>
      match operator? extended '+' cs, operator? extended '?' cs, operator? extended '{' cs with
      | some rest, _, _ =>
        goTo rest
        readRepeats extended fuel (.repeated e 1 none)
      | none, some rest, _ =>
        goTo rest
        readRepeats extended fuel (.repeated e 0 (some 1))
      | none, none, some rest =>
        match countAt extended rest with
        | some (least, most, rest) =>
          goTo rest
          readRepeats extended fuel (.repeated e least most)
        | none => throw .badCount
      | none, none, none => return e

/-- The characters of words, for escapes. -/
def wordRanges : List (Char × Char) := ('_', '_') :: Pattern.classRanges "alnum"

/-- Reads a character, a set or an escape. -/
def readOne (c : Char) (cs : List Char) : Reader Expression := do
  match c, cs with
  | '.', cs =>
    goTo cs
    return .one .any
  | '[', cs =>
    let (negated, body) := match cs with
      | '^' :: cs => (true, cs)
      | cs => (false, cs)
    match Pattern.readRanges (body.length + 1) true (body.map fun c => (c, c == '\\')) with
    | some (ranges, rest) =>
      if ranges.any fun r => decide (r.2 < r.1) then throw .badRange
      goTo (rest.map (·.1))
      return .one (.set negated ranges)
    | none => throw (if body.isEmpty then .lastBracket else .openBracket)
  | '\\', d :: rest =>
    goTo rest
    match d with
    | 'n' => return .one (.char '\n')
    | 't' => return .one (.char '\t')
    | 'w' => return .one (.set false wordRanges)
    | 'W' => return .one (.set true wordRanges)
    | 's' => return .one (.set false (Pattern.classRanges "space"))
    | 'S' => return .one (.set true (Pattern.classRanges "space"))
    | 'b' => return .wordEdge true true
    | '<' => return .wordEdge true false
    | '>' => return .wordEdge false true
    | d =>
      if '1' ≤ d && d ≤ '9' then
        if (← get).groups < d.toNat - 48 then throw .badReference
        else return .again (d.toNat - 48)
      else return .one (.char d)
  | '\\', [] => throw .trailingBackslash
  | c, cs =>
    goTo cs
    return .one (.char c)

mutual

/-- Reads alternatives. -/
def readAlternatives (extended : Bool) : Nat → Reader Expression
  | 0 => return .nothing
  | fuel + 1 => do
    let e ← readSequence extended fuel true
    match operator? extended '|' (← get).rest with
    | some rest =>
      goTo rest
      return .either e (← readAlternatives extended fuel)
    | none => return e
  termination_by structural fuel => fuel

/-- Reads expressions one behind the other; `first` says whether none was read yet. -/
def readSequence (extended : Bool) : Nat → Bool → Reader Expression
  | 0, _ => return .nothing
  | fuel + 1, first => do
    let cs := (← get).rest
    if endsSequence extended cs then
      if (operator? extended ')' cs).isSome && (← get).depth = 0 then throw .closedGroup
      else return .nothing
    else
      let e ← readAtom extended fuel first
      let isAnchor := e = .lineStart
      let e ← if isAnchor && !extended then pure e else readRepeats extended (cs.length + 1) e
      let rest ← readSequence extended fuel (isAnchor && first)
      return if rest = .nothing then e else .sequence e rest
  termination_by structural fuel => fuel

/-- Reads one expression. -/
def readAtom (extended : Bool) : Nat → Bool → Reader Expression
  | 0, _ => return .nothing
  | fuel + 1, first => do
    let cs := (← get).rest
    match operator? extended '(' cs with
    | some rest =>
      let n := (← get).groups + 1
      set (⟨rest, n, (← get).depth + 1⟩ : Progress)
      let e ← readAlternatives extended fuel
      match operator? extended ')' (← get).rest with
      | some rest =>
        modify fun p => { p with rest := rest, depth := p.depth - 1 }
        return .group n e
      | none => throw .openGroup
    | none =>
      match cs with
      | [] => return .nothing
      | c :: cs =>
        if c = '^' && (first || extended) then
          goTo cs
          return .lineStart
        else if c = '$' && (extended || endsSequence extended cs) then
          goTo cs
          return .lineEnd
        else readOne c cs
  termination_by structural fuel => fuel

end

/-- Reads an expression, and the number of its groups. -/
def ofText (extended : Bool) (s : String) : Except Fault (Expression × Nat) :=
  let fuel := 4 * s.toList.length + 8
  match (readAlternatives extended fuel).run ⟨s.toList, 0, 0⟩ with
  | .ok (e, p) => .ok (e, p.groups)
  | .error f => .error f

/-- The expression of a text that stands for itself. -/
def literal (s : String) : Expression :=
  s.toList.foldr (fun c e => .sequence (.one (.char c)) e) .nothing

end Expression

end ClassViewer.Shell
