import ClassViewer.Disk.Glob
import ClassViewer.Text.Basic
import ClassViewer.Text.Hex

/-!
# Limits of glob patterns

The patterns of an ignore file are tried together by one automaton that is built from a regular
expression for each. An expression whose parts lie too deep in each other is not read, and an
automaton that would be too large is not built. Either way no pattern of the file holds
(`Glob.refusal?`).

Patterns that are plain names, beginnings or endings need no automaton, and those that have to end
in an extension have one each.
-/

namespace ClassViewer.Glob

/-! ## Depth -/

/-- How many parts a piece is of the sequence it stands in. -/
def Piece.width : Piece → Nat
  | .trailingTree => 2
  | .choice [] => 0
  | _ => 1

mutual

/-- How deep the parts of a piece lie in each other. -/
def Piece.depth : Piece → Nat
  | .byte _ => 0
  | .any => 1
  | .star => 2
  | .leadingTree => 4
  | .middleTree => 4
  | .trailingTree => 1
  | .everything => 1
  | .set _ ranges => if ranges.length < 2 then 1 else 2
  | .choice alternatives =>
    if alternatives.isEmpty then 0
    else (if alternatives.length < 2 then 1 else 2) + depthAny alternatives

/-- The depth of the deepest piece of a sequence. -/
def depthAll : List Piece → Nat
  | [] => 0
  | p :: ps => max p.depth (depthAll ps)

/-- The depth of the deepest alternative; one of several parts lies one deeper. -/
def depthAny : List (List Piece) → Nat
  | [] => 0
  | ps :: rest =>
    max (depthAll ps + (if (ps.map Piece.width).foldl (· + ·) 0 < 2 then 0 else 1)) (depthAny rest)

end

/-- How deep the parts of an expression may lie in each other. -/
def depthLimit : Nat := 250

/-! ## Size -/

/-- The bytes of a state of an automaton. -/
def stateSize : Nat := 32

/-- How many ranges the bytes that satisfy `p` make up. -/
def rangeCount (p : UInt8 → Bool) : Nat :=
  let bytes := (List.range 256).map fun n => p n.toUInt8
  (List.zipWith (fun before here => here && !before) (false :: bytes) bytes).count true

/-- The size of states that take one byte of those that satisfy `p`. -/
def classSize (p : UInt8 → Bool) : Nat :=
  if ((List.range 256).filter fun n => p n.toUInt8).length = 1 then stateSize
  else 2 * stateSize + 8 * rangeCount p

/-- The size of states that take one of `n` ways. -/
def choiceSize (n : Nat) : Nat := 2 * stateSize + 4 * n

/-- The size of states that go over and over through others of that size. -/
def loopSize (inner : Nat) : Nat := stateSize + 8 + inner

/-- The bytes a piece that stands for one byte can stand for. -/
def Piece.single? : Piece → Option (UInt8 → Bool)
  | .byte b => some (· == b)
  | .any => some (· != slash)
  | .set negated ranges => some fun b => inRanges ranges b != negated
  | _ => none

/-- The bytes that alternatives of one byte each can stand for. -/
def single? : List (List Piece) → Option (UInt8 → Bool)
  | [] => some fun _ => false
  | [p] :: rest =>
    match p.single?, single? rest with
    | some f, some g => some fun b => f b || g b
    | _, _ => none
  | _ => none

mutual

/-- The size of the states for a piece. -/
def Piece.size : Piece → Nat
  | .byte _ => stateSize
  | .any => classSize (· != slash)
  | .star => loopSize (classSize (· != slash))
  | .leadingTree =>
    choiceSize 2 + (choiceSize 2 + stateSize) + (loopSize (classSize fun _ => true) + stateSize)
  | .middleTree =>
    choiceSize 2 + stateSize + (stateSize + loopSize (classSize fun _ => true) + stateSize)
  | .trailingTree => stateSize + loopSize (classSize fun _ => true)
  | .everything => loopSize (classSize fun _ => true)
  | .set negated ranges => classSize fun b => inRanges ranges b != negated
  | .choice alternatives =>
    match single? alternatives with
    | some p => if alternatives.isEmpty then 0 else classSize p
    | none =>
      (if alternatives.length < 2 then 0 else choiceSize alternatives.length) +
        sizeAny alternatives

/-- The size of the states for pieces in sequence. -/
def sizeAll : List Piece → Nat
  | [] => 0
  | p :: ps => p.size + sizeAll ps

/-- The size of the states for all alternatives. -/
def sizeAny : List (List Piece) → Nat
  | [] => 0
  | ps :: rest => sizeAll ps + sizeAny rest

end

/-- The largest size of an automaton. -/
def sizeLimit : Nat := 10 * 1024 * 1024

/-- The size of the automaton for patterns: each has a beginning, an end and a mark of its own. -/
def automatonSize (gs : List Glob) : Nat :=
  stateSize + (if gs.length < 2 then 0 else choiceSize gs.length) +
    (gs.map fun g => 5 * stateSize + sizeAll g.pieces).foldl (· + ·) 0

/-! ## Expressions -/

/-- A byte as it is written in an expression. -/
def byteSource (b : UInt8) : String :=
  let c := Char.ofNat b.toNat
  if 128 ≤ b then "\\x" ++ Text.toHex ⟨#[b]⟩
  else if Text.holds c "\\.+*?()|[]\x7b\x7d^$#&-~" then String.ofList ['\\', c]
  else String.singleton c

/-- A range of bytes as it is written in an expression. -/
def rangeSource (r : UInt8 × UInt8) : String :=
  if r.1 = r.2 then byteSource r.1 else byteSource r.1 ++ "-" ++ byteSource r.2

mutual

/-- The expression for a piece. -/
def Piece.source : Piece → String
  | .byte b => byteSource b
  | .any => "[^/]"
  | .star => "[^/]*"
  | .leadingTree => "(?:/?|.*/)"
  | .middleTree => "(?:/|/.*/)"
  | .trailingTree => "/.*"
  | .everything => ".*"
  | .set negated ranges =>
    "[" ++ (if negated then "^" else "") ++ Text.join "" (ranges.map rangeSource) ++ "]"
  | .choice alternatives =>
    if alternatives.isEmpty then "" else "(?:" ++ Text.join "|" (sourcesOf alternatives) ++ ")"

/-- The expression for pieces in sequence. -/
def sourceOf : List Piece → String
  | [] => ""
  | p :: ps => p.source ++ sourceOf ps

/-- The expressions for alternatives. -/
def sourcesOf : List (List Piece) → List String
  | [] => []
  | ps :: rest => sourceOf ps :: sourcesOf rest

end

/-- The expression for a pattern. -/
def source (g : Glob) : String := "(?-u)^" ++ sourceOf g.pieces ++ "$"

/-! ## Refusals -/

/-- How a pattern is tried. -/
inductive Form where
  /-- By comparing names, beginnings or endings. -/
  | plain
  /-- By an automaton of its own, on names with its extension. -/
  | extended
  /-- By the automaton of the file. -/
  | general
  deriving DecidableEq

/-- Whether a piece is a byte that satisfies `p`. -/
def Piece.isByte (p : UInt8 → Bool) : Piece → Bool
  | .byte b => p b
  | _ => false

/-- The byte before an extension. -/
def dot : UInt8 := 46

/-- Whether pieces are a name at any depth that is only known by its extension. -/
def isExtension : List Piece → Bool
  | .leadingTree :: .star :: .byte b :: rest =>
    b == dot && rest.all (Piece.isByte fun c => c != dot && c != slash)
  | _ => false

/-- Whether pieces are compared byte by byte. -/
def isPlain (ps : List Piece) : Bool :=
  let isLiteral (ps : List Piece) : Bool := ps.all (Piece.isByte fun _ => true)
  match ps, ps.getLast? with
  | .leadingTree :: rest, _ => (isLiteral rest && !rest.isEmpty) || isExtension ps
  | ps, some .trailingTree => isLiteral ps.dropLast
  | ps, _ => isLiteral ps

/-- Whether pieces end in an extension. -/
def endsInExtension (ps : List Piece) : Bool :=
  match ps.reverse.dropWhile (Piece.isByte fun b => b != dot && b != slash) with
  | p :: _ => p.isByte (· == dot)
  | [] => false

/-- How the pattern is tried. -/
def form (g : Glob) : Form :=
  if isPlain g.pieces then .plain
  else if endsInExtension g.pieces then .extended
  else .general

/-- Why there is no automaton for patterns, if there is none. -/
def automatonFault? (gs : List Glob) : Option String :=
  if gs.any fun g => depthLimit < depthAll g.pieces + 1 then some "error parsing pattern 0"
  else if sizeLimit < automatonSize gs then some "error building NFA"
  else none

/-- Why the patterns of a file cannot be tried, if they cannot. -/
def refusal? (gs : List Glob) : Option String :=
  let own := (gs.filter (·.form = .extended)).findSome? fun g =>
    (automatonFault? [g]).map fun fault => "error parsing glob '" ++ g.source ++ "': " ++ fault
  own.or (automatonFault? (gs.filter (·.form = .general)))

end ClassViewer.Glob
