/-!
# Glob patterns

The patterns of ignore files. They are matched against the bytes of a path whose segments are parted
by slashes: `?` is one byte of a segment, `*` any number of them, `**` spans segments, brackets hold
sets and braces hold alternatives.

A pattern is matched piece by piece. What is kept of the pieces so far is the set of places they can
end at (`Piece.advance`), so that the time is bounded by the pattern times the text.
-/

namespace ClassViewer

namespace Glob

/-- The byte between segments. -/
def slash : UInt8 := 47

/-- One part of a pattern. -/
inductive Piece where
  /-- This byte. -/
  | byte (b : UInt8)
  /-- One byte of a segment. -/
  | any
  /-- Any bytes of a segment. -/
  | star
  /-- Nothing, or anything up to a slash: `**/` at the beginning. -/
  | leadingTree
  /-- A slash, or anything between two slashes: `/**/` inside. -/
  | middleTree
  /-- A slash and anything behind it: `/**` at the end. -/
  | trailingTree
  /-- Anything: the pattern `**`. -/
  | everything
  /-- One byte in the ranges, or outside of them. -/
  | set (negated : Bool) (ranges : List (UInt8 × UInt8))
  /-- One of the alternatives; nothing if there are none. -/
  | choice (alternatives : List (List Piece))

/-! ## Matching -/

/-- The places of a text a match can have come to: before its first byte, between two neighbours,
and behind the last. -/
abbrev Places := List Bool

/-- The places in either. -/
def Places.union (m n : Places) : Places := List.zipWith (· || ·) m n

/-- The place before a text. -/
def Places.start (s : List UInt8) : Places := true :: s.map fun _ => false

/-- Whether the place behind the text is among them. -/
def Places.atEnd (m : Places) : Bool := m.getLast?.getD false

/-- One byte further, over those that satisfy `p`. -/
def Places.over (p : UInt8 → Bool) (s : List UInt8) (m : Places) : Places :=
  false :: List.zipWith (fun b here => here && p b) s m

/-- Any number of bytes further, over those that satisfy `p`; `on` says whether the place before the
text was come to. -/
def Places.along (p : UInt8 → Bool) (on : Bool) : List UInt8 → Places → Places
  | b :: s, here :: m => (on || here) :: along p ((on || here) && p b) s m
  | _, here :: _ => [on || here]
  | _, [] => []

/-- Any number of bytes further. -/
def Places.on (s : List UInt8) (m : Places) : Places := m.along (fun _ => true) false s

/-- Over one slash. -/
def Places.overSlash (s : List UInt8) (m : Places) : Places := m.over (· == slash) s

/-- Whether a byte is in one of the ranges. -/
def inRanges (ranges : List (UInt8 × UInt8)) (b : UInt8) : Bool :=
  ranges.any fun r => decide (r.1 ≤ b ∧ b ≤ r.2)

mutual

/-- The places behind a piece. -/
def Piece.advance (s : List UInt8) : Piece → Places → Places
  | .byte b, m => m.over (· == b) s
  | .any, m => m.over (· != slash) s
  | .star, m => m.along (· != slash) false s
  | .leadingTree, m => m.union ((m.on s).overSlash s)
  | .middleTree, m => (m.overSlash s).union (((m.overSlash s).on s).overSlash s)
  | .trailingTree, m => (m.overSlash s).on s
  | .everything, m => m.on s
  | .set negated ranges, m => m.over (fun b => inRanges ranges b != negated) s
  | .choice alternatives, m => if alternatives.isEmpty then m else advanceAny s alternatives m

/-- The places behind pieces in sequence. -/
def advanceAll (s : List UInt8) : List Piece → Places → Places
  | [], m => m
  | p :: ps, m => advanceAll s ps (p.advance s m)

/-- The places behind any of the alternatives. -/
def advanceAny (s : List UInt8) : List (List Piece) → Places → Places
  | [], m => m.map fun _ => false
  | ps :: rest, m => (advanceAll s ps m).union (advanceAny s rest m)

end

/-! ## Reading -/

/-- Why a text is no pattern. -/
inductive Fault where
  | unclosedBraces
  | unopenedBraces
  | badRange (low high : Char)
  | danglingEscape
  deriving DecidableEq, Repr

/-- The words for a fault. -/
def Fault.message : Fault → String
  | unclosedBraces =>
    "unclosed alternate group; missing '\x7d' (maybe escape '\x7b' with '[\x7b]'?)"
  | unopenedBraces =>
    "unopened alternate group; missing '\x7b' (maybe escape '\x7d' with '[\x7d]'?)"
  | badRange low high =>
    "invalid range; '" ++ String.singleton low ++ "' > '" ++ String.singleton high ++ "'"
  | danglingEscape => "dangling '\\'"

/-- The bytes of a character. -/
def bytesOf (c : Char) : List UInt8 := (String.singleton c).toUTF8.toList

/-- The pieces that stand for the given character. -/
def literal (c : Char) : List Piece := (bytesOf c).map .byte

/-- The byte ranges of a range of characters. Bytes are what is matched, so a character of several
bytes puts each of them into the set, and a range spans from the last byte of one to the first of
the other. -/
def byteRanges (low high : Char) : List (UInt8 × UInt8) :=
  if low = high then (bytesOf low).map fun b => (b, b)
  else
    match (bytesOf low).getLast?, (bytesOf high).head? with
    | some l, some h =>
      (bytesOf low).dropLast.map (fun b => (b, b)) ++ [(l, h)] ++
        (bytesOf high).tail.map fun b => (b, b)
    | _, _ => []

/-- A set being read: the ranges so far, last one first, and whether a dash was just seen that may
join the last one with the next character. -/
structure SetState where
  ranges : List (Char × Char)
  joining : Bool

/-- What reading a set comes to. -/
inductive SetOutcome where
  | closed (ranges : List (Char × Char)) (rest : List Char)
  | unclosed
  | badRange (low high : Char)

/-- Reads the characters of a set behind its opening bracket and negation. A bracket that closes, or
a dash, stands for itself where it comes first. -/
def readSet (first : Bool) (st : SetState) : List Char → SetOutcome
  | [] => .unclosed
  | c :: cs =>
    if c = ']' ∧ !first then
      .closed (if st.joining then ('-', '-') :: st.ranges else st.ranges) cs
    else if c = '-' ∧ !first ∧ !st.joining then readSet false { st with joining := true } cs
    else match st.joining, st.ranges with
      | true, (low, _) :: ranges =>
        if c < low then .badRange low c else readSet false ⟨(low, c) :: ranges, false⟩ cs
      | _, ranges => readSet false ⟨(c, c) :: ranges, false⟩ cs

/-- A negation at the beginning of a set, and what is behind it. -/
def readNegation : List Char → Bool × List Char
  | '!' :: cs => (true, cs)
  | '^' :: cs => (true, cs)
  | cs => (false, cs)

/-- What was read so far at one level of braces: the alternatives that are complete, last one first,
and the one being read, last piece first. -/
structure Level where
  complete : List (List Piece)
  current : List Piece

/-- The level at its beginning. -/
def Level.start : Level := ⟨[], []⟩

/-- Adds pieces to the alternative being read. -/
def Level.push (l : Level) (ps : List Piece) : Level :=
  { l with current := ps.reverse ++ l.current }

/-- Replaces the last piece of the alternative being read by one that spans segments; one that
already spans them at the beginning or the end stays. -/
def Level.span (l : Level) (p : Piece) : Level :=
  match l.current with
  | .leadingTree :: _ | .trailingTree :: _ => l
  | ps => { l with current := p :: ps.tail }

/-- Ends the alternative being read. -/
def Level.next (l : Level) : Level := ⟨l.current.reverse :: l.complete, []⟩

/-- Whether a piece stands for nothing. -/
def Piece.isVoid : Piece → Bool
  | .choice [] => true
  | _ => false

/-- The choice among the alternatives of a level; one that stands for nothing is none. -/
def Level.choice (l : Level) : Piece :=
  .choice (l.next.complete.reverse.filter fun ps => !ps.all Piece.isVoid)

/-- A pattern being read: the innermost open braces, the levels around them, and whether a bracket
can still begin a set. -/
structure Reader where
  level : Level
  outer : List Level
  sets : Bool

/-- The reader before a pattern. -/
def Reader.start : Reader := ⟨Level.start, [], true⟩

/-- Adds pieces at the innermost level. -/
def Reader.push (r : Reader) (ps : List Piece) : Reader := { r with level := r.level.push ps }

/-- What two stars stand for between the characters `before` and `after`, and whether the character
behind them belongs to it. They span segments only where slashes or the ends of the pattern or of an
alternative set them off; a comma or a brace before them that is no mark of its own counts as
well. -/
def Reader.tree (r : Reader) (before after : Option Char) : Reader × Bool :=
  let inside := !r.outer.isEmpty
  let plain := (r.push [.star, .star], false)
  if r.level.current.isEmpty then
    if after.isNone || after == some '/' then (r.push [.leadingTree], true) else plain
  else if before == some '/' || (inside && (before == some ',' || before == some '{')) then
    if after.isNone || (inside && (after == some ',' || after == some '}')) then
      ({ r with level := r.level.span .trailingTree }, false)
    else if after == some '/' then ({ r with level := r.level.span .middleTree }, true)
    else plain
  else plain

/-- Reads a pattern from the character behind `before`; `fuel` bounds the characters. -/
def read : Nat → Option Char → Reader → List Char → Except Fault Reader
  | 0, _, r, _ => .ok r
  | _ + 1, _, r, [] => .ok r
  | fuel + 1, before, r, c :: cs =>
    match c with
    | '?' => read fuel (some c) (r.push [.any]) cs
    | '*' =>
      match cs with
      | '*' :: cs =>
        let (r, takes) := r.tree before cs.head?
        if takes then read fuel (some (cs.head?.getD '*')) r cs.tail
        else read fuel (some '*') r cs
      | cs => read fuel (some c) (r.push [.star]) cs
    | '[' =>
      let (negated, body) := readNegation cs
      match if r.sets then readSet true ⟨[], false⟩ body else .unclosed with
      | .closed ranges rest =>
        let ranges := ranges.reverse.flatMap fun r => byteRanges r.1 r.2
        read fuel (some ']') (r.push [.set negated ranges]) rest
      | .unclosed => read fuel (some c) { r.push (literal c) with sets := false } cs
      | .badRange low high => .error (.badRange low high)
    | '{' => read fuel (some c) { r with level := Level.start, outer := r.level :: r.outer } cs
    | '}' =>
      match r.outer with
      | [] => .error .unopenedBraces
      | above :: outer =>
        let level := above.push [r.level.choice]
        read fuel (some c) { r with level := level, outer := outer } cs
    | ',' =>
      if r.outer.isEmpty then read fuel (some c) (r.push (literal c)) cs
      else read fuel (some c) { r with level := r.level.next } cs
    | '\\' =>
      match cs with
      | [] => .error .danglingEscape
      | e :: cs => read fuel (some e) (r.push (literal e)) cs
    | c => read fuel (some c) (r.push (literal c)) cs

end Glob

/-- A pattern: its pieces in order. -/
structure Glob where
  pieces : List Glob.Piece

namespace Glob

/-- Reads a pattern. -/
def parse (s : String) : Except Fault Glob :=
  match read (s.toList.length + 1) none Reader.start s.toList with
  | .error f => .error f
  | .ok r =>
    if !r.outer.isEmpty then .error .unclosedBraces
    else match r.level.current with
      | [.leadingTree] => .ok ⟨[.everything]⟩
      | ps => .ok ⟨ps.reverse⟩

/-- Whether the pattern matches a text as a whole. -/
def fits (g : Glob) (s : String) : Bool :=
  let bytes := s.toUTF8.toList
  (advanceAll bytes g.pieces (Places.start bytes)).atEnd

end Glob

end ClassViewer
