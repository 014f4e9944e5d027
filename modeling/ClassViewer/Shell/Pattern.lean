import ClassViewer.Text.Basic

/-!
# Shell patterns

The patterns of choices, of parameter expansions and of file names: `*` is any text, `?` any
character, brackets hold sets. A quoted character stands for itself, and so does one behind a
backslash.

`tailFits` answers for all ends of a text at once, one piece after the other, so that a pattern with
many stars costs no more than the product of its length and the length of the text.
-/

namespace ClassViewer.Shell

/-- A character of an expanded word, and whether it was quoted. -/
abbrev Marked := Char × Bool

namespace Pattern

/-- One part of a pattern. -/
inductive Piece where
  | char (c : Char)
  | any
  | star
  | set (negated : Bool) (ranges : List (Char × Char))
  deriving DecidableEq, Repr

/-- Whether a set holds a character. -/
def holds (ranges : List (Char × Char)) (c : Char) : Bool :=
  ranges.any fun r => decide (r.1 ≤ c ∧ c ≤ r.2)

/-- Whether a piece accepts a character. -/
def Piece.accepts : Piece → Char → Bool
  | .char d, c => c == d
  | .any, _ => true
  | .star, _ => true
  | .set negated ranges, c => holds ranges c != negated

/-- For a piece of one character: an end fits if its first character is accepted and the rest of it
fits. -/
def afterOne (p : Piece) : List Char → List Bool → List Bool
  | c :: cs, _ :: bs => (p.accepts c && bs.headD false) :: afterOne p cs bs
  | _, _ => [false]

/-- Whether the pieces match the whole text, the text without its first character, and so on to the
empty text. -/
def tailFits (cs : List Char) : List Piece → List Bool
  | [] => cs.map (fun _ => false) ++ [true]
  | .star :: ps => (tailFits cs ps).foldr (fun b acc => (b || acc.headD false) :: acc) []
  | p :: ps => afterOne p cs (tailFits cs ps)

/-- Whether the pieces match all of a text. -/
def fits (ps : List Piece) (cs : List Char) : Bool := (tailFits cs ps).headD false

/-- Whether the pieces match the empty text, its first character, and so on to the whole text. -/
def headFits (cs : List Char) (ps : List Piece) : List Bool :=
  (tailFits cs.reverse ps.reverse).reverse

/-! ## Reading -/

/-- The characters of a class. -/
def classRanges : String → List (Char × Char)
  | "alpha" => [('a', 'z'), ('A', 'Z')]
  | "digit" => [('0', '9')]
  | "alnum" => [('a', 'z'), ('A', 'Z'), ('0', '9')]
  | "upper" => [('A', 'Z')]
  | "lower" => [('a', 'z')]
  | "space" => [(' ', ' '), ('\t', '\r')]
  | "blank" => [(' ', ' '), ('\t', '\t')]
  | "punct" => [('!', '/'), (':', '@'), ('[', Char.ofNat 96), (Char.ofNat 123, '~')]
  | "print" => [(' ', '~')]
  | "graph" => [('!', '~')]
  | "cntrl" => [(Char.ofNat 0, Char.ofNat 31), (Char.ofNat 127, Char.ofNat 127)]
  | "xdigit" => [('0', '9'), ('a', 'f'), ('A', 'F')]
  | _ => []

/-- Takes the name of a class and its end off, behind its beginning `[:`. -/
def className? (cs : List Marked) : Option (String × List Marked) :=
  let name := cs.takeWhile fun m => m.1.isAlpha
  match cs.drop name.length with
  | (':', _) :: (']', _) :: rest => some (String.ofList (name.map (·.1)), rest)
  | _ => none

/-- One member of a set: its ranges and the characters behind it. -/
def member : List Marked → Option (List (Char × Char) × List Marked)
  | [] => none
  | ('\\', false) :: cs => cs.head?.map fun m => ([(m.1, m.1)], cs.tail)
  | (c, quoted) :: cs =>
    let named := match cs with
      | (':', false) :: rest => if c = '[' ∧ !quoted then className? rest else none
      | _ => none
    match named, cs with
    | some (name, rest), _ => some (classRanges name, rest)
    | none, ('-', false) :: (d, q) :: rest =>
      if d = ']' ∧ !q then some ([(c, c)], cs) else some ([(c, d)], rest)
    | none, cs => some ([(c, c)], cs)

/-- Reads the ranges of a set up to its bracket; a bracket that comes first stands for itself.
`fuel` bounds the members. -/
def readRanges : Nat → Bool → List Marked → Option (List (Char × Char) × List Marked)
  | 0, _, _ => none
  | fuel + 1, first, cs =>
    match first, cs with
    | false, (']', false) :: rest => some ([], rest)
    | _, cs => do
      let (ranges, rest) ← member cs
      let (more, rest) ← readRanges fuel false rest
      some (ranges ++ more, rest)

/-- Reads a pattern whose sets are negated by the mark; `fuel` bounds its characters. -/
def read (negation : Char) : Nat → List Marked → List Piece
  | 0, _ => []
  | _ + 1, [] => []
  | fuel + 1, (c, quoted) :: cs =>
    if quoted then .char c :: read negation fuel cs
    else match c with
      | '*' => .star :: read negation fuel cs
      | '?' => .any :: read negation fuel cs
      | '\\' =>
        match cs with
        | (d, _) :: cs => .char d :: read negation fuel cs
        | [] => [.char c]
      | '[' =>
        let (negated, body) := match cs with
          | (d, false) :: rest => if d = negation then (true, rest) else (false, cs)
          | cs => (false, cs)
        match readRanges (body.length + 1) true body with
        | some (ranges, rest) => .set negated ranges :: read negation fuel rest
        | none => .char c :: read negation fuel cs
      | c => .char c :: read negation fuel cs

end Pattern

/-- The pieces of a pattern. -/
def patternOf (cs : List Marked) : List Pattern.Piece := Pattern.read '!' (cs.length + 1) cs

/-- The pieces of a pattern without quotes. -/
def patternOfText (s : String) : List Pattern.Piece := patternOf (s.toList.map fun c => (c, false))

/-- Whether a word asks to be matched against file names. -/
def isPattern (cs : List Marked) : Bool :=
  cs.any fun m => !m.2 && (m.1 == '*' || m.1 == '?' || m.1 == '[')

/-- The text without the shortest or longest beginning that fits. -/
def withoutHead (longest : Bool) (ps : List Pattern.Piece) (cs : List Char) : List Char :=
  let cuts := (Pattern.headFits cs ps).zipIdx.filter (·.1)
  match if longest then cuts.getLast? else cuts.head? with
  | some (_, i) => cs.drop i
  | none => cs

/-- The text without the shortest or longest end that fits. -/
def withoutTail (longest : Bool) (ps : List Pattern.Piece) (cs : List Char) : List Char :=
  let cuts := (Pattern.tailFits cs ps).zipIdx.filter (·.1)
  match if longest then cuts.head? else cuts.getLast? with
  | some (_, i) => cs.take i
  | none => cs

end ClassViewer.Shell
