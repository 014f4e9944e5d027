import ClassViewer.Shell.Pattern
import ClassViewer.Shell.Printf
import ClassViewer.Shell.Utility.Options

/-!
# Changing characters
-/

namespace ClassViewer.Shell

open Session

/-- All characters of some ranges, in order. -/
def charsOf (ranges : List (Char × Char)) : List Char :=
  (List.range 256).map Char.ofNat |>.filter (Pattern.holds ranges)

/-- Reads a character or an escape. -/
def namedChar : List Char → Option (Char × List Char)
  | '\\' :: c :: cs =>
    if Number.isOctal c then
      let ds := ((c :: cs).take 3).takeWhile Number.isOctal
      some (Char.ofNat (Number.value 8 ds % 256), (c :: cs).drop ds.length)
    else some ((escapeChar c).getD c, cs)
  | c :: cs => some (c, cs)
  | [] => none

/-- Reads a class such as `[:alpha:]`: its name, and what is behind it. -/
def namedClass? (cs : List Char) : Option (String × List Char) :=
  match cs with
  | '[' :: ':' :: rest =>
    let name := rest.takeWhile Char.isAlpha
    match rest.drop name.length with
    | ':' :: ']' :: after => some (String.ofList name, after)
    | _ => none
  | _ => none

/-- Reads a repetition such as `[x*3]`: the character, how often, and what is behind it. -/
def repetition? (cs : List Char) : Option (Char × Nat × List Char) :=
  match cs with
  | '[' :: rest => do
    let (c, rest) ← namedChar rest
    match rest with
    | '*' :: rest =>
      let digits := rest.takeWhile Char.isDigit
      match rest.drop digits.length with
      | ']' :: after => some (c, digitsValue digits, after)
      | _ => none
    | _ => none
  | _ => none

/-- Reads a set; `fill` is how many characters a repetition without a count gives. -/
def namedChars (fill : Nat) : Nat → List Char → Except String (List Char)
  | 0, _ => .ok []
  | _ + 1, [] => .ok []
  | fuel + 1, cs =>
    match namedClass? cs, repetition? cs with
    | some (name, rest), _ =>
      match Pattern.classRanges name with
      | [] => .error ("invalid character class " ++ cited name)
      | ranges => do return charsOf ranges ++ (← namedChars fill fuel rest)
    | none, some (c, n, rest) => do
      return List.replicate (if n = 0 then fill else n) c ++ (← namedChars fill fuel rest)
    | none, none =>
      match namedChar cs with
      | none => .ok []
      | some (a, '-' :: rest) =>
        match namedChar rest with
        | none => .ok [a, '-']
        | some (b, after) =>
          if b < a then
            .error ("range-endpoints of " ++ between (String.ofList [a, '-', b]) ++
              " are in reverse collating sequence order")
          else do
            let run := (List.range (b.toNat + 1 - a.toNat)).map fun i => Char.ofNat (a.toNat + i)
            return run ++ (← namedChars fill fuel after)
      | some (a, rest) => do return a :: (← namedChars fill fuel rest)

/-- The character that stands in place of another; the last one of the second set serves for all
that have no partner. -/
def substitute (source target : List Char) (c : Char) : Char :=
  match ((source.zipIdx.filter fun p => p.1 == c).getLast?).map (·.2) with
  | some i => target.getD i (target.getLast?.getD c)
  | none => c

/-- The neighbours that are the same character of the set, once. -/
def squeeze (held : List Char) (cs : List Char) : List Char :=
  cs.foldr (fun c acc => match acc with
    | d :: _ => if c = d && held.contains c then acc else c :: acc
    | [] => [c]) []

/-- The characters that are not in a set. -/
def complementOf (cs : List Char) : List Char :=
  ((List.range 256).map Char.ofNat).filter fun c => !cs.contains c

/-- What becomes of a text. -/
def translate (g : Given) (first second : List Char) (two : Bool) (text : List Char) : List Char :=
  let deletes := g.has 'd'
  let text := if deletes then text.filter fun c => !first.contains c
    else if two then
      let source := if g.has 't' then first.take second.length else first
      text.map (substitute source second)
    else text
  if g.has 's' then squeeze (if two then second else first) text else text

/-- The names of the classes in a set. -/
def classesIn : List Char → List String
  | [] => []
  | c :: cs => ((namedClass? (c :: cs)).map (·.1)).toList ++ classesIn cs

/-- Whether a class is one of the letters of a case. -/
def isCase (name : String) : Bool := name == "upper" || name == "lower"

/-- Whether a text ends in a backslash that escapes nothing. -/
def endsInBackslash (s : String) : Bool :=
  (s.toList.reverse.takeWhile (· == '\\')).length % 2 == 1

/-- Changes the input by one or two sets. -/
def translateInput (g : Given) (a : String) (b : Option String) : SessionM Nat := do
  let wrong (message : String) : SessionM Nat := do
    complain ("tr: " ++ message)
    return 1
  (a :: b.toList).forM fun s =>
    if endsInBackslash s then
      complain "tr: warning: an unescaped backslash at end of string is not portable"
    else pure ()
  match namedChars 0 (a.toList.length + 1) a.toList with
  | .error message => wrong message
  | .ok first =>
    let first := if g.has 'c' || g.has 'C' then complementOf first else first
    let second := (b.getD "").toList
    match namedChars (first.length - second.length) (second.length + 1) second with
    | .error message => wrong message
    | .ok second =>
      if b = some "" && !g.has 'd' && !g.has 't' && !first.isEmpty then
        wrong "when not truncating set1, string2 must be non-empty"
      else if !g.has 'd' && (classesIn (b.getD "").toList).any (!isCase ·) then
        wrong ("when translating, the only character classes that may appear in\n" ++
          "string2 are 'upper' and 'lower'")
      else
        let text := (Text.Octets.ofBytes (← takeInput)).toList
        say (String.ofList (translate g first second b.isSome text))
        return 0

def tr : Utility := withOptions "tr" "cCdst" ""
    [("delete", 'd'), ("squeeze-repeats", 's'), ("complement", 'c'), ("truncate-set1", 't')] 1
    fun g => do
  let deletes := g.has 'd'
  let squeezes := g.has 's'
  match g.operands with
  | [] => misuse "tr" "missing operand" 1
  | [only] =>
    if !deletes && !squeezes then
      misuse "tr" ("missing operand after " ++ cited only ++
        "\nTwo strings must be given when translating.") 1
    else if deletes && squeezes then
      misuse "tr" ("missing operand after " ++ cited only ++
        "\nTwo strings must be given when both deleting and squeezing repeats.") 1
    else translateInput g only none
  | [a, b] =>
    if deletes && !squeezes then
      misuse "tr" ("extra operand " ++ cited b ++
        "\nOnly one string may be given when deleting without squeezing repeats.") 1
    else translateInput g a (some b)
  | _ :: _ :: extra :: _ => misuse "tr" ("extra operand " ++ cited extra) 1

end ClassViewer.Shell
