import ClassViewer.Shell.Expression
import ClassViewer.Shell.Utility.Options

/-!
# Searching lines
-/

namespace ClassViewer.Shell

open Session

/-- The expression of the patterns of a search: a line has to match one of them. -/
def searchExpression (g : Given) (patterns : List String) : Except Expression.Fault Expression := do
  let es ← (patterns.flatMap (Text.split '\n')).mapM fun p =>
    if g.has 'F' then .ok (Expression.literal p)
    else (Expression.ofText (g.has 'E') p).map (·.1)
  let any := match es with
    | [] => .nothing
    | e :: rest => rest.foldl .either e
  let word := if g.has 'w' then
      .sequence (.wordEdge true false) (.sequence any (.wordEdge false true))
    else any
  return if g.has 'x' then .sequence .lineStart (.sequence word .lineEnd) else word

/-- The lines a search selects, with their numbers. -/
def selected (g : Given) (e : Expression) (text : String) : List (String × Nat) :=
  let folded := g.has 'i' || g.has 'y'
  let found := (linesOf text).zipIdx.filter fun l =>
    (e.find? folded l.1.toList).isSome != g.has 'v'
  match (g.value? 'm').map fun n => digitsValue n.toList with
  | some n => found.take n
  | none => found

/-- What is shown of a selected line: the line, or the parts of it that match. -/
def shownParts (g : Given) (e : Expression) (line : String) : List String :=
  if g.has 'o' then
    if g.has 'v' then []
    else ((e.findAll (g.has 'i') line.toList).filter (·.length != 0)).map fun m =>
      String.ofList ((line.toList.drop m.start).take m.length)
  else [line]

/-- Shows what was found in one file; whether there was something. -/
def showFound (g : Given) (e : Expression) (titled : Bool) (name text : String) :
    SessionM Bool := do
  let label := if name = "-" then "(standard input)" else name
  let title := if titled then label ++ ":" else ""
  let found := selected g e text
  if g.has 'q' then pure ()
  else if g.has 'l' then
    if !found.isEmpty then say (label ++ "\n")
  else if g.has 'L' then
    if found.isEmpty then say (label ++ "\n")
  else if g.has 'c' then say (title ++ toString found.length ++ "\n")
  else if Text.holds (Char.ofNat 0) text && !g.has 'a' then
    if !found.isEmpty then complain ("grep: " ++ label ++ ": binary file matches")
  else
    found.forM fun (line, i) =>
      let number := if g.has 'n' then toString (i + 1) ++ ":" else ""
      (shownParts g e line).forM fun part => say (title ++ number ++ part ++ "\n")
  return !found.isEmpty

/-- Searches files, or the standard input. -/
def searchFiles (g : Given) (e : Expression) (files : List String) : SessionM Nat := do
  let names := if files.isEmpty then ["-"] else files
  let titled := (1 < names.length || g.has 'H') && !g.has 'h'
  let outcomes ← names.mapM fun name => do
    match ← contentOf name with
    | .ok text => return (← showFound g e titled name text, false)
    | .error err =>
      if !g.has 's' then complain ("grep: " ++ name ++ ": " ++ reason err)
      return (false, true)
  let hit := outcomes.any (·.1)
  return if hit && g.has 'q' then 0 else if outcomes.any (·.2) then 2 else if hit then 0 else 1

def grep : Utility := withOptions "grep" "EFGPivcnlLqsxwohHabrRyzUZT" "emABCdf"
    [("ignore-case", 'i'), ("invert-match", 'v'), ("count", 'c'), ("quiet", 'q'),
      ("extended-regexp", 'E'), ("fixed-strings", 'F'), ("only-matching", 'o'),
      ("line-number", 'n'), ("text", 'a')] 2 fun g => do
  let (patterns, files) := match g.values 'e', g.operands with
    | [], p :: files => ([p], files)
    | [], [] => ([], [])
    | ps, files => (ps, files)
  if patterns.isEmpty then
    complain "Usage: grep [OPTION]... PATTERNS [FILE]...\nTry 'grep --help' for more information."
    return 2
  else
    match searchExpression g patterns with
    | .ok e => searchFiles g e files
    | .error fault =>
      complain ("grep: " ++ fault.message)
      return 2

end ClassViewer.Shell
