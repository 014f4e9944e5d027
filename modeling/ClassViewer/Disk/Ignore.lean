import ClassViewer.Disk.Files
import ClassViewer.Disk.Glob.Limits
import ClassViewer.Text.Blank
import ClassViewer.Text.ByteLines

/-!
# Ignore files

A file named `.ignore` holds rules for what lies in and below its directory. The last rule of a file
that fits decides, and of several files the nearest one in which a rule fits.

Rules speak of paths as they are written. A `Book` knows the path its directory is written with, and
takes it off the path of an entry before the rules are tried.
-/

namespace ClassViewer

namespace Ignore

/-- The name of the files with rules. -/
def fileName : String := ".ignore"

/-- A rule: what fits its pattern is ignored, or exempt from being so. -/
structure Rule where
  pattern : Glob
  exempts : Bool
  directoriesOnly : Bool

/-- What is wrong with a line of a file. -/
inductive Problem where
  /-- The rule is no pattern. -/
  | pattern (rule : String) (fault : Glob.Fault)
  /-- The line, and with it the rest of the file, cannot be read. -/
  | notUtf8
  deriving DecidableEq, Repr

/-- The words for a problem. -/
def Problem.message : Problem → String
  | pattern rule fault => "error parsing glob '" ++ rule ++ "': " ++ fault.message
  | notUtf8 => IoError.notUtf8.message

/-! ## Lines -/

/-- A rule as it is written: whether it exempts, whether it is bound to the directory of its file,
and its pattern. -/
structure Written where
  exempts : Bool
  anchored : Bool
  body : String

/-- The line without white space at its end, unless the last blank is escaped. -/
def trimLine (line : String) : String :=
  if Text.endsWith "\\ " line then line else Text.trimEnd line

/-- Takes the marks at the beginning of a line off. A mark behind a backslash is part of the
pattern. -/
def ofMarks (line : String) : Written :=
  if Text.startsWith "\\!" line || Text.startsWith "\\#" line then
    ⟨false, false, (Text.dropHead? "\\" line).getD line⟩
  else
    let (exempts, line) := match Text.dropHead? "!" line with
      | some rest => (true, rest)
      | none => (false, line)
    match Text.dropHead? "/" line with
    | some rest => ⟨exempts, true, rest⟩
    | none => ⟨exempts, false, line⟩

/-- The pattern text with what the place of its slashes means: without any it fits at every depth,
and two stars at its end do not stand for the directory itself. -/
def patternText (anchored : Bool) (body : String) : String :=
  let text :=
    if anchored || Text.holds '/' body || body = "**" then body else "**/" ++ body
  if Text.endsWith "/**" text then text ++ "/*" else text

/-- The rule on a line, if there is one. -/
def Rule.ofLine? (line : String) : Except Problem (Option Rule) :=
  if Text.startsWith "#" line then .ok none
  else
    let line := trimLine line
    if line = "" then .ok none
    else
      let w := ofMarks line
      let (directoriesOnly, body) := match Text.dropTail? "/" w.body with
        | some body => (true, Text.dropTail "\\" body)
        | none => (false, w.body)
      match Glob.parse (patternText w.anchored body) with
      | .ok g => .ok (some ⟨g, w.exempts, directoriesOnly⟩)
      | .error f => .error (.pattern line f)

/-! ## Files -/

/-- The lines of a file. A carriage return before a line end belongs to it, and what follows the
last line end is a line unless it is empty. -/
def fileLines (bytes : ByteArray) : List (List UInt8) :=
  let lines := Text.byteLines bytes
  let ended := lines.dropLast.map fun line =>
    if line.getLast? = some 13 then line.dropLast else line
  match lines.getLast? with
  | some (b :: rest) => ended ++ [b :: rest]
  | _ => ended

/-- The lines as texts up to the first that is not one, and whether there is such a line. -/
def textLines : List (List UInt8) → List String × Bool
  | [] => ([], false)
  | line :: rest =>
    match String.fromUTF8? ⟨line.toArray⟩ with
    | some s =>
      let (lines, broken) := textLines rest
      (s :: lines, broken)
    | none => ([], true)

/-- The lines with a byte order mark taken off the first one. -/
def dropMark : List String → List String
  | [] => []
  | line :: rest => Text.dropLeading (Char.ofNat 0xFEFF) line :: rest

/-- What a file holds: its rules in order, its problems with the numbers of their lines, and why the
rules as a whole are refused, if they are. -/
structure Content where
  rules : List Rule
  problems : List (Nat × Problem)
  refusal : Option String

/-- Reads lines from the one with the number `n` on. -/
def Content.ofLines (broken : Bool) (n : Nat) : List String → Content
  | [] => ⟨[], if broken then [(n, .notUtf8)] else [], none⟩
  | line :: rest =>
    let later := ofLines broken (n + 1) rest
    match Rule.ofLine? line with
    | .ok none => later
    | .ok (some rule) => { later with rules := rule :: later.rules }
    | .error p => { later with problems := (n, p) :: later.problems }

/-- The content of a file. If its rules are refused as a whole, none of them holds. -/
def Content.ofBytes (bytes : ByteArray) : Content :=
  let (lines, broken) := textLines (fileLines bytes)
  let content := ofLines broken 1 (dropMark lines)
  match Glob.refusal? (content.rules.map (·.pattern)) with
  | some why => { content with rules := [], refusal := some why }
  | none => content

/-- What is reported of the lines of the file at a path. A file whose only problem is that it cannot
be read goes without a report. -/
def Content.lineReport (c : Content) (p : Path) : List String :=
  match c.problems with
  | [(_, .notUtf8)] => []
  | problems => problems.map fun q =>
      p.text ++ ": line " ++ toString q.1 ++ ": " ++ q.2.message

/-- What is reported of the file at a path: of its lines, and of its rules as a whole. -/
def Content.report (c : Content) (p : Path) : List String :=
  c.lineReport p ++ c.refusal.toList

/-! ## Books -/

/-- The rules that lie in a directory, and the path the directory is spoken of by. -/
structure Book where
  directory : Path
  rules : List Rule

/-- The text without one leading `./`. -/
def dropDot (s : String) : String := (Text.dropHead? "./" s).getD s

/-- The text without the beginning it has in common with a directory, and the slash behind that. -/
def below (directory s : String) : String :=
  match Text.dropHead? directory s with
  | some rest => (Text.dropHead? "/" rest).getD rest
  | none => s

/-- The path of an entry as the rules of the book see it. -/
def Book.relative (b : Book) (p : Path) : String :=
  let base := dropDot b.directory.text
  let text := dropDot p.text
  if (Path.mk base).same ⟨"."⟩ || !Text.holds '/' text then text else below base text

/-- Whether a rule speaks of an entry. -/
def Rule.appliesTo (r : Rule) (relative : String) (isDirectory : Bool) : Bool :=
  (!r.directoriesOnly || isDirectory) && r.pattern.fits relative

/-- Whether the rules of a book ignore an entry; none if no rule speaks of it. -/
def Book.verdict (b : Book) (p : Path) (isDirectory : Bool) : Option Bool :=
  let relative := b.relative p
  (b.rules.reverse.find? (·.appliesTo relative isDirectory)).map (!·.exempts)

end Ignore

namespace Disk

/-- What the ignore file in a directory holds. -/
def ignoreFile (d : Disk) (directory : Route) : Ignore.Content :=
  match d.read directory ⟨Ignore.fileName⟩ with
  | .ok bytes => Ignore.Content.ofBytes bytes
  | .error _ => ⟨[], [], none⟩

end Disk

end ClassViewer
