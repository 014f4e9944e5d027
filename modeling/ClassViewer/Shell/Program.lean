import ClassViewer.Disk.System
import ClassViewer.Shell.Utility.Table

/-!
# Finding and starting programs

A program is named by a path, or by a name that is looked for in the directories of the search path.
A file that is executed is a program of the system, or a script whose first line names what runs it,
which may be a script again. What is run in the end is always a program of the system (`Launch`).
-/

namespace ClassViewer.Shell

/-- A program of the system that is about to run. -/
structure Launch where
  /-- The name it has in the system. -/
  program : String
  /-- The name it is called by. -/
  called : String
  args : List String
  /-- The script that it is started for, with the path and the bytes that has then. -/
  script : Option (String × ByteArray)

/-- How many bytes of a script are looked at for the end of its first line. A line that does not end
there has one byte less. -/
def firstLineLimit : Nat := 256

/-- How many scripts may run each other. -/
def scriptLimit : Nat := 5

/-- What is to run a script by its first line, and the argument that comes before the script. A
first line that was not read to its end has to show at least where the name ends. -/
def interpreter? (bytes : ByteArray) : Option (String × Option String) :=
  match (Text.Octets.ofBytes (bytes.extract 0 firstLineLimit)).toList with
  | '#' :: '!' :: rest =>
    let isBlank (c : Char) : Bool := c == ' ' || c == '\t'
    let isNul (c : Char) : Bool := c == Char.ofNat 0
    let ended := rest.contains '\n'
    let isFull := ended || firstLineLimit ≤ bytes.size + 1
    let line := if ended then rest.takeWhile (· != '\n') else rest.take (firstLineLimit - 3)
    let line := if isFull then (line.reverse.dropWhile isBlank).reverse else line
    let text := line.dropWhile isBlank
    let name := text.takeWhile fun c => !isBlank c && !isNul c
    let behind := text.drop name.length
    let showsEnd := ended || bytes.size < firstLineLimit ||
      (rest.dropWhile isBlank).any fun c => isBlank c || isNul c
    if !showsEnd || (isFull && text.isEmpty) then none
    else
      let argument := match behind with
        | c :: cs =>
          if isBlank c then
            some (String.ofList ((cs.dropWhile isBlank).takeWhile fun c => !isNul c))
          else none
        | [] => none
      some (String.ofList name, argument)
  | _ => none

/-- The bytes of the executable file at a path. -/
def executableAt (d : Disk) (here : Route) (path : String) : Except IoError ByteArray :=
  match d.lookup here true (pathOf path) with
  | .ok (_, .file bytes runners) =>
    if runners.any then .ok bytes else .error (.os .permissionDenied)
  | .ok _ => .error (.os .permissionDenied)
  | .error e => .error e

/-- Starts the file at a path; `scripts` bounds how many scripts are gone through. -/
def launch (d : Disk) (here : Route) (scripts : Nat) (path called : String) (args : List String)
    (script : Option (String × ByteArray)) : Except IoError Launch :=
  match if path = "" then .error (.os .permissionDenied) else executableAt d here path with
  | .error e => .error e
  | .ok bytes =>
    match (Disk.programName? bytes).filter isUtility, interpreter? bytes with
    | some program, _ => .ok ⟨program, called, args, script⟩
    | none, none => .error (.os .execFormat)
    | none, some (name, argument) =>
      match scripts with
      | 0 => .error (.os .tooManyLinks)
      | more + 1 =>
        launch d here more name name (argument.toList ++ path :: args) (some (path, bytes))

/-- Starts the file at a path; one that is neither a program nor says what runs it is taken for a
script of the shell if `lenient`. -/
def launchAt (lenient : Bool) (d : Disk) (here : Route) (path called : String)
    (args : List String) : Except IoError Launch :=
  match if path = "" then .error (.os .noEntry) else launch d here scriptLimit path called args none
  with
  | .error (.os .execFormat) =>
    if lenient then
      (executableAt d here path).map fun bytes =>
        ⟨"sh", "/bin/sh", path :: args, some (path, bytes)⟩
    else .error (.os .execFormat)
  | result => result

/-- The path of a name in a directory of the search path. -/
def pathIn (directory name : String) : String :=
  if directory = "" then name
  else if Text.endsWith "/" directory then directory ++ name
  else directory ++ "/" ++ name

/-- Tries paths in order. One that is not there or may not be executed is passed over, and the
latter is the reason given if no other path does. -/
def firstOf {α : Type} (attempt : String → Except IoError α) (refused : Bool) :
    List String → Except IoError α
  | [] => .error (.os (if refused then .permissionDenied else .noEntry))
  | path :: rest =>
    match attempt path with
    | .error (.os .permissionDenied) => firstOf attempt true rest
    | .error (.os .noEntry) => firstOf attempt refused rest
    | .error (.os .notADirectory) => firstOf attempt refused rest
    | result => result

/-- Tries the paths a name may stand for. -/
def tryPaths {α : Type} (attempt : String → Except IoError α) (searchPath name : String) :
    Except IoError α :=
  if Text.holds '/' name then attempt name
  else firstOf attempt false ((Text.split ':' searchPath).map fun d => pathIn d name)

/-- The path of the program that a name stands for. -/
def findProgram (d : Disk) (here : Route) (searchPath name : String) : Except IoError String :=
  tryPaths (fun path => (executableAt d here path).map fun _ => path) searchPath name

/-- Starts the program that a name stands for, also if the name is empty. -/
def startNamed (lenient : Bool) (d : Disk) (here : Route) (searchPath name : String)
    (args : List String) : Except IoError Launch :=
  tryPaths (fun path => launchAt lenient d here path name args) searchPath name

/-- Starts the program that a name stands for; there is none of an empty name. -/
def start (lenient : Bool) (d : Disk) (here : Route) (searchPath name : String)
    (args : List String) : Except IoError Launch :=
  if name = "" then .error (.os .noEntry)
  else startNamed lenient d here searchPath name args

end ClassViewer.Shell
