import ClassViewer.Shell.Builtins
import ClassViewer.Shell.Utility.Bytes
import ClassViewer.Shell.Utility.Characters
import ClassViewer.Shell.Utility.Edit
import ClassViewer.Shell.Utility.Find
import ClassViewer.Shell.Utility.Mode
import ClassViewer.Shell.Utility.Reading
import ClassViewer.Shell.Utility.Reckoning
import ClassViewer.Shell.Utility.Search
import ClassViewer.Shell.Utility.Sorting

/-!
# The table of utilities
-/

namespace ClassViewer.Shell

open Session

/-- The program `echo`, which reads escapes only if asked to. -/
def plainEcho : Utility := fun args => do
  let isOption (a : String) : Bool :=
    match a.toList with
    | '-' :: c :: cs => (c :: cs).all fun d => d == 'n' || d == 'e' || d == 'E'
    | _ => false
  let letters := (args.takeWhile isOption).flatMap fun a => a.toList.drop 1
  let text := (Text.join " " (args.dropWhile isOption)).toList
  let escapes := (letters.filter (· != 'n')).getLast? = some 'e'
  let (text, ended) := if escapes then echoText (text.length + 1) text else (text, false)
  say (String.ofList text ++ (if letters.contains 'n' || ended then "" else "\n"))
  return 0

/-- Whether a format has a place for an argument. -/
def takesArguments : List Char → Bool
  | '%' :: '%' :: rest => takesArguments rest
  | '%' :: _ => true
  | _ :: rest => takesArguments rest
  | [] => false

/-- The words of the program `printf` for what the shell says of a number. -/
def numberFault (text : String) : String :=
  match Text.dropTail? ": expected numeric value" text,
      Text.dropTail? ": not completely converted" text with
  | some value, _ => cited value ++ ": expected a numeric value"
  | _, some value => cited value ++ ": value not completely converted"
  | none, none => text

/-- The program `printf`. -/
def plainPrintf : Utility := fun args => do
  match args with
  | [] => misuse "printf" "missing operand" 1
  | format :: args =>
    let p := printf format args
    p.faults.forM fun fault => complain ("printf: " ++ numberFault fault)
    say p.text
    if !args.isEmpty && !takesArguments format.toList then
      complain ("printf: warning: ignoring excess arguments, starting with " ++
        cited (args.headD ""))
    return if p.faults.isEmpty then 0 else 1

/-- The nanoseconds of a time such as `0.5` or `2m`. -/
def interval? (text : String) : Option Nat :=
  match Decimal.valueAt? text.toList with
  | some ⟨.finite f, _, rest⟩ =>
    let unit := match rest with
      | [] => some 1
      | ['s'] => some 1
      | ['m'] => some 60
      | ['h'] => some 3600
      | ['d'] => some 86400
      | _ => none
    if f.negative && f.numerator != 0 then none
    else unit.map fun u => f.numerator * u * 1000000000 / f.denominator
  | some ⟨.infinite false, _, []⟩ => some 1000000000000000000
  | _ => none

/-- Lets time pass. -/
def sleep : Utility := withOptions "sleep" "" "" [] 1 fun g => do
  match g.operands, g.operands.filter fun a => (interval? a).isNone with
  | [], _ => misuse "sleep" "missing operand" 1
  | times, [] =>
    pass ((times.filterMap interval?).foldl (· + ·) 0)
    return 0
  | _, wrong =>
    wrong.forM fun a => complain ("sleep: invalid time interval " ++ cited a)
    complain (advice "sleep")
    return 1

/-- Waits until files are stored, which they are at once. -/
def sync : Utility := withOptions "sync" "df" "" [("data", 'd'), ("file-system", 'f')] 1 fun g =>
  forAll g.operands fun p => do
    let s ← get
    match s.disk.lookup s.here true (pathOf p) with
    | .ok _ => return 0
    | .error e =>
      complain ("sync: error opening " ++ quoted p ++ ": " ++ reason e)
      return 1

/-- How many lines `yes` writes: more than a script that ends reads of them. -/
def yesLimit : Nat := 10000

/-- Writes a line again and again. -/
def yes : Utility := fun args => do
  let line := (if args.isEmpty then "y" else Text.join " " args) ++ "\n"
  say (Text.join "" (List.replicate yesLimit line))
  return 0

def printenv : Utility := withOptions "printenv" "0" "" [] 2 fun g => do
  let s ← get
  let args := g.operands
  if args.isEmpty then
    s.environment.forM fun v => say (v.1 ++ "=" ++ v.2 ++ "\n")
    return 0
  else
    forAll args fun name =>
      match s.environment.lookup name with
      | some v => do
        say (v ++ "\n")
        return 0
      | none => return 1

/-- The program `pwd`, which goes by the directory itself. -/
def plainPwd : Utility := withOptions "pwd" "LP" "" [] 1 fun _ => do
  say (Text.Octets.ofText (← get).here.toPath.text ++ "\n")
  return 0

/-- Where the words of a test go on behind its first expression. -/
def behindFirst : List String → List String
  | a :: op :: b :: rest =>
    if Condition.role? op = some .binary then rest
    else if a.length = 2 && Text.startsWith "-" a then b :: rest
    else op :: b :: rest
  | [a, b] => if a.length = 2 && Text.startsWith "-" a then [] else [b]
  | _ => []

/-- The words of the programs that test for what the shell says of a wrong test. -/
def testFault (args : List String) (text : String) : String :=
  match Text.dropHead? "Illegal number: " text, args with
  | some value, _ => "invalid integer " ++ cited value
  | none, [a, b] =>
    if a.length = 2 && Text.startsWith "-" a then cited a ++ ": unary operator expected"
    else "missing argument after " ++ cited b
  | none, [_, op, _] => cited op ++ ": binary operator expected"
  | none, args => "extra argument " ++ cited ((behindFirst args).headD "")

/-- The programs that test, under the name `tool`. -/
def plainTest (tool : String) : Utility := fun args => do
  match Condition.holds (← get) false (args.length + 1) args with
  | .ok b => return if b then 0 else 1
  | .error text =>
    complain (tool ++ ": " ++ testFault args text)
    return 2

/-- The program `[`, which asks for its bracket. -/
def bracket : Utility := fun args => do
  if args.getLast? = some "]" then plainTest "[" args.dropLast
  else
    complain "[: missing ']'"
    return 2

/-- Programs of which nothing is known but that they refuse options they do not have. -/
def otherPrograms : List String :=
  ["arch", "b2sum", "base32", "chgrp", "chown", "cksum", "comm", "csplit", "date", "dd", "df",
    "dircolors", "expand", "factor", "fmt", "fold", "groups", "hostid", "id", "install", "link",
    "logname", "md5sum", "mknod", "mktemp", "nproc", "numfmt", "paste", "pathchk", "pinky", "pr",
    "ptx", "sha1sum", "sha224sum", "sha384sum", "sha512sum", "shred", "shuf", "split", "stat",
    "sum", "truncate", "tsort", "uname", "unexpand", "unlink", "users", "who", "whoami"]

/-- The utilities that run no other programs, by name. -/
def utilities : List (String × Utility) :=
  [("echo", plainEcho), ("printf", plainPrintf), ("true", fun _ => return 0),
    ("false", fun _ => return 1), ("test", plainTest "test"), ("[", bracket), ("pwd", plainPwd),
    ("cat", cat), ("nl", nl), ("tac", tac), ("rev", rev), ("tee", tee), ("head", head),
    ("tail", tail), ("wc", wc), ("sha256sum", sha256sum), ("od", od), ("base64", base64),
    ("cmp", cmp), ("cut", cut), ("sort", sort), ("uniq", uniq), ("grep", grep),
    ("egrep", fun args => grep ("-E" :: args)), ("fgrep", fun args => grep ("-F" :: args)),
    ("sed", Edit.sed), ("tr", tr), ("seq", seq), ("expr", expr), ("basename", basename),
    ("dirname", dirname), ("ls", ls), ("mkdir", mkdir), ("mkfifo", mkfifo), ("rmdir", rmdir),
    ("rm", rm), ("cp", cp), ("mv", mv), ("touch", touch), ("ln", ln), ("chmod", chmod),
    ("readlink", readlink), ("realpath", realpath), ("sleep", sleep), ("sync", sync),
    ("yes", yes), ("printenv", printenv)] ++
  otherPrograms.map fun name => (name, withOptions name "" "" [] 1 fun _ => return 0)

/-- The utility of a name. -/
def utility? (name : String) : Option Utility := utilities.lookup name

/-- The utilities that run other programs. -/
def callers : List String := ["sh", "dash", "env", "find", "xargs", "timeout", "which", "nohup"]

/-- The names of the programs of the system. -/
def programNames : List String := utilities.map (·.1) ++ callers

/-- Whether there is a utility of that name. -/
def isUtility (name : String) : Bool := programNames.contains name

end ClassViewer.Shell
