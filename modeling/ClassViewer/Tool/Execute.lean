import ClassViewer.Host

/-!
# Running programs

A program of the machine is started and run to its end.
-/

namespace ClassViewer.Host

/-- The length from which an argument is refused, in bytes. -/
def argumentLimit : Nat := 131071

/-- How many bytes all arguments and environment variables may take together. -/
def argumentsLimit : Nat := 2097152

/-- How many bytes a text takes when it is handed to a program: its own, the one that ends it, and
those of its address. -/
def handedSize (t : String) : Nat := t.utf8ByteSize + 9

/-- Where programs are looked for. -/
def searchPath (h : Host) : String := (h.envValue "PATH").getD "/bin:/usr/bin"

/-- Whether arguments can be handed to a program in an environment. -/
def checkArguments (environment : Table) (texts : List String) : Except IoError Unit :=
  let handed := texts ++ environment.map fun v => v.1 ++ "=" ++ v.2
  if texts.any (Text.holds (Char.ofNat 0)) then .error (.other "nul byte found in provided data")
  else if texts.any fun t => decide (argumentLimit < t.utf8ByteSize) then
    .error (.os .argumentsTooLong)
  else if argumentsLimit < handed.foldl (fun n t => n + handedSize t) 0 then
    .error (.os .argumentsTooLong)
  else .ok ()

/-- Runs a program to its end. What others have done to the disk is seen once it is started. Of a
program that never ends nothing is known. -/
def execute (program : Path) (args : List String) : HostM (Except IoError Finished) := do
  let h ← get
  match checkArguments h.environment (program.text :: args) with
  | .error e => return .error e
  | .ok () =>
    match h.programs.start h.disk h.here h.searchPath program.text args with
    | .error e => return .error e
    | .ok started =>
      catchUp
      let seen ← get
      match started seen.disk seen.surroundings h.here h.environment h.process with
      | none =>
        set h
        return .error .unended
      | some (finished, disk, meanwhile) =>
        set (seen.withDisk disk meanwhile)
        return .ok finished

/-- Runs a program that writes where the process itself writes. -/
def executeInPlace (program : Path) (args : List String) : HostM (Except IoError ExitStatus) := do
  match ← execute program args with
  | .error e => return .error e
  | .ok finished =>
    modify fun h => { h with
      stdout := h.stdout ++ finished.stdout, stderr := h.stderr ++ finished.stderr }
    return .ok finished.status

end ClassViewer.Host
