/-!
# Finished processes

How a process ended and what it wrote.
-/

namespace ClassViewer

/-- How a process ended. -/
inductive ExitStatus where
  /-- It exited with a code. -/
  | code (n : Nat)
  /-- A signal ended it. -/
  | signal (n : Nat)
  deriving DecidableEq, Repr, Inhabited

namespace ExitStatus

/-- Whether the process succeeded. -/
def isSuccess (s : ExitStatus) : Bool := s == code 0

/-- The names of the signals from number one on. -/
def signalNames : List String :=
  ["HUP", "INT", "QUIT", "ILL", "TRAP", "ABRT", "BUS", "FPE", "KILL", "USR1", "SEGV", "USR2",
    "PIPE", "ALRM", "TERM", "STKFLT", "CHLD", "CONT", "STOP", "TSTP", "TTIN", "TTOU", "URG",
    "XCPU", "XFSZ", "VTALRM", "PROF", "WINCH", "IO", "PWR", "SYS"]

/-- The name of a signal. -/
def signalName (n : Nat) : Option String :=
  if n = 0 then none else signalNames[n - 1]?.map ("SIG" ++ ·)

/-- The text of a status. -/
def message : ExitStatus → String
  | code n => "exit status: " ++ toString n
  | signal n =>
    match signalName n with
    | some name => "signal: " ++ toString n ++ " (" ++ name ++ ")"
    | none => "signal: " ++ toString n

end ExitStatus

/-- A finished process. -/
structure Finished where
  status : ExitStatus
  stdout : ByteArray
  stderr : ByteArray

end ClassViewer
