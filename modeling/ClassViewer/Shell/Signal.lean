import ClassViewer.Process
import ClassViewer.Shell.Number

/-!
# Signals in scripts

How scripts name signals, and what a signal does to a process that has not said otherwise.
-/

namespace ClassViewer.Shell.Signal

/-- How many signals there are, the end of a script among them as number zero. -/
def count : Nat := 65

/-- The number of the end of a script, which is handled like a signal. -/
def exit : Nat := 0

/-- The name of a signal; one without a name is called by its number. -/
def name (n : Nat) : String :=
  if n = exit then "EXIT"
  else if n = 16 then "16"
  else match ExitStatus.signalNames[n - 1]? with
    | some name => name
    | none =>
      if n < 34 then toString n
      else if n = 34 then "RTMIN"
      else if n < 50 then "RTMIN+" ++ toString (n - 34)
      else if n < 64 then "RTMAX-" ++ toString (64 - n)
      else "RTMAX"

/-- The signal from `least` on that a text names, by its number or by its name in either case. -/
def ofText? (least : Nat) (s : String) : Option Nat :=
  if s != "" && s.toList.all Char.isDigit then
    let n := digitsValue s.toList
    if n < count then some n else none
  else
    (List.range count).find? fun n => least ≤ n && (name n).map Char.toUpper == s.map Char.toUpper

/-- Whether a process goes on as if nothing had happened unless it handles the signal. -/
def isPassedOver (n : Nat) : Bool := n == 17 || n == 18 || n == 23 || n == 28

/-- Whether a process cannot handle the signal. -/
def isFinal (n : Nat) : Bool := n == 9 || n == 19

/-- The words for a process that a signal ended; of some nothing is said. -/
def words? (n : Nat) : Option String :=
  if n = 2 || n = 13 then none
  else match n with
    | 1 => some "Hangup"
    | 3 => some "Quit"
    | 4 => some "Illegal instruction"
    | 5 => some "Trace/breakpoint trap"
    | 6 => some "Aborted"
    | 7 => some "Bus error"
    | 8 => some "Floating point exception"
    | 9 => some "Killed"
    | 10 => some "User defined signal 1"
    | 11 => some "Segmentation fault"
    | 12 => some "User defined signal 2"
    | 14 => some "Alarm clock"
    | 15 => some "Terminated"
    | 16 => some "Stack fault"
    | 24 => some "CPU time limit exceeded"
    | 25 => some "File size limit exceeded"
    | 26 => some "Virtual timer expired"
    | 27 => some "Profiling timer expired"
    | 29 => some "I/O possible"
    | 30 => some "Power failure"
    | 31 => some "Bad system call"
    | n => if n < 34 then none else some ("Real-time signal " ++ toString (n - 34))

end ClassViewer.Shell.Signal
