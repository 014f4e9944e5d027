import ClassViewer.Shell.Session

/-!
# Processes that run by themselves

A process that is left to run by itself (`Sleeper`) begins when the one that has started it first
waits for something: for a program, for a copy of itself, or at its end. It is run then up to where
it lets time pass, and sleeps. Where a command can be parted, what is left of it is run when the
process wakes up (`Pause`); any other is put off as a whole by all the time it takes.
-/

namespace ClassViewer.Shell

/-- The text of a word that stands for itself. -/
def literal? : Word → Option String
  | [.text t _] => some t
  | _ => none

/-- Whether a command has one of the names in it; `fuel` bounds its depth. -/
def mentions (names : List String) : Nat → Command → Bool
  | 0, _ => true
  | fuel + 1, c =>
    let within := mentions names fuel
    match c with
    | .nothing => false
    | .simple _ _ (w :: _) _ => (literal? w).any names.contains
    | .simple _ _ [] _ => false
    | .pipeline _ commands => commands.any within
    | .sequence a b => within a || within b
    | .background body => within body
    | .both a b => within a || within b
    | .either a b => within a || within b
    | .subshell _ body _ => within body
    | .group _ body _ => within body
    | .conditional condition yes no => within condition || within yes || within no
    | .loop _ condition body => within condition || within body
    | .each _ _ _ body => within body
    | .choose _ _ arms => arms.any fun arm => within arm.2
    | .define _ _ => false

/-- Whether a command sleeps somewhere; `fuel` bounds its depth. -/
def sleeps (fuel : Nat) (c : Command) : Bool := mentions ["sleep"] fuel c

/-- Whether the rounds of a loop can be taken for commands one after the other. -/
def isUnrolled (fuel : Nat) (body : Command) : Bool := !mentions ["break", "continue"] fuel body

/-- Where a process that runs by itself lets time pass. -/
structure Pause where
  /-- How much time passes. -/
  time : Nat
  /-- What is left to do then. -/
  rest : Command
  /-- How much of the time that takes has passed already then. -/
  ahead : Nat

/-- The pause with something around what is left to do. -/
def Pause.within (p : Pause) (f : Command → Command) : Pause := { p with rest := f p.rest }

/-- Whether a command reads a pipe that nothing was written to. -/
def readsEmptyPipe (s : Session) : Command → Bool
  | .simple _ _ words redirections =>
    let sources := redirections.filterMap fun r => match r with
      | .input _ source => literal? source
      | _ => none
    (words.filterMap literal? ++ sources).any fun name =>
      match s.disk.lookup s.here true (pathOf name) with
      | .ok (_, .pipe held) => held.size == 0
      | _ => false
  | _ => false

/-- Whether a process that sleeps is to read what nobody has written yet. -/
def isBlocked (s : Session) (p : Sleeper) : Bool :=
  readsEmptyPipe { s with toProcess := p.process } p.rest

/-- The process that wakes up first of those with a number above `since`; one that is to read what
nobody has written comes last. -/
def firstToWake (since : Nat) (s : Session) : Option Sleeper :=
  let comesBefore (p q : Sleeper) : Bool :=
    match isBlocked s p, isBlocked s q with
    | false, true => true
    | true, false => false
    | _, _ => p.wake < q.wake
  (s.sleepers.filter fun p => since < p.number).foldl (fun first p => match first with
    | some q => if comesBefore p q then some p else some q
    | none => some p) none

/-- Whether a process with a number above `since` that sleeps could go on now. -/
def isAnyReady (since : Nat) (s : Session) : Bool :=
  (firstToWake since s).any fun p => p.wake ≤ s.clock && !isBlocked s p

/-- Whether a process that sleeps could still write to a channel. -/
def isHeld (i : Nat) (s : Session) : Bool :=
  s.sleepers.any fun p => p.process.streams.any (·.2 == i)

end ClassViewer.Shell
