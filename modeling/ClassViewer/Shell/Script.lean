import ClassViewer.Text.Basic

/-!
# Shell scripts

The commands of a script as they are read.
-/

namespace ClassViewer.Shell

/-- What a parameter expansion does besides giving the value. -/
inductive Modifier where
  /-- `-`: the word if there is no value. -/
  | orElse
  /-- `=`: the word if there is no value, which is kept. -/
  | orAssign
  /-- `+`: the word if there is a value. -/
  | andThen
  /-- `?`: fails if there is no value. -/
  | orFail
  /-- `#` and `##`: without the shortest or longest beginning that fits. -/
  | withoutHead (longest : Bool)
  /-- `%` and `%%`: without the shortest or longest end that fits. -/
  | withoutTail (longest : Bool)
  /-- `#` before the name: the length. -/
  | length
  /-- None of these: the expansion fails. -/
  | malformed
  deriving DecidableEq, Repr

/-- Whether the word of a modifier is a pattern, whose characters stand for themselves only where it
quotes them itself. -/
def Modifier.takesPattern : Modifier → Bool
  | .withoutHead _ => true
  | .withoutTail _ => true
  | _ => false

/-- What becomes of a file that is opened to be written. -/
inductive Opening where
  /-- Its content is replaced, unless the shell is told to keep files. -/
  | replace
  /-- Its content is replaced. -/
  | force
  /-- What is written goes to its end. -/
  | append
  deriving DecidableEq, Repr

mutual

/-- A part of a word. What is quoted is neither split nor matched. -/
inductive Part where
  | text (s : String) (quoted : Bool)
  /-- A parameter; `colon` makes an empty value count as none. -/
  | parameter (name : String) (modifier : Option Modifier) (colon : Bool) (word : List Part)
      (quoted : Bool)
  | substitution (body : Command) (quoted : Bool)
  | arithmetic (source : List Part) (quoted : Bool)
  /-- The home directory of an account; an empty name stands for the one in use. -/
  | home (account : String)

/-- Where a stream is led. -/
inductive Redirection where
  | input (fd : Nat) (source : List Part)
  | output (fd : Nat) (target : List Part) (opening : Opening)
  /-- A file to read from and to write to. -/
  | both (fd : Nat) (target : List Part)
  /-- The stream of another number, or closed. -/
  | duplicate (fd : Nat) (source : List Part)
  /-- Text in the script itself. -/
  | document (fd : Nat) (body : List Part)

/-- A command. -/
inductive Command where
  | nothing
  | simple (line : Nat) (assignments : List (String × List Part)) (words : List (List Part))
      (redirections : List Redirection)
  | pipeline (negated : Bool) (commands : List Command)
  | sequence (first second : Command)
  /-- A command that runs beside the script. -/
  | background (body : Command)
  | both (first second : Command)
  | either (first second : Command)
  | subshell (line : Nat) (body : Command) (redirections : List Redirection)
  | group (line : Nat) (body : Command) (redirections : List Redirection)
  | conditional (condition yes no : Command)
  | loop (untilTrue : Bool) (condition body : Command)
  | each (line : Nat) (name : String) (words : Option (List (List Part))) (body : Command)
  | choose (line : Nat) (subject : List Part) (arms : List (List (List Part) × Command))
  | define (name : String) (body : Command)

end

instance : Inhabited Command := ⟨.nothing⟩

/-- A word: its parts, one behind the other. -/
abbrev Word := List Part

end ClassViewer.Shell
