import ClassViewer.Engine.Basic

/-!
# JD-Core

JD-Core prints a class through calls for text, indentation and lines. A printed line may begin with
the number of its source line; which one it was is remembered by the line the text is on.
-/

namespace ClassViewer.JdCore

def descriptor : Descriptor where
  id := "jd-core"
  displayName := "JD-Core"
  description := "JD-Core - Classic Java decompiler"

/-- One level of indentation. -/
def indentText : String := "    "

/-- A call of the printer. Line numbers are source lines, zero if unknown. -/
inductive Call where
  | start (maxLine : LineNumber) (major minor : Nat)
  | finish
  | text (t : String)
  | number (t : String)
  | string (t : String) (owner : String)
  | keyword (t : String)
  | declaration (type name : String)
  | reference (type name : String)
  | indent
  | unindent
  | startLine (line : LineNumber)
  | endLine
  | extraLine (count : Nat)
  deriving DecidableEq, Repr

/-- A JD-Core back end: given a loader and the name of the class. -/
abbrev Backend := Scope → String → HostM (Report Call)

/-- What was printed so far: whether lines are recorded, the open indentations, the line the text is
on, the text, and the source lines of its lines. -/
structure Printer where
  recording : Bool
  indents : Nat
  line : LineNumber
  text : String
  mapping : LineMapping

/-- The printer before the first call. -/
def Printer.blank : Printer := ⟨false, 0, 0, "", LineMapping.empty⟩

/-- Prints text on the current line. -/
def Printer.print (p : Printer) (t : String) : Printer := { p with text := p.text ++ t }

/-- Ends `n` lines. -/
def Printer.newlines (p : Printer) (n : Nat) : Printer :=
  { p with
    text := p.text ++ String.ofList (List.replicate n '\n')
    line := p.line + UInt32.ofNat n }

/-- Performs a call. -/
def Printer.receive (preserve : Bool) (p : Printer) : Call → Printer
  | .start maxLine _ _ => { p with line := 1, recording := preserve && decide (0 < maxLine) }
  | .finish => p
  | .text t => p.print t
  | .number t => p.print t
  | .string t _ => p.print t
  | .keyword t => p.print t
  | .declaration _ name => p.print name
  | .reference _ name => p.print name
  | .indent => { p with indents := p.indents + 1 }
  | .unindent => { p with indents := p.indents - 1 }
  | .startLine line =>
    let p := if p.recording && decide (0 < line) then
        { p with mapping := p.mapping.insert p.line line }
      else p
    p.print (Text.join "" (List.replicate p.indents indentText))
  | .endLine => p.newlines 1
  | .extraLine count => p.newlines count

/-- What a list of calls leaves. -/
def collect (preserve : Bool) (calls : List Call) : Printer :=
  calls.foldl (Printer.receive preserve) Printer.blank

/-- The printed text, realigned. -/
def render (preserve : Bool) (calls : List Call) : String :=
  let p := collect preserve calls
  realign p.text p.mapping

/-- What the engine makes of a report. -/
def finish (preserve : Bool) (r : Report Call) : Except DecompileError String :=
  match r.outcome with
  | .ok () => .ok (withFooter (render preserve r.calls) descriptor)
  | .error f => .error (descriptor.failure f)

/-- The engine over a back end. -/
def engine (backend : Backend) : Engine where
  descriptor := descriptor
  decompile id bytes scope preserve := do
    return finish preserve (← backend (scope.primaryFirst id bytes) id.text)

end ClassViewer.JdCore
