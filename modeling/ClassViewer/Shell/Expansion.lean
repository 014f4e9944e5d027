import ClassViewer.Shell.Arithmetic
import ClassViewer.Shell.Parser
import ClassViewer.Shell.Pattern
import ClassViewer.Shell.Session

/-!
# Expansion of words

A word becomes pieces, pieces become fields, and fields become file names. What a command in a word
writes is given by `capture`, so that nothing here depends on how commands are run.
-/

namespace ClassViewer.Shell

open Session

/-! ## Variables -/

/-- The characters that part fields. -/
def separators (s : Session) : String := (s.valueOf "IFS").getD " \t\n"

/-- What stands between arguments that are put into one text. -/
def joiner (s : Session) : String := String.ofList ((separators s).toList.take 1)

/-- Sets a variable; one that keeps its value ends the script. -/
def assign (name value : String) : SessionM Unit := do
  let s ← get
  if s.fixed.contains name then refuse (name ++ ": is read only")
  else
    restore name (some value)
    if name = "OPTIND" then modify fun s => { s with lettersRead := 0 }
    if name = "PATH" then modify fun s => { s with tracked := [] }
    if s.hasOption 'a' then handOn name

/-- The value of a parameter. -/
def parameterValue (s : Session) (name : String) : Option String :=
  match name with
  | "@" => some (Text.join (joiner s) s.parameters)
  | "*" => some (Text.join (joiner s) s.parameters)
  | "#" => some (toString s.parameters.length)
  | "?" => some (toString s.status)
  | "$" => some (toString s.pid)
  | "0" => some s.name
  | "-" => some (String.ofList s.options)
  | "!" => s.lastBeside.map toString
  | name =>
    if name.toList.all Char.isDigit then
      match digitsValue name.toList with
      | 0 => some s.name
      | n + 1 => s.parameters[n]?
    else s.valueOf name

/-! ## Fields -/

/-- A piece of an expanded word. -/
inductive Bit where
  /-- A character; one that came from an expansion outside of quotes may part fields. -/
  | char (c : Char) (quoted parts : Bool)
  /-- A pair of quotes, which make a field even if nothing is in it. -/
  | mark
  /-- The beginning of a value outside of quotes. -/
  | edge
  /-- The end of a field, and what stands for it where there are no fields; outside of quotes it
  parts fields as a blank does. -/
  | boundary (between : String) (quoted : Bool)
  deriving DecidableEq, Repr

/-- The pieces of a value. -/
def bitsOf (quoted : Bool) (s : String) : List Bit :=
  (if quoted then .mark else .edge) :: s.toList.map fun c => .char c quoted (!quoted)

/-- The pieces of several values, each a field of its own. -/
def bitsOfFields (between : String) (quoted : Bool) (values : List String) : List Bit :=
  let pieces := if quoted then values.map (bitsOf true)
    else values.map fun v => (bitsOf false v).drop 1
  let all := (pieces.intersperse [.boundary between quoted]).flatten
  if quoted then all else .edge :: all

/-- The fields so far and the one being collected, all last one first. -/
structure Fields where
  done : List (List Marked)
  current : Option (List Marked)
  /-- Whether only blanks were passed since the last field. -/
  loose : Bool

/-- Ends the field being collected, if there is one. -/
def Fields.flush (f : Fields) : Fields :=
  match f.current with
  | some cs => ⟨cs.reverse :: f.done, none, false⟩
  | none => { f with loose := false }

/-- Passes a blank, which ends the field being collected. -/
def Fields.blank (f : Fields) : Fields :=
  match f.current with
  | some cs => ⟨cs.reverse :: f.done, none, true⟩
  | none => f

/-- Adds a piece. A blank ends a field; another separator ends one too, even an empty one, but
belongs to the blanks before it where they have ended one already. -/
def Fields.add (separators : String) (f : Fields) : Bit → Fields
  | .mark => { f with current := some (f.current.getD []) }
  | .edge => { f with loose := false }
  | .boundary _ quoted => if quoted then f.flush else f.blank
  | .char c quoted parts =>
    if parts && Text.holds c separators then
      if c = ' ' || c = '\t' || c = '\n' then f.blank
      else if f.current.isNone && f.loose then { f with loose := false }
      else ⟨(f.current.getD []).reverse :: f.done, none, false⟩
    else { f with current := some ((c, quoted) :: f.current.getD []) }

/-- The fields of an expanded word. -/
def fieldsOf (separators : String) (bits : List Bit) : List (List Marked) :=
  (bits.foldl (Fields.add separators) ⟨[], none, false⟩).flush.done.reverse

/-- The text of an expanded word that is one field. -/
def textOf (bits : List Bit) : String :=
  String.ofList (bits.flatMap fun b => match b with
    | .char c _ _ => [c]
    | .boundary between _ => between.toList
    | _ => [])

/-- The pattern of an expanded word. -/
def markedOf (bits : List Bit) : List Marked :=
  bits.flatMap fun b => match b with
    | .char c quoted _ => [(c, quoted)]
    | .boundary between _ => between.toList.map fun c => (c, false)
    | _ => []

/-! ## File names -/

/-- The order of texts by their bytes. -/
def notAfter : List Char → List Char → Bool
  | [], _ => true
  | _ :: _, [] => false
  | a :: as, b :: bs => if a = b then notAfter as bs else decide (a < b)

/-- Names in byte order. -/
def sortNames (names : List String) : List String :=
  names.mergeSort fun a b => notAfter a.toList b.toList

/-- The segments of a pattern between its slashes. -/
def patternSegments (cs : List Marked) : List (List Marked) :=
  cs.foldr (fun m acc =>
    if m.1 = '/' then [] :: acc
    else match acc with
      | [] => [[m]]
      | p :: ps => (m :: p) :: ps) [[]]

/-- The text of marked characters. -/
def plain (cs : List Marked) : String := String.ofList (cs.map (·.1))

/-- The paths that continue `path` by the segments of a pattern. A name that begins with a dot is
only matched by a dot. -/
def expandSegments (d : Disk) (here : Route) (path : String) : List (List Marked) → List String
  | [] => [path]
  | segment :: rest =>
    if !isPattern segment then
      let path := path ++ plain segment
      if rest.isEmpty then (if (d.lookup here false (pathOf path)).isOk then [path] else [])
      else expandSegments d here (path ++ "/") rest
    else
      match d.list here (pathOf (if path = "" then "." else path)) with
      | .error _ => []
      | .ok names =>
        let dotted := segment.head?.any (·.1 == '.')
        let names := (if dotted then [".", ".."] else []) ++ names.map Text.Octets.ofText
        let found := names.filter fun n =>
          Pattern.fits (patternOf segment) n.toList && (dotted || !Text.startsWith "." n)
        found.flatMap fun n =>
          expandSegments d here (path ++ n ++ (if rest.isEmpty then "" else "/")) rest

/-- The file names a field stands for, or the field itself. -/
def expandName (s : Session) (cs : List Marked) : List String :=
  if !isPattern cs || s.hasOption 'f' then [plain cs]
  else
    let found := sortNames (expandSegments s.disk s.here "" (patternSegments cs))
    if found.isEmpty then [plain cs] else found

/-! ## Parts of words -/

/-- What a command wrote, without line ends at its end and without zeros. -/
def captured (s : String) : String :=
  let kept := s.toList.filter (·.toNat != 0)
  String.ofList (kept.reverse.dropWhile (· == '\n')).reverse

/-- The number of an arithmetic expression; its assignments are made, and its faults end the
script. -/
def compute (source : String) : SessionM String := do
  let s ← get
  match Arithmetic.evaluate s.valueOf source with
  | .error fault =>
    refuse (fault.message source)
    return ""
  | .ok (n, assigned) =>
    assigned.forM fun v => assign v.1 (toString v.2.toInt)
    return toString n.toInt

/-- Whether a parameter is one of the arguments or a value of the shell itself. -/
def isFixedParameter (name : String) : Bool := !Parser.isName name

mutual

/-- Expands a part of a word. `parts` says whether text outside of quotes may part fields. -/
def expandPart (capture : Command → SessionM String) : Nat → Bool → Part → SessionM (List Bit)
  | 0, _, _ => failure
  | fuel + 1, parts, part => do
    let s ← get
    match part with
    | .text t quoted =>
      let chars := t.toList.map fun c => Bit.char c quoted (parts && !quoted)
      return if quoted then .mark :: chars else chars
    | .home account =>
      let directory := if account = "" then (s.valueOf "HOME").getD "~" else "/" ++ account
      return directory.toList.map fun c => .char c true false
    | .substitution body quoted => return bitsOf quoted (captured (← capture body))
    | .arithmetic source quoted =>
      let text := textOf (← expandWord capture fuel false source)
      if ← goesOn then return bitsOf quoted (← compute text) else return []
    | .parameter name modifier colon word quoted =>
      let value := parameterValue s name
      let isSet := value.any fun v => !(colon && v == "")
      let bits := match name with
        | "@" => bitsOfFields (joiner s) quoted s.parameters
        | "*" => if quoted then bitsOf true (value.getD "")
          else bitsOfFields (joiner s) false s.parameters
        | _ => bitsOf quoted (value.getD "")
      let inner : SessionM (List Bit) := do
        let bits ← expandWord capture fuel (!quoted) word
        return if quoted && word.isEmpty then [.mark] else bits
      let asked : Bool := match modifier with
        | some .orElse => false
        | some .orAssign => false
        | some .andThen => false
        | some .orFail => false
        | some .malformed => false
        | _ => true
      if asked && value.isNone && s.hasOption 'u' then
        refuse (name ++ ": parameter not set")
        return []
      else match modifier with
        | none => return bits
        | some .malformed =>
          refuse "Bad substitution"
          return []
        | some .length => return bitsOf quoted (toString (value.getD "").toList.length)
        | some .orElse =>
          if isSet then return if quoted && bits.isEmpty then [.mark] else bits else inner
        | some .andThen => if isSet then inner else return if quoted then [.mark] else []
        | some .orAssign =>
          if isSet then return bits
          else
            let text := textOf (← inner)
            if isFixedParameter name then refuse (name ++ ": bad variable name")
            else assign name text
            return bitsOf quoted text
        | some .orFail =>
          if isSet then return bits
          else
            let text := textOf (← inner)
            let standard := if colon then "parameter not set or null" else "parameter not set"
            refuse (name ++ ": " ++ (if word.isEmpty then standard else text))
            return []
        | some (.withoutHead longest) =>
          let pattern := patternOf (markedOf (← inner))
          return bitsOf quoted (String.ofList (withoutHead longest pattern (value.getD "").toList))
        | some (.withoutTail longest) =>
          let pattern := patternOf (markedOf (← inner))
          return bitsOf quoted (String.ofList (withoutTail longest pattern (value.getD "").toList))
  termination_by structural fuel => fuel

/-- Expands a word, up to the first part that ends the script. -/
def expandWord (capture : Command → SessionM String) : Nat → Bool → Word → SessionM (List Bit)
  | 0, _, _ => failure
  | _ + 1, _, [] => return []
  | fuel + 1, parts, part :: rest => do
    let bits ← expandPart capture fuel parts part
    if ← goesOn then return bits ++ (← expandWord capture fuel parts rest) else return []
  termination_by structural fuel => fuel

end

/-- The text of a word that is one field. -/
def expandText (capture : Command → SessionM String) (fuel : Nat) (w : Word) : SessionM String := do
  return textOf (← expandWord capture fuel false w)

/-- Whether the arguments of a command that begins with some fields may be assignments. -/
def declares (fields : List String) : Bool :=
  match fields.dropWhile (· == "command") with
  | name :: _ => ["export", "readonly", "local", "alias"].contains name
  | [] => false

/-- The fields of words behind others, matched against file names. What an assignment gives as the
argument of a command that declares variables is one field. -/
def expandBehind (capture : Command → SessionM String) (fuel : Nat) (before : List String) :
    List Word → SessionM (List String)
  | [] => return before
  | w :: rest => do
    match if declares before then Parser.assignment? w else none with
    | some (name, value) =>
      let text ← expandText capture fuel value
      if ← goesOn then expandBehind capture fuel (before ++ [name ++ "=" ++ text]) rest
      else return []
    | none =>
      let bits ← expandWord capture fuel false w
      if ← goesOn then
        let s ← get
        let fields := (fieldsOf (separators s) bits).flatMap (expandName s)
        expandBehind capture fuel (before ++ fields) rest
      else return []

/-- The fields of words. -/
def expandFields (capture : Command → SessionM String) (fuel : Nat) (words : List Word) :
    SessionM (List String) :=
  expandBehind capture fuel [] words

end ClassViewer.Shell
