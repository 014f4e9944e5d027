import ClassViewer.Shell.Utility.Options

/-!
# Modes

Who may execute a file, and how that is changed by a mode such as `755` or `u+x,g=u`. A mode is a
list of steps (`ModeStep`), each of which gives the right to some or takes it from them. What a mode
says of reading and writing is passed over, since the superuser may do both.
-/

namespace ClassViewer.Shell

open Session

/-! ## Steps -/

/-- Those whom a step gives the right to or takes it from. -/
inductive ModeValue where
  /-- The given ones; everybody if `ifAny` and anybody has the right. -/
  | given (runners : Runners) (ifAny : Bool)
  /-- Everybody if one of these has the right. -/
  | copied (runners : Runners)
  deriving DecidableEq, Repr

/-- How a step changes the right. -/
inductive ModeChange where
  | give
  | take
  | set
  deriving DecidableEq, Repr

/-- A step of a mode; without those it is for, it is for all whom the mask does not bar. -/
structure ModeStep where
  for? : Option Runners
  change : ModeChange
  value : ModeValue
  deriving DecidableEq, Repr

/-- Those of `r` who are also of `s`. -/
def commonRunners (r s : Runners) : Runners := r.without (r.without s)

/-- Who may execute a file after a step. -/
def ModeStep.apply (mask : Runners) (step : ModeStep) (r : Runners) : Runners :=
  let value := match step.value with
    | .given runners ifAny => if ifAny && r.any then .everybody else runners
    | .copied runners => if (commonRunners r runners).any then .everybody else .nobody
  let value := commonRunners value (step.for?.getD (Runners.everybody.without mask))
  match step.change with
  | .give => r.union value
  | .take => r.without value
  | .set => (r.without (step.for?.getD .everybody)).union value

/-! ## Reading of modes -/

/-- Those a letter stands for. -/
def runnersOf? : Char → Option Runners
  | 'u' => some ⟨true, false, false⟩
  | 'g' => some ⟨false, true, false⟩
  | 'o' => some ⟨false, false, true⟩
  | 'a' => some .everybody
  | _ => none

/-- The change a sign stands for. -/
def modeChange? : Char → Option ModeChange
  | '+' => some .give
  | '-' => some .take
  | '=' => some .set
  | _ => none

/-- The greatest mode. -/
def modeLimit : Nat := 4095

/-- Reads what follows the sign of a step: the step, and the rest. -/
def modeValue? (for? : Option Runners) (change : ModeChange) (cs : List Char) :
    Option (ModeStep × List Char) :=
  let digits := cs.takeWhile Number.isOctal
  match cs with
  | [] => some (⟨for?, change, .given .nobody false⟩, [])
  | c :: rest =>
    if !digits.isEmpty then
      let mode := Number.value 8 digits
      let rest := cs.drop digits.length
      if for?.isSome || modeLimit < mode || rest.head?.any (· != ',') then none
      else some (⟨some .everybody, change, .given (.ofMode mode) false⟩, rest)
    else match if c = 'a' then none else runnersOf? c with
      | some runners => some (⟨for?, change, .copied runners⟩, rest)
      | none =>
        let letters := cs.takeWhile fun c => Text.holds c "rwxXst"
        let runners := if letters.contains 'x' then Runners.everybody else .nobody
        some (⟨for?, change, .given runners (letters.contains 'X')⟩, cs.drop letters.length)

/-- Reads the steps for some, and what follows a comma behind them. `begun` says whether one of the
steps was read; `fuel` bounds the number of steps. -/
def modeSteps? : Nat → Option Runners → Bool → List Char → Option (List ModeStep)
  | 0, _, _, _ => none
  | _ + 1, _, begun, [] => if begun then some [] else none
  | fuel + 1, for?, begun, c :: cs =>
    match modeChange? c, begun, c, runnersOf? c with
    | some change, _, _, _ => do
      let (step, rest) ← modeValue? for? change cs
      return step :: (← modeSteps? fuel for? true rest)
    | none, true, ',', _ => modeSteps? fuel none false cs
    | none, false, _, some runners =>
      modeSteps? fuel (some ((for?.getD .nobody).union runners)) false cs
    | _, _, _, _ => none

/-- The steps of a mode. -/
def modeOf? (mode : String) : Option (List ModeStep) :=
  let cs := mode.toList
  if cs.head?.any Number.isOctal then
    let n := Number.value 8 cs
    if cs.all Number.isOctal && n ≤ modeLimit then
      some [⟨some .everybody, .set, .given (.ofMode n) false⟩]
    else none
  else modeSteps? (cs.length + 1) none false cs

/-! ## Changing modes -/

/-- Changes who may execute a file, or all files below a directory if `deep`. -/
def setMode (deep quiet : Bool) (f : Runners → Runners) (p : String) : SessionM Nat := do
  let s ← get
  let refuse (message : String) : SessionM Nat := do
    if !quiet then complain ("chmod: " ++ message)
    return 1
  match s.disk.lookup s.here true (pathOf p), s.disk.lookup s.here false (pathOf p) with
  | .error (.os .noEntry), .ok (_, .link _) =>
    refuse ("cannot operate on dangling symlink " ++ quoted p)
  | .error e, _ => refuse ("cannot access " ++ quoted p ++ ": " ++ reason e)
  | .ok (r, .directory), _ =>
    if deep then
      let altered (d : Disk) (e : Route × Item) : Disk :=
        match r.isPrefixOf e.1, e.2 with
        | true, .file bytes runners => d.alter e.1 (.file bytes (f runners))
        | _, _ => d
      set { s with disk := s.disk.items.foldl altered s.disk }
    return 0
  | .ok _, _ =>
    report ("chmod: changing permissions of " ++ quoted p)
      (← change fun d here => d.changeRunners here (pathOf p) f)

/-- The letters that begin a mode behind a dash. -/
def modeLetters : String := "rwxXstugoa,+=01234567"

/-- The arguments that are modes behind a dash, and the others. -/
def dashedModes : List String → List String × List String
  | [] => ([], [])
  | a :: rest =>
    if a = "--" then ([], a :: rest)
    else
      let (modes, others) := dashedModes rest
      match a.toList with
      | '-' :: letters =>
        match letters.dropWhile fun c => Text.holds c "Rvcf" with
        | c :: _ => if Text.holds c modeLetters then (a :: modes, others) else (modes, a :: others)
        | [] => (modes, a :: others)
      | _ => (modes, a :: others)

def chmod : Utility := fun args =>
  let (modes, args) := dashedModes args
  withOptions "chmod" "Rvcf" "" [("recursive", 'R'), ("silent", 'f'), ("quiet", 'f')] 1 (fun g => do
    let mask := Runners.ofMode (← get).mask
    let run (mode : String) (paths : List String) : SessionM Nat :=
      match modeOf? mode with
      | none => misuse "chmod" ("invalid mode: " ++ cited mode) 1
      | some steps => forAll paths
          (setMode (g.has 'R') (g.has 'f') fun r => steps.foldl (fun r step => step.apply mask r) r)
    match modes, g.operands with
    | _, [] => misuse "chmod" "missing operand" 1
    | [], [mode] => misuse "chmod" ("missing operand after " ++ cited mode) 1
    | [], mode :: paths => run mode paths
    | modes, paths => run (Text.join "," modes) paths) args

end ClassViewer.Shell
