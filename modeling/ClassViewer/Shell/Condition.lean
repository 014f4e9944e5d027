import ClassViewer.Shell.Session

/-!
# Conditions

The expressions of `test`: operands, operators before one operand and between two, negation, `-a`,
`-o` and brackets. Which words are operators depends on the words around them.
-/

namespace ClassViewer.Shell.Condition

/-- The part an operator plays. -/
inductive Role where
  | unary
  | binary
  | negation
  | conjunction
  | disjunction
  | opening
  | closing
  deriving DecidableEq, Repr

/-- The operators before one operand. -/
def unaryOperators : List String :=
  ["-r", "-w", "-x", "-e", "-f", "-d", "-c", "-b", "-p", "-u", "-g", "-k", "-s", "-t", "-z", "-n",
    "-h", "-O", "-G", "-L", "-S"]

/-- The operators between two operands. -/
def binaryOperators : List String :=
  ["=", "==", "!=", "<", ">", "-eq", "-ne", "-ge", "-gt", "-le", "-lt", "-nt", "-ot", "-ef"]

/-- The role of a word. -/
def role? (w : String) : Option Role :=
  match w with
  | "!" => some .negation
  | "-a" => some .conjunction
  | "-o" => some .disjunction
  | "(" => some .opening
  | ")" => some .closing
  | w =>
    if unaryOperators.contains w then some .unary
    else if binaryOperators.contains w then some .binary
    else none

/-- Whether the first word is an operand although it looks like an operator before one: nothing
follows it, or an operator between two operands does. -/
def isOperand : List String → Bool
  | _ :: op :: _ :: _ => role? op == some .binary
  | _ :: _ :: [] => false
  | _ => true

/-- The role of the first word where it stands. -/
def roleAt (ws : List String) : Option Role :=
  match ws with
  | [] => none
  | w :: rest =>
    match role? w with
    | some .unary => if isOperand ws then none else some .unary
    | some .opening => if rest.isEmpty then none else some .opening
    | r => r

/-- Whether a test of a file or a text holds. -/
def holdsUnary (s : Session) (op arg : String) : Bool :=
  let p := pathOf arg
  let isThere := s.disk.leads s.here p
  let isLink := match s.disk.lookup s.here false p with
    | .ok (_, .link _) => true
    | _ => false
  match op with
  | "-n" => arg != ""
  | "-z" => arg == ""
  | "-f" => s.disk.isFile s.here p
  | "-d" => s.disk.isDirectory s.here p
  | "-e" => isThere
  | "-r" => isThere
  | "-w" => isThere
  | "-O" => isThere
  | "-G" => isThere
  | "-x" => match s.disk.lookup s.here true p with
    | .ok (_, .file _ runners) => runners.any
    | .ok (_, .directory) => true
    | _ => false
  | "-s" => match s.disk.lookup s.here true p with
    | .ok (_, .file bytes _) => bytes.size != 0
    | .ok (_, .directory) => true
    | _ => false
  | "-L" => isLink
  | "-h" => isLink
  | "-c" => match s.disk.lookup s.here true p with
    | .ok (_, .device (.stream n)) => n == 0
    | .ok (_, .device _) => true
    | _ => false
  | "-p" => match s.disk.lookup s.here true p with
    | .ok (_, .device (.stream n)) => n != 0
    | .ok (_, .pipe _) => true
    | _ => false
  | _ => false

/-- The number of an operand. -/
def number (w : String) : Except String Int :=
  match Number.ofText? .decimal w with
  | some n => .ok n
  | none => .error ("Illegal number: " ++ w)

/-- The order of two operands as texts. -/
def isBefore (a b : String) : Bool := decide (a.toList < b.toList)

/-- Whether a test between two operands holds. -/
def holdsBinary (s : Session) (a op b : String) : Except String Bool := do
  match op with
  | "=" => return a == b
  | "==" => return a == b
  | "!=" => return a != b
  | "<" => return isBefore a b
  | ">" => return isBefore b a
  | "-eq" => return (← number a) == (← number b)
  | "-ne" => return (← number a) != (← number b)
  | "-lt" => return (← number a) < (← number b)
  | "-le" => return (← number a) ≤ (← number b)
  | "-gt" => return (← number a) > (← number b)
  | "-ge" => return (← number a) ≥ (← number b)
  | "-ef" => match s.disk.canonical s.here (pathOf a), s.disk.canonical s.here (pathOf b) with
    | .ok r, .ok t => return (s.disk.routesOf r).contains t
    | _, _ => return false
  | _ => return false

/-- A value and the words from its last one on. -/
abbrev Outcome := Except String (Bool × List String)

mutual

/-- Conditions joined by `-o`; the words begin with the first of them. -/
def disjunction (s : Session) : Nat → Bool → List String → Outcome
  | 0, acc, ws => .ok (acc, ws)
  | fuel + 1, acc, ws => do
    let (b, ws) ← conjunction s fuel true ws
    if roleAt (ws.drop 1) = some .disjunction then disjunction s fuel (acc || b) (ws.drop 2)
    else return (acc || b, ws)
  termination_by structural fuel => fuel

/-- Conditions joined by `-a`. -/
def conjunction (s : Session) : Nat → Bool → List String → Outcome
  | 0, acc, ws => .ok (acc, ws)
  | fuel + 1, acc, ws => do
    let (b, ws) ← negation s fuel ws
    if roleAt (ws.drop 1) = some .conjunction then conjunction s fuel (acc && b) (ws.drop 2)
    else return (acc && b, ws)
  termination_by structural fuel => fuel

/-- A condition or the opposite of one. -/
def negation (s : Session) : Nat → List String → Outcome
  | 0, ws => .ok (false, ws)
  | fuel + 1, ws => do
    if roleAt ws = some .negation then
      match ws.drop 1 with
      | [] => return (true, ws)
      | rest =>
        let (b, ws) ← negation s fuel rest
        return (!b, ws)
    else primary s fuel ws
  termination_by structural fuel => fuel

/-- A single test. -/
def primary (s : Session) : Nat → List String → Outcome
  | 0, ws => .ok (false, ws)
  | fuel + 1, ws => do
    match ws with
    | [] => return (false, [])
    | w :: rest =>
      match roleAt ws with
      | some .opening =>
        if roleAt rest = some .closing then return (false, rest)
        else
          let (b, ws) ← disjunction s fuel false rest
          if roleAt (ws.drop 1) = some .closing then return (b, ws.drop 1)
          else .error "closing paren expected"
      | some .unary =>
        match rest with
        | arg :: _ =>
          if w = "-t" then let _ ← number arg
          return (holdsUnary s w arg, rest)
        | [] => .error (w ++ ": argument expected")
      | _ =>
        if roleAt rest = some .binary then
          match rest with
          | op :: b :: more => return (← holdsBinary s w op b, b :: more)
          | op :: [] => .error (op ++ ": argument expected")
          | [] => return (w != "", ws)
        else return (w != "", ws)
  termination_by structural fuel => fuel

end

/-- Whether words beginning with the operand hold, and nothing is left behind them. -/
def whole (s : Session) (ws : List String) : Except String Bool := do
  let fuel := 4 * ws.length + 8
  let (b, rest) ← match ws with
    | [a, op, c] =>
      if role? op = some .binary then do pure (← holdsBinary s a op c, [c])
      else disjunction s fuel false ws
    | ws => disjunction s fuel false ws
  match rest with
  | w :: _ :: _ => .error ((if w = "" then "" else w ++ ": ") ++ "unexpected operator")
  | _ => return b

/-- Whether the words of a test hold. Three or four of them may stand in brackets or behind a
negation as a whole; a second negation among them changes nothing. -/
def holds (s : Session) (negated : Bool) : Nat → List String → Except String Bool
  | 0, _ => .ok false
  | fuel + 1, ws =>
    let said (b : Except String Bool) : Except String Bool := b.map (· != negated)
    let isTest := match ws with
      | [_, op, _] => role? op == some .binary
      | _ => false
    if ws.isEmpty then .ok negated
    else if (ws.length = 3 || ws.length = 4) && !isTest then
      if ws.head? = some "(" && ws.getLast? = some ")" then said (whole s (ws.drop 1).dropLast)
      else if ws.head? = some "!" then holds s true fuel (ws.drop 1)
      else said (whole s ws)
    else said (whole s ws)

end ClassViewer.Shell.Condition
