import ClassViewer.Shell.Number

/-!
# Arithmetic

The integer expressions of arithmetic expansions, over numbers of sixty-four bits and variables. An
expression is computed while it is read: what an operator does not need is read without being
computed, so that it neither fails nor assigns. A variable without a value counts as zero.
-/

namespace ClassViewer.Shell.Arithmetic

/-- A sign of an expression. -/
inductive Token where
  | number (n : Int64)
  | name (s : String)
  | operator (s : String)
  deriving DecidableEq, Repr

/-- Why an expression has no value. -/
inductive Fault where
  /-- Something else has to stand at a place. -/
  | expecting (what : String)
  | divisionByZero
  /-- The value of a variable is no number. -/
  | illegalNumber (text : String)
  deriving DecidableEq, Repr

/-- What is said of an expression without a value. -/
def Fault.message (source : String) : Fault → String
  | expecting what => "arithmetic expression: expecting " ++ what ++ ": \"" ++ source ++ "\""
  | divisionByZero => "arithmetic expression: division by zero: \"" ++ source ++ "\""
  | illegalNumber text => "Illegal number: " ++ text

/-- The operators of more than one character, each before those it begins with. -/
def longOperators : List String :=
  ["<<=", ">>=", "<<", ">>", "<=", ">=", "==", "!=", "&&", "||", "+=", "-=", "*=", "/=", "%=", "&=",
    "^=", "|="]

/-- Splits an expression into its signs; `fuel` bounds its characters. -/
def tokens : Nat → List Char → List Token
  | 0, _ => []
  | _ + 1, [] => []
  | fuel + 1, c :: cs =>
    if c = ' ' || c = '\t' || c = '\n' then tokens fuel cs
    else if c.isDigit then
      match Number.natAt? .marked (c :: cs) with
      | some (n, rest) => .number (Int64.ofInt (Number.clamp n)) :: tokens fuel rest
      | none => []
    else if c.isAlpha || c = '_' then
      let isNameChar (c : Char) : Bool := c.isAlphanum || c = '_'
      .name (String.ofList ((c :: cs).takeWhile isNameChar)) ::
        tokens fuel ((c :: cs).dropWhile isNameChar)
    else
      match longOperators.find? fun op => op.toList.isPrefixOf (c :: cs) with
      | some op => .operator op :: tokens fuel ((c :: cs).drop op.toList.length)
      | none => .operator (String.singleton c) :: tokens fuel cs

/-- How tightly an operator binds; the loosest is one. -/
def precedence : String → Option Nat
  | "|" => some 1
  | "^" => some 2
  | "&" => some 3
  | "==" => some 4
  | "!=" => some 4
  | "<" => some 5
  | "<=" => some 5
  | ">" => some 5
  | ">=" => some 5
  | "<<" => some 6
  | ">>" => some 6
  | "+" => some 7
  | "-" => some 7
  | "*" => some 8
  | "/" => some 8
  | "%" => some 8
  | _ => none

/-- The operator an assignment applies; a plain assignment applies none. -/
def assigned? : String → Option (Option String)
  | "=" => some none
  | "+=" => some (some "+")
  | "-=" => some (some "-")
  | "*=" => some (some "*")
  | "/=" => some (some "/")
  | "%=" => some (some "%")
  | "<<=" => some (some "<<")
  | ">>=" => some (some ">>")
  | "&=" => some (some "&")
  | "^=" => some (some "^")
  | "|=" => some (some "|")
  | _ => none

/-- The number of a truth value. -/
def truth (b : Bool) : Int64 := if b then 1 else 0

/-- The value of an operator. -/
def apply (op : String) (a b : Int64) : Except Fault Int64 :=
  match op with
  | "|" => .ok (a ||| b)
  | "^" => .ok (a ^^^ b)
  | "&" => .ok (a &&& b)
  | "==" => .ok (truth (a == b))
  | "!=" => .ok (truth (a != b))
  | "<" => .ok (truth (a < b))
  | "<=" => .ok (truth (a ≤ b))
  | ">" => .ok (truth (b < a))
  | ">=" => .ok (truth (b ≤ a))
  | "<<" => .ok (a <<< b)
  | ">>" => .ok (a >>> b)
  | "+" => .ok (a + b)
  | "-" => .ok (a - b)
  | "*" => .ok (a * b)
  | "/" => if b = 0 then .error .divisionByZero else .ok (a / b)
  | "%" => if b = 0 then .error .divisionByZero else .ok (a % b)
  | _ => .error (.expecting "primary")

/-- Where reading stands: the signs that are left, and what was assigned, last one first. -/
structure Progress where
  rest : List Token
  assigned : List (String × Int64)

/-- A step of reading. -/
abbrev Reader := StateT Progress (Except Fault)

/-- The operator that comes next. -/
def nextOperator : Reader (Option String) := do
  match (← get).rest with
  | .operator op :: _ => return some op
  | _ => return none

/-- Passes over a sign. -/
def pass : Reader Unit := modify fun p => { p with rest := p.rest.drop 1 }

/-- The number of a variable, whose text `text` gives. -/
def look (text : String → Option String) (name : String) : Reader Int64 := do
  match (← get).assigned.lookup name with
  | some n => return n
  | none =>
    let value := (text name).getD ""
    if value.toList.all Number.isBlank then return 0
    else
      match Number.ofText? .marked value with
      | some n => return Int64.ofInt n
      | none => throw (.illegalNumber value)

mutual

/-- An assignment, or anything else; `idle` is for what is not computed. -/
def assignment (text : String → Option String) : Nat → Bool → Reader Int64
  | 0, _ => throw (.expecting "primary")
  | fuel + 1, idle => do
    match (← get).rest with
    | .name x :: .operator op :: _ =>
      match assigned? op with
      | none => conditional text fuel idle
      | some applied =>
        pass
        pass
        let n ← assignment text fuel idle
        if idle then return n
        else
          let n ← match applied with
            | none => pure n
            | some op => do
              let before ← look text x
              apply op before n
          modify fun p => { p with assigned := (x, n) :: p.assigned }
          return n
    | _ => conditional text fuel idle
  termination_by structural fuel => fuel

/-- A choice between two values. -/
def conditional (text : String → Option String) : Nat → Bool → Reader Int64
  | 0, _ => throw (.expecting "primary")
  | fuel + 1, idle => do
    let a ← disjunction text fuel idle
    if (← nextOperator) != some "?" then return a
    else
      pass
      let b ← assignment text fuel (idle || a == 0)
      if (← nextOperator) != some ":" then throw (.expecting "':'")
      pass
      let c ← conditional text fuel (idle || a != 0)
      return if a != 0 then b else c
  termination_by structural fuel => fuel

/-- Values joined by `||`. -/
def disjunction (text : String → Option String) : Nat → Bool → Reader Int64
  | 0, _ => throw (.expecting "primary")
  | fuel + 1, idle => do
    let a ← conjunction text fuel idle
    if (← nextOperator) != some "||" then return a
    else
      pass
      let b ← disjunction text fuel (idle || a != 0)
      return truth (a != 0 || b != 0)
  termination_by structural fuel => fuel

/-- Values joined by `&&`. -/
def conjunction (text : String → Option String) : Nat → Bool → Reader Int64
  | 0, _ => throw (.expecting "primary")
  | fuel + 1, idle => do
    let first ← operand text fuel idle
    let a ← continued text fuel 1 first idle
    if (← nextOperator) != some "&&" then return a
    else
      pass
      let b ← conjunction text fuel (idle || a == 0)
      return truth (a != 0 && b != 0)
  termination_by structural fuel => fuel

/-- Goes on behind a value with operators that bind at least so tightly. -/
def continued (text : String → Option String) : Nat → Nat → Int64 → Bool → Reader Int64
  | 0, _, _, _ => throw (.expecting "primary")
  | fuel + 1, least, a, idle => do
    match ← nextOperator with
    | none => return a
    | some op =>
      match precedence op with
      | none => return a
      | some p =>
        if p < least then return a
        else
          pass
          let second ← operand text fuel idle
          let b ← continued text fuel (p + 1) second idle
          let n ← if idle then pure b else apply op a b
          continued text fuel least n idle
  termination_by structural fuel => fuel

/-- One value with its signs. -/
def operand (text : String → Option String) : Nat → Bool → Reader Int64
  | 0, _ => throw (.expecting "primary")
  | fuel + 1, idle => do
    match (← get).rest with
    | .number n :: _ =>
      pass
      return n
    | .name x :: _ =>
      pass
      if idle then return 0 else look text x
    | .operator "(" :: _ =>
      pass
      let n ← assignment text fuel idle
      if (← nextOperator) != some ")" then throw (.expecting "')'")
      pass
      return n
    | .operator "+" :: _ =>
      pass
      operand text fuel idle
    | .operator "-" :: _ =>
      pass
      return -(← operand text fuel idle)
    | .operator "!" :: _ =>
      pass
      return truth ((← operand text fuel idle) == 0)
    | .operator "~" :: _ =>
      pass
      return ~~~(← operand text fuel idle)
    | _ => throw (.expecting "primary")
  termination_by structural fuel => fuel

end

/-- The value of an expression, and the variables it assigns, in order. -/
def evaluate (text : String → Option String) (source : String) :
    Except Fault (Int64 × List (String × Int64)) :=
  let ts := tokens (source.toList.length + 1) source.toList
  let whole : Reader Int64 := do
    let n ← assignment text (8 * ts.length + 8) false
    if (← get).rest != [] then throw (.expecting "EOF")
    return n
  match whole.run ⟨ts, []⟩ with
  | .ok (n, p) => .ok (n, p.assigned.reverse)
  | .error f => .error f

end ClassViewer.Shell.Arithmetic
