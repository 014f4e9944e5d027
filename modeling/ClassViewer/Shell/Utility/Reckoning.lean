import ClassViewer.Shell.Condition
import ClassViewer.Shell.Decimal
import ClassViewer.Shell.Expression
import ClassViewer.Shell.Utility.Options

/-!
# Numbers from arguments
-/

namespace ClassViewer.Shell

open Session

/-! ## Sequences -/

/-- A decimal number: its value in units of its last place, and its places behind the point. -/
def decimal? (s : String) : Option (Int × Nat) :=
  let cs := s.toList
  let (negative, cs) := match cs with
    | '-' :: cs => (true, cs)
    | '+' :: cs => (false, cs)
    | cs => (false, cs)
  let whole := cs.takeWhile Char.isDigit
  let (part, rest) := match cs.dropWhile Char.isDigit with
    | '.' :: rest => (rest.takeWhile Char.isDigit, rest.dropWhile Char.isDigit)
    | rest => ([], rest)
  if (whole.isEmpty && part.isEmpty) || !rest.isEmpty then none
  else
    let n : Int := digitsValue (whole ++ part)
    some (if negative then -n else n, part.length)

/-- A decimal number written out. -/
def decimalText (places : Nat) (n : Int) : String :=
  (if n < 0 then "-" else "") ++ Decimal.pointed places n.natAbs false

/-- The numbers from the first to the last by steps. -/
def countUp (first step last : Int) : List Int :=
  if step = 0 then []
  else (List.range ((last - first) / step + 1).toNat).map fun (i : Nat) => first + step * i

/-- Reads options before the first number; one that is negative is no option. -/
def seqArguments : List String → List String
  | "-s" :: v :: rest => "-s" :: v :: seqArguments rest
  | "-w" :: rest => "-w" :: seqArguments rest
  | a :: rest =>
    match a.toList with
    | '-' :: c :: _ => if c.isDigit || c = '.' then "--" :: a :: rest else a :: seqArguments rest
    | _ => "--" :: a :: rest
  | [] => []

def seq : Utility := fun args => withOptions "seq" "w" "sf" [] 1 (fun g => do
  match g.operands.find? fun a => (decimal? a).isNone with
  | some a => misuse "seq" ("invalid floating point argument: " ++ cited a) 1
  | none =>
    let numbers := g.operands.filterMap decimal?
    let run (first step last : Int × Nat) : SessionM Nat := do
      let places := max first.2 step.2
      let scale (n : Int × Nat) (places : Nat) : Int := n.1 * (Decimal.tens (places - n.2) : Nat)
      let all := max places last.2
      if step.1 = 0 then
        misuse "seq" ("invalid Zero increment value: " ++ cited (g.operands.getD 1 "")) 1
      else
        let values := countUp (scale first all) (scale step all) (scale last all)
        let texts := values.map fun n =>
          decimalText places (n.tdiv ((Decimal.tens (all - places) : Nat) : Int))
        let width := (texts.map String.length).foldl max 0
        let texts := if g.has 'w' then texts.map fun t =>
            match Text.dropHead? "-" t with
            | some digits => "-" ++ String.ofList (List.replicate (width - t.length) '0') ++ digits
            | none => String.ofList (List.replicate (width - t.length) '0') ++ t
          else texts
        if !texts.isEmpty then say (Text.join ((g.value? 's').getD "\n") texts ++ "\n")
        return 0
    match numbers with
    | [] => misuse "seq" "missing operand" 1
    | [last] => run (1, 0) (1, 0) last
    | [first, last] => run first (1, 0) last
    | [first, step, last] => run first step last
    | _ => misuse "seq" ("extra operand " ++ cited (g.operands.getD 3 "")) 1) (seqArguments args)

/-! ## Expressions of arguments -/

namespace Reckoning

/-- The words that are left. -/
abbrev Reader := StateT (List String) (Except String)

/-- The number of an operand. -/
def integer (s : String) : Reader Int :=
  match s.toList with
  | '-' :: ds => if !ds.isEmpty && ds.all Char.isDigit then return -(digitsValue ds : Int)
    else throw "non-integer argument"
  | ds => if !ds.isEmpty && ds.all Char.isDigit then return (digitsValue ds : Int)
    else throw "non-integer argument"

/-- Whether an operand counts as false. -/
def isNull (s : String) : Bool :=
  let digits := (Text.dropHead? "-" s).getD s
  s == "" || (digits != "" && digits.toList.all (· == '0'))

/-- Whether a text is a number. -/
def isInteger (s : String) : Bool :=
  let digits := (Text.dropHead? "-" s).getD s
  digits != "" && digits.toList.all Char.isDigit

/-- How tightly an operator binds; the loosest is one. -/
def precedence : String → Option Nat
  | "|" => some 1
  | "&" => some 2
  | "<" => some 3
  | "<=" => some 3
  | "=" => some 3
  | "==" => some 3
  | "!=" => some 3
  | ">=" => some 3
  | ">" => some 3
  | "+" => some 4
  | "-" => some 4
  | "*" => some 5
  | "/" => some 5
  | "%" => some 5
  | ":" => some 6
  | _ => none

/-- What an expression matches at the beginning of a text: its first group, or the length. -/
def matched (s pattern : String) : Reader String :=
  match Expression.ofText false pattern with
  | .error fault => throw fault.message
  | .ok (e, groups) =>
    match e.matchAt false ⟨0, none, s.toList, []⟩ with
    | some m =>
      if groups = 0 then return toString m.length
      else return String.ofList ((m.groups.lookup 1).getD [])
    | none => return if groups = 0 then "0" else ""

/-- The value of an operator. -/
def apply (op a b : String) : Reader String := do
  let truth (b : Bool) : String := if b then "1" else "0"
  let compare (holds : Int → Bool) : Reader String := do
    if isInteger a && isInteger b then
      return truth (holds ((← integer a) - (← integer b)))
    else
      let sign : Int := if a = b then 0 else if Condition.isBefore a b then -1 else 1
      return truth (holds sign)
  match op with
  | "|" => return if !isNull a then a else if isNull b then "0" else b
  | "&" => return if isNull a || isNull b then "0" else a
  | "<" => compare (· < 0)
  | "<=" => compare (· ≤ 0)
  | "=" => compare (· == 0)
  | "==" => compare (· == 0)
  | "!=" => compare (· != 0)
  | ">=" => compare (0 ≤ ·)
  | ">" => compare (0 < ·)
  | "+" => return toString ((← integer a) + (← integer b))
  | "-" => return toString ((← integer a) - (← integer b))
  | "*" => return toString ((← integer a) * (← integer b))
  | "/" =>
    let (n, d) := (← integer a, ← integer b)
    if d = 0 then throw "division by zero" else return toString (n.tdiv d)
  | "%" =>
    let (n, d) := (← integer a, ← integer b)
    if d = 0 then throw "division by zero" else return toString (n.tmod d)
  | _ => matched a b

mutual

/-- One operand. -/
def operand : Nat → String → Reader String
  | 0, _ => throw "syntax error"
  | fuel + 1, last => do
    match ← get with
    | [] => throw ("syntax error: missing argument after " ++ cited last)
    | "(" :: rest =>
      set rest
      let v ← expression fuel 1 "("
      match ← get with
      | ")" :: rest =>
        set rest
        return v
      | [] => throw ("syntax error: expecting ')' after " ++ cited v)
      | w :: _ => throw ("syntax error: expecting ')' instead of " ++ cited w)
    | "length" :: s :: rest =>
      set rest
      return toString s.toList.length
    | "substr" :: s :: i :: n :: rest =>
      set rest
      let (i, n) := (← integer i, ← integer n)
      if i ≤ 0 || n ≤ 0 then return ""
      else return String.ofList ((s.toList.drop (i.toNat - 1)).take n.toNat)
    | "index" :: s :: chars :: rest =>
      set rest
      return toString ((s.toList.findIdx? fun c => Text.holds c chars).map (· + 1) |>.getD 0)
    | "match" :: s :: pattern :: rest =>
      set rest
      matched s pattern
    | "+" :: s :: rest =>
      set rest
      return s
    | w :: rest =>
      set rest
      return w
  termination_by structural fuel => fuel

/-- The value of an expression whose operators bind at least so tightly. -/
def expression : Nat → Nat → String → Reader String
  | 0, _, _ => throw "syntax error"
  | fuel + 1, least, last => do
    let a ← operand fuel last
    continued fuel least a
  termination_by structural fuel => fuel

/-- Goes on behind a value. -/
def continued : Nat → Nat → String → Reader String
  | 0, _, a => return a
  | fuel + 1, least, a => do
    match ← get with
    | op :: rest =>
      match precedence op with
      | some p =>
        if p < least then return a
        else
          set rest
          let b ← expression fuel (p + 1) op
          continued fuel least (← apply op a b)
      | none => return a
    | [] => return a
  termination_by structural fuel => fuel

end

end Reckoning

def expr : Utility := fun args => do
  if args.isEmpty then misuse "expr" "missing operand" 2
  else
    match (Reckoning.expression (6 * args.length + 6) 1 "").run args with
    | .error message =>
      complain ("expr: " ++ message)
      return 2
    | .ok (v, []) =>
      say (v ++ "\n")
      return if Reckoning.isNull v then 1 else 0
    | .ok (_, w :: _) =>
      complain ("expr: syntax error: unexpected argument " ++ cited w)
      return 2

end ClassViewer.Shell
