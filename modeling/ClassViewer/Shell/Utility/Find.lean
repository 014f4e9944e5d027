import ClassViewer.Shell.Utility.Files

/-!
# Searching directories

The tests and actions of `find`, and the walk that applies them to every entry. The entries of a
directory are visited in the order of their names.
-/

namespace ClassViewer.Shell.Find

open Session

/-- What is asked of an entry, or done with it. -/
inductive Test where
  | name (pattern : String) (folded : Bool)
  | path (pattern : String)
  | kind (letters : List Char)
  | empty
  | constant (b : Bool)
  | print (lineEnd : String)
  | delete
  | execute (words : List String)
  /-- A command for all entries together. -/
  | executeAll (words : List String)
  | prune
  | quit
  | negation (t : Test)
  | both (a b : Test)
  | either (a b : Test)

/-- Whether a test does something, so that nothing is printed by itself. -/
def Test.acts : Test → Bool
  | .print _ => true
  | .delete => true
  | .execute _ => true
  | .executeAll _ => true
  | .quit => true
  | .negation t => t.acts
  | .both a b => a.acts || b.acts
  | .either a b => a.acts || b.acts
  | _ => false

/-- Whether what a directory holds is visited before it. -/
def Test.deletes : Test → Bool
  | .delete => true
  | .negation t => t.deletes
  | .both a b => a.deletes || b.deletes
  | .either a b => a.deletes || b.deletes
  | _ => false

/-- The command for all entries. -/
def Test.together? : Test → Option (List String)
  | .executeAll words => some words
  | .negation t => t.together?
  | .both a b => a.together?.orElse fun _ => b.together?
  | .either a b => a.together?.orElse fun _ => b.together?
  | _ => none

/-- How far the walk goes. -/
structure Range where
  least : Nat
  most : Option Nat

/-- The words that are left, and how far the walk goes. -/
structure Progress where
  rest : List String
  range : Range

abbrev Reader := StateT Progress (Except String)

/-- Takes the value of a test. -/
def value (test : String) : Reader String := do
  match (← get).rest with
  | v :: rest =>
    modify fun p => { p with rest := rest }
    return v
  | [] => throw ("missing argument to " ++ String.singleton (Char.ofNat 96) ++ test ++ "'")

/-- Takes the number of a test. -/
def depthValue (test : String) : Reader Nat := do
  let v ← value test
  if v != "" && v.toList.all Char.isDigit then return digitsValue v.toList
  else throw ("Expected a positive decimal integer argument to " ++ test ++ ", but got " ++
    cited v)

/-- Takes the words of a command up to its end. -/
def command (test : String) : Reader Test := do
  let words := (← get).rest.takeWhile fun w => w != ";"
  let rest := (← get).rest.drop words.length
  let joined := words.takeWhile (· != "+")
  if joined.length < words.length && joined.getLast? = some "\x7b\x7d" then
    modify fun p => { p with rest := p.rest.drop (joined.length + 1) }
    return .executeAll joined.dropLast
  else match rest with
    | ";" :: rest =>
      modify fun p => { p with rest := rest }
      return .execute words
    | _ => throw ("missing argument to " ++ String.singleton (Char.ofNat 96) ++ test ++ "'")

/-- One test without operators. -/
def single (w : String) : Reader Test := do
  match w with
  | "-name" => return .name (← value w) false
  | "-iname" => return .name (← value w) true
  | "-path" => return .path (← value w)
  | "-wholename" => return .path (← value w)
  | "-type" =>
    let v ← value w
    let kinds := ["b", "c", "d", "p", "f", "l", "s"]
    match (Text.split ',' v).find? fun k => !(kinds.contains k) with
    | some k => throw ("Unknown argument to -type: " ++ k)
    | none => return .kind (v.toList.filter (· != ','))
  | "-empty" => return .empty
  | "-true" => return .constant true
  | "-false" => return .constant false
  | "-print" => return .print "\n"
  | "-print0" => return .print (String.singleton (Char.ofNat 0))
  | "-delete" => return .delete
  | "-exec" => command w
  | "-prune" => return .prune
  | "-quit" => return .quit
  | "-maxdepth" =>
    let n ← depthValue w
    modify fun p => { p with range := { p.range with most := some n } }
    return .constant true
  | "-mindepth" =>
    let n ← depthValue w
    modify fun p => { p with range := { p.range with least := n } }
    return .constant true
  | "-depth" => return .constant true
  | "-follow" => return .constant true
  | w =>
    if Text.startsWith "-" w then
      throw ("unknown predicate " ++ String.singleton (Char.ofNat 96) ++ w ++ "'")
    else throw ("paths must precede expression: " ++ String.singleton (Char.ofNat 96) ++ w ++ "'")

mutual

/-- Tests joined by `-o`. -/
def disjunction : Nat → Reader Test
  | 0 => return .constant true
  | fuel + 1 => do
    let a ← conjunction fuel
    match (← get).rest with
    | w :: rest =>
      if w = "-o" || w = "-or" then
        modify fun p => { p with rest := rest }
        return .either a (← disjunction fuel)
      else return a
    | [] => return a
  termination_by structural fuel => fuel

/-- Tests one behind the other. -/
def conjunction : Nat → Reader Test
  | 0 => return .constant true
  | fuel + 1 => do
    let a ← factor fuel
    match (← get).rest with
    | w :: rest =>
      if w = "-a" || w = "-and" then
        modify fun p => { p with rest := rest }
        return .both a (← conjunction fuel)
      else if w = "-o" || w = "-or" || w = ")" then return a
      else return .both a (← conjunction fuel)
    | [] => return a
  termination_by structural fuel => fuel

/-- A test, its opposite, or tests in brackets. -/
def factor : Nat → Reader Test
  | 0 => return .constant true
  | fuel + 1 => do
    match (← get).rest with
    | [] => throw "expected an expression"
    | w :: rest =>
      modify fun p => { p with rest := rest }
      if w = "!" || w = "-not" then return .negation (← factor fuel)
      else if w = "(" then
        let t ← disjunction fuel
        match (← get).rest with
        | ")" :: rest =>
          modify fun p => { p with rest := rest }
          return t
        | _ =>
          throw "invalid expression; I was expecting to find a ')' somewhere but did not see one."
      else single w
  termination_by structural fuel => fuel

end

/-- Reads the tests; without an action, what passes is printed. -/
def readTests (words : List String) : Except String (Test × Range) :=
  if words.isEmpty then .ok (.print "\n", ⟨0, none⟩)
  else
    match (disjunction (4 * words.length + 4)).run ⟨words, ⟨0, none⟩⟩ with
    | .error message => .error message
    | .ok (t, p) =>
      .ok (if t.acts then t else .both t (.print "\n"), p.range)

/-! ## The walk -/

/-- What came of a visit. -/
structure Outcome where
  holds : Bool
  pruned : Bool
  stopped : Bool
  collected : List String
  failed : Bool

/-- The letter of a kind of entry. -/
def kindOf : Item → Char
  | .file _ _ => 'f'
  | .directory => 'd'
  | .link _ => 'l'
  | .pipe _ => 'p'
  | .device (.stream _) => 'p'
  | .device _ => 'c'

/-- Applies tests to an entry; `call` runs a command. -/
def apply (call : List String → SessionM Nat) (path : String) (r : Route) (item : Item) :
    Test → SessionM Outcome
  | .name pattern folded => do
    let fold (s : String) : String := if folded then s.map Char.toLower else s
    return ⟨Pattern.fits (patternOfText (fold pattern)) (fold (baseName path)).toList, false, false,
      [], false⟩
  | .path pattern => do
    return ⟨Pattern.fits (patternOfText pattern) path.toList, false, false, [], false⟩
  | .kind letters => return ⟨letters.contains (kindOf item), false, false, [], false⟩
  | .empty => do
    let s ← get
    let b := match item with
      | .file bytes _ => bytes.size == 0
      | .directory => (s.disk.children r).isEmpty
      | _ => false
    return ⟨b, false, false, [], false⟩
  | .constant b => return ⟨b, false, false, [], false⟩
  | .print lineEnd => do
    say (path ++ lineEnd)
    return ⟨true, false, false, [], false⟩
  | .delete => do
    if path = "." then return ⟨true, false, false, [], false⟩
    else
      match ← change fun d here =>
        if item = .directory then d.removeDirectory here (pathOf path)
        else d.removeFile here (pathOf path) with
      | .ok () => return ⟨true, false, false, [], false⟩
      | .error e =>
        complain ("find: cannot delete " ++ cited path ++ ": " ++ reason e)
        return ⟨false, false, false, [], true⟩
  | .execute words => do
    let words := words.map fun w => Text.join path (w.splitOn "\x7b\x7d")
    let status ← call words
    return ⟨status == 0, false, false, [], false⟩
  | .executeAll _ => return ⟨true, false, false, [path], false⟩
  | .prune => return ⟨true, true, false, [], false⟩
  | .quit => return ⟨true, false, true, [], false⟩
  | .negation t => do
    let o ← apply call path r item t
    return { o with holds := !o.holds }
  | .both a b => do
    let o ← apply call path r item a
    if !o.holds || o.stopped then return o
    else
      let p ← apply call path r item b
      return ⟨p.holds, o.pruned || p.pruned, p.stopped, o.collected ++ p.collected,
        o.failed || p.failed⟩
  | .either a b => do
    let o ← apply call path r item a
    if o.holds || o.stopped then return o
    else
      let p ← apply call path r item b
      return ⟨p.holds, o.pruned || p.pruned, p.stopped, o.collected ++ p.collected,
        o.failed || p.failed⟩

/-- Two outcomes one after the other. -/
def Outcome.andThen (o p : Outcome) : Outcome :=
  ⟨p.holds, p.pruned, o.stopped || p.stopped, o.collected ++ p.collected, o.failed || p.failed⟩

/-- Does something for the items in order, until one stops the walk. -/
def inOrder (f : String → SessionM Outcome) : Outcome → List String → SessionM Outcome
  | o, [] => return o
  | o, n :: rest => do
    if o.stopped then return o
    else inOrder f (o.andThen (← f n)) rest

/-- Visits an entry and what is below it; `fuel` bounds the depth. -/
def visit (call : List String → SessionM Nat) (t : Test) (range : Range) :
    Nat → Nat → Route → String → SessionM Outcome
  | 0, _, _, _ => return ⟨true, false, false, [], false⟩
  | fuel + 1, depth, r, path => do
    let s ← get
    match s.disk.item? r with
    | none => return ⟨true, false, false, [], false⟩
    | some item =>
      let nothing : Outcome := ⟨true, false, false, [], false⟩
      let own : SessionM Outcome :=
        if range.least ≤ depth then apply call path r item t else return nothing
      let below : SessionM Outcome := do
        if item != .directory || range.most.any (· ≤ depth) then return nothing
        else
          let names := sortNames (((← get).disk.children r).map Text.Octets.ofText)
          inOrder (fun n => visit call t range fuel (depth + 1) (r ++ [Text.Octets.toText n])
            (if Text.endsWith "/" path then path ++ n else path ++ "/" ++ n)) nothing names
      if t.deletes then
        let o ← below
        if o.stopped then return o else return o.andThen (← own)
      else
        let o ← own
        if o.pruned || o.stopped then return o else return o.andThen (← below)

/-- Searches below paths. -/
def find (call : List String → SessionM Nat) : Utility := fun args => do
  let args := args.dropWhile fun a => a == "-L" || a == "-P" || a == "-H"
  let isPath (a : String) : Bool := !Text.startsWith "-" a && a != "!" && a != "("
  let roots := args.takeWhile isPath
  match readTests (args.dropWhile isPath) with
  | .error message =>
    complain ("find: " ++ message)
    return 1
  | .ok (t, range) =>
    let outcomes ← (if roots.isEmpty then ["."] else roots).mapM fun root => do
      let s ← get
      match s.disk.lookup s.here false (pathOf root) with
      | .error e =>
        complain ("find: " ++ cited root ++ ": " ++ reason e)
        return (⟨false, false, false, [], true⟩ : Outcome)
      | .ok (r, _) => visit call t range (s.disk.items.length + 1) 0 r root
    let collected := outcomes.flatMap (·.collected)
    let status ← match t.together? with
      | some words => if collected.isEmpty then pure 0 else call (words ++ collected)
      | none => pure 0
    return if outcomes.any (·.failed) || status != 0 then 1 else 0

end ClassViewer.Shell.Find
