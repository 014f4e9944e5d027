import ClassViewer.Shell.Utility.Table

/-!
# Programs that run others

What programs such as `env`, `xargs` and `timeout` take from their arguments and their input before
they run another program, and what a program reports when its output is lost.
-/

namespace ClassViewer.Shell

/-! ## Words as arguments -/

/-- The words of an input, for commands that take them as arguments. -/
def inputWords (quotes : Bool) : Nat → Option (List Char) → List Char → List String
  | 0, _, _ => []
  | _ + 1, word, [] => (word.map fun w => String.ofList w.reverse).toList
  | fuel + 1, word, c :: cs =>
    if Number.isBlank c then
      (word.map fun w => String.ofList w.reverse).toList ++ inputWords quotes fuel none cs
    else if quotes && (c = '"' || c = Char.ofNat 39) then
      let inside := cs.takeWhile (· != c)
      inputWords quotes fuel (some (inside.reverse ++ word.getD [])) (cs.drop (inside.length + 1))
    else
      match quotes, c, cs with
      | true, '\\', d :: cs => inputWords quotes fuel (some (d :: word.getD [])) cs
      | _, c, cs => inputWords quotes fuel (some (c :: word.getD [])) cs

/-- The long options of `xargs`. -/
def longWordsOptions : List (String × Char) :=
  [("null", '0'), ("no-run-if-empty", 'r'), ("max-args", 'n'), ("replace", 'I'),
    ("max-lines", 'L'), ("delimiter", 'd'), ("max-procs", 'P'), ("verbose", 't')]

/-- The options of `xargs` up to the command it runs, or a message. -/
def wordsOptions : List String → Except String (Given × List String)
  | [] => .ok (⟨[], []⟩, [])
  | "--" :: rest => .ok (⟨[], []⟩, rest)
  | a :: rest =>
    let wrong (message : String) : Except String (Given × List String) :=
      .error ("xargs: " ++ message ++ "\n" ++ hint "xargs")
    let behind (found : List (Char × String)) (r : Given × List String) : Given × List String :=
      (⟨found ++ r.1.options, []⟩, r.2)
    match a.toList with
    | '-' :: '-' :: name =>
      let (name, value) := match Text.split '=' (String.ofList name) with
        | name :: value => (name, Text.join "=" value)
        | [] => ("", "")
      match longWordsOptions.lookup name with
      | some letter => (wordsOptions rest).map (behind [(letter, value)])
      | none => wrong ("unrecognized option " ++ between a)
    | '-' :: c :: cs =>
      match readLetters "0eiloprtx" "adEILnPs" (c :: cs), rest with
      | (found, none), rest => (wordsOptions rest).map (behind found)
      | (found, some (.ok letter)), value :: rest =>
        (wordsOptions rest).map (behind (found ++ [(letter, value)]))
      | (_, some (.ok letter)), [] =>
        wrong ("option requires an argument -- " ++ between (String.singleton letter))
      | (_, some (.error letter)), _ =>
        wrong ("invalid option -- " ++ between (String.singleton letter))
    | _ => .ok (⟨[], []⟩, a :: rest)

/-- A list in pieces of so many items. -/
def inPieces (n : Nat) : Nat → List String → List (List String)
  | 0, _ => []
  | fuel + 1, items =>
    if items.isEmpty then [] else items.take n :: inPieces n fuel (items.drop n)

/-! ## Environments and limits -/

/-- What `env` is asked for: whether it clears the environment, the variables it takes away, and
what it is to set and to run; or a message. -/
def envOptions : Nat → List String → Except String (Bool × List String × List String)
  | 0, args => .ok (false, [], args)
  | fuel + 1, args =>
    let cleared := fun (r : Bool × List String × List String) => (true, r.2)
    let without (name : String) := fun (r : Bool × List String × List String) =>
      (r.1, name :: r.2.1, r.2.2)
    let parts (text : String) : List String := (Text.split ' ' text).filter (· != "")
    match args with
    | "--" :: rest => .ok (false, [], rest)
    | "-" :: rest => (envOptions fuel rest).map cleared
    | "-i" :: rest => (envOptions fuel rest).map cleared
    | "-u" :: name :: rest => (envOptions fuel rest).map (without name)
    | "-S" :: text :: rest => envOptions fuel (parts text ++ rest)
    | a :: rest =>
      match a.toList with
      | '-' :: 'S' :: text => envOptions fuel (parts (String.ofList text) ++ rest)
      | '-' :: 'u' :: name => (envOptions fuel rest).map (without (String.ofList name))
      | '-' :: '-' :: _ => .error ("env: unrecognized option '" ++ a ++ "'\n" ++ hint "env")
      | '-' :: c :: _ =>
        .error ("env: invalid option -- '" ++ String.singleton c ++ "'\n" ++ hint "env")
      | _ => .ok (false, [], args)
    | [] => .ok (false, [], [])

/-- A bound on the time a program may take. -/
structure Limit where
  /-- The signal that ends the program. -/
  signal : Nat
  /-- Whether the status is that of the program also if it is ended. -/
  preserves : Bool
  /-- Whether it is said that the program is ended. -/
  tells : Bool

/-- What `timeout` is asked for before its time and its command, or a message. -/
def limitOptions (l : Limit) : List String → Except String (Limit × List String)
  | [] => .ok (l, [])
  | [a] => if Text.startsWith "-" a then .error (hint "timeout") else .ok (l, [a])
  | a :: next :: rest =>
    let refuse {α : Type} (message : String) : Except String α :=
      .error ("timeout: " ++ message ++ "\n" ++ hint "timeout")
    let signalled (given : String) : Except String Limit :=
      match Signal.ofText? 1 given with
      | some n => .ok { l with signal := n }
      | none => refuse (cited given ++ ": invalid signal")
    let graced (given : String) : Except String Limit :=
      if (interval? given).isSome then .ok l else refuse ("invalid time interval " ++ cited given)
    let behind (start : String) : Option String := Text.dropHead? start a
    match behind "--signal=", behind "--kill-after=", a.toList with
    | some given, _, _ => do limitOptions (← signalled given) (next :: rest)
    | _, some given, _ => do limitOptions (← graced given) (next :: rest)
    | _, _, ['-', '-'] => .ok (l, next :: rest)
    | _, _, ['-', 's'] => do limitOptions (← signalled next) rest
    | _, _, ['-', 'k'] => do limitOptions (← graced next) rest
    | _, _, '-' :: 's' :: given => do
      limitOptions (← signalled (String.ofList given)) (next :: rest)
    | _, _, '-' :: 'k' :: given => do
      limitOptions (← graced (String.ofList given)) (next :: rest)
    | _, _, '-' :: c :: _ =>
      if a = "--preserve-status" then limitOptions { l with preserves := true } (next :: rest)
      else if a = "--foreground" then limitOptions l (next :: rest)
      else if a = "--verbose" || a = "-v" then limitOptions { l with tells := true } (next :: rest)
      else if c = '-' then refuse ("unrecognized option " ++ between a)
      else refuse ("invalid option -- " ++ between (String.singleton c))
    | _, _, _ => .ok (l, a :: next :: rest)

/-! ## Lost output -/

/-- What a program says when its output is lost, and its status then. -/
def lossReport (program : String) (e : OsError) : String × Nat :=
  let why := e.description
  let isClosed := e = .badDescriptor
  let failed := program ++ ": write error: " ++ why
  let brief := if isClosed then failed else program ++ ": write error"
  match program with
  | "cat" => (if isClosed then "cat: standard output: " ++ why else failed, 1)
  | "tee" => (if isClosed then "tee: 'standard output': " ++ why else failed, 1)
  | "sort" => ("sort: fflush failed: 'standard output': " ++ why ++ "\nsort: write error", 2)
  | "sed" =>
    ("sed: couldn't " ++ (if isClosed then "close" else "flush") ++ " stdout: " ++ why, 4)
  | "find" => ("find: 'standard output': " ++ why ++ "\n" ++ brief, 1)
  | "wc" => (brief, 1)
  | "sha256sum" => (brief, 1)
  | "grep" => (failed, 2)
  | "ls" => (failed, 2)
  | "expr" => (failed, 3)
  | "env" => (failed, 125)
  | _ => (failed, 1)

end ClassViewer.Shell
