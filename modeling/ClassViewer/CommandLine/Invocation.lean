import ClassViewer.Batch
import ClassViewer.CommandLine.Argument

/-!
# Invocations

What the program can be asked to do, and how it is asked by arguments. The options of `Globals` are
understood before and behind the subcommand; where one is given in both places, the latter counts.
-/

namespace ClassViewer.CommandLine

/-- The options of every request. -/
structure Globals where
  db : Option Path
  cfr : Option Path
  procyon : Option Path
  vineflower : Option Path
  jd : Option Path
  verbose : Bool
  deriving DecidableEq, Repr

/-- What is asked for. -/
inductive Request where
  | decompile (locations : List String) (engine : Option String) (noRealign : Bool)
      (format : Format) (output : Option Path)
  | directory (path : Path) (engine : Option String) (noRealign : Bool)
  | engines
  | select (id : String)
  | realign (enabled : Bool)
  | showSettings
  | reset
  deriving DecidableEq, Repr

/-- A run of the program as it was asked for. -/
structure Invocation where
  globals : Globals
  request : Request
  deriving DecidableEq, Repr

/-! ## What is understood -/

/-- The option for help. -/
def helpSwitch : Switch := ⟨helpWord, some 'h', .help⟩

/-- The options of every request. -/
def globalSwitches : List Switch :=
  [⟨"db", none, .valued .path⟩, ⟨"cfr", none, .valued .path⟩, ⟨"procyon", none, .valued .path⟩,
    ⟨"vineflower", none, .valued .path⟩, ⟨"jd", none, .valued .path⟩, ⟨"verbose", some 'v', .flag⟩,
    helpSwitch]

/-- The options that say how to decompile. -/
def engineSwitches : List Switch :=
  [⟨"engine", some 'e', .valued .text⟩, ⟨"no-realign", none, .flag⟩]

/-- The subcommands. -/
def subcommands : List String :=
  ["decompile", "dir", "engines", "select", "realign", "show", "reset"]

/-- What is understood before a subcommand. -/
def topLevel : Level := ⟨globalSwitches, .none, subcommands ++ [helpWord]⟩

/-- What is understood behind a subcommand. -/
def levelOf : String → Level
  | "decompile" =>
    ⟨globalSwitches ++ engineSwitches ++
      [⟨"format", some 'f', .valued (.word ["text", "json"])⟩, ⟨"output", some 'o', .valued .path⟩],
      .many .text, []⟩
  | "dir" => ⟨globalSwitches ++ engineSwitches, .one .path, []⟩
  | "select" => ⟨globalSwitches, .one .text, []⟩
  | "realign" => ⟨globalSwitches, .one (.word ["on", "off"]), []⟩
  | _ => ⟨globalSwitches, .none, []⟩

/-! ## What was asked for -/

/-- The value of an option. -/
def Progress.value? (p : Progress) (name : String) : Option String :=
  (p.given.lookup name).join

/-- Whether an option was given. -/
def Progress.has (p : Progress) (name : String) : Bool := (p.given.lookup name).isSome

/-- The options of every request, from before and from behind the subcommand. -/
def globalsOf (top sub : Progress) : Globals :=
  let path (name : String) : Option Path :=
    ((sub.value? name).or (top.value? name)).map fun s => ⟨s⟩
  { db := path "db", cfr := path "cfr", procyon := path "procyon"
    vineflower := path "vineflower", jd := path "jd"
    verbose := top.has "verbose" || sub.has "verbose" }

/-- The request of a subcommand. -/
def requestOf (name : String) (p : Progress) : Except ArgumentError Request :=
  let engine := p.value? "engine"
  let noRealign := p.has "no-realign"
  match name, p.operands with
  | "decompile", [] => .error .missingRequiredArgument
  | "decompile", locations =>
    let format := if p.value? "format" = some "json" then Format.json else .text
    .ok (.decompile locations engine noRealign format ((p.value? "output").map fun s => ⟨s⟩))
  | "dir", path :: _ => .ok (.directory ⟨path⟩ engine noRealign)
  | "select", id :: _ => .ok (.select id)
  | "realign", state :: _ => .ok (.realign (state == "on"))
  | "engines", _ => .ok .engines
  | "show", _ => .ok .showSettings
  | "reset", _ => .ok .reset
  | _, _ => .error .missingRequiredArgument

/-- Reads the arguments behind the program's name. What is wrong behind the subcommand is found
before a wrong value right in front of it. -/
def parse (args : List String) : Except ArgumentError Invocation := do
  match ← readLevel topLevel .start args with
  | (top, none) =>
    .error (if top.given.isEmpty then .helpOnMissingSubcommand else .missingSubcommand)
  | (top, some (name, rest)) =>
    let (sub, _) ← readLevel (levelOf name) .start rest
    let request ← requestOf name sub
    .ok ⟨globalsOf (← top.settle topLevel) sub, request⟩

/-! ## Decompiling without saying so -/

/-- The options before a subcommand whose value is an argument of its own. -/
def valuedWords : List String := ["--db", "--cfr", "--procyon", "--vineflower", "--jd"]

/-- How many arguments stand before the one that has to be a subcommand. -/
def leadingCount : List String → Nat
  | [] => 0
  | arg :: rest =>
    if arg = "--" then 1
    else if valuedWords.contains arg then
      match rest with
      | [] => 2
      | _ :: rest => 2 + leadingCount rest
    else if Text.startsWith "-" arg then 1 + leadingCount rest
    else 0

/-- The arguments with the subcommand put in when there is none: locations alone are decompiled. -/
def withSubcommand (args : List String) : List String :=
  let n := leadingCount args
  match args.drop n with
  | [] => args
  | word :: rest =>
    if (subcommands ++ [helpWord]).contains word then args
    else args.take n ++ "decompile" :: word :: rest

end ClassViewer.CommandLine
