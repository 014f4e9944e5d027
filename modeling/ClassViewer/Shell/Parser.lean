import ClassViewer.Shell.Script

/-!
# Reading scripts

A reader by recursive descent on the characters of a script, one line with all that belongs to it at
a time. A script that is malformed gives a `Fault` with the words it is reported by and the line it
was noticed on. `fuel` bounds the depth of calls and is larger than any script needs.
-/

namespace ClassViewer.Shell.Parser

/-- The characters that are left. -/
abbrev Input := List Char

/-- The number of line ends. -/
def countLines (cs : Input) : Nat := cs.count '\n'

/-- The line that ends a document, and whether tabs at the beginning of lines are left out. -/
structure Mark where
  text : String
  tabs : Bool
  deriving DecidableEq, Repr

/-- Where reading stands. -/
structure Scan where
  /-- The characters that are left. -/
  rest : Input
  /-- The number of lines of the script. -/
  total : Nat
  /-- The end of the document that is read. -/
  document : Option Mark
  /-- Documents that were read before their place and are no longer among the characters: how many
  characters follow them, and how many lines they have. -/
  ahead : List (Nat × Nat)
  /-- The words that stand for texts at the beginning of a command. -/
  aliases : List (String × String)
  /-- Those whose text is being read, and how many characters follow that text. -/
  inUse : List (String × Nat)

/-- The script before its first character. -/
def Scan.start (aliases : List (String × String)) (cs : Input) : Scan :=
  ⟨cs, countLines cs + 1, none, [], aliases, []⟩

/-- The line that is read. -/
def Scan.line (s : Scan) : Nat :=
  let missing := s.ahead.filter fun d => d.1 < s.rest.length
  s.total - countLines s.rest - (missing.map (·.2)).foldl (· + ·) 0

/-- What is wrong with a script, and where that was noticed. -/
structure Fault where
  message : String
  line : Nat
  deriving DecidableEq, Repr

/-- A step of reading. -/
abbrev Reader := StateT Scan (Except Fault)

/-- The characters that are left. -/
def input : Reader Input := do return (← get).rest

/-- Goes on with other characters. -/
def goTo (cs : Input) : Reader Unit := modify fun s => { s with rest := cs }

/-- Gives up. -/
def fail {α : Type} (message : String) : Reader α := do
  throw ⟨message, (← get).line⟩

def isNameStart (c : Char) : Bool := c.isAlpha || c == '_'

def isNameChar (c : Char) : Bool := c.isAlphanum || c == '_'

def isName (s : String) : Bool :=
  match s.toList with
  | [] => false
  | c :: cs => isNameStart c && cs.all isNameChar

/-- The characters that end a word. -/
def endsWord (c : Char) : Bool :=
  c == ' ' || c == '\t' || c == '\n' || c == ';' || c == '&' || c == '|' || c == '<' || c == '>' ||
    c == '(' || c == ')'

/-- The special parameters of one character. -/
def isSpecial (c : Char) : Bool :=
  c == '@' || c == '*' || c == '#' || c == '?' || c == '$' || c == '!' || c == '-' || c.isDigit

/-! ## Tokens -/

/-- What stands at the beginning of some characters. -/
inductive Token where
  | endOfFile
  | newline
  | semicolon
  | background
  | both
  | either
  | pipe
  | opening
  | closing
  | endOfArm
  | redirection
  | word
  | keyword (k : String)
  deriving DecidableEq, Repr

/-- What a token is called. -/
def Token.name : Token → String
  | endOfFile => "end of file"
  | newline => "newline"
  | semicolon => "\";\""
  | background => "\"&\""
  | both => "\"&&\""
  | either => "\"||\""
  | pipe => "\"|\""
  | opening => "\"(\""
  | closing => "\")\""
  | endOfArm => "\";;\""
  | redirection => "redirection"
  | word => "word"
  | keyword k => "\"" ++ k ++ "\""

/-- The reserved words. -/
def keywords : List String :=
  ["!", "case", "do", "done", "elif", "else", "esac", "fi", "for", "if", "in", "then", "until",
    "while", "\x7b", "\x7d"]

/-- Whether a list of commands ends before a token. -/
def Token.endsList : Token → Bool
  | endOfFile => true
  | closing => true
  | endOfArm => true
  | keyword k => k ∈ ["then", "else", "elif", "fi", "do", "done", "esac", "\x7d"]
  | _ => false

/-- Passes over blanks, joined lines and a comment. -/
def skipBlanks : Input → Input
  | ' ' :: cs => skipBlanks cs
  | '\t' :: cs => skipBlanks cs
  | '\\' :: '\n' :: cs => skipBlanks cs
  | '#' :: cs => cs.dropWhile (· != '\n')
  | cs => cs

/-- Passes over line ends that join lines. -/
def dropJoined : Input → Input
  | '\\' :: '\n' :: cs => dropJoined cs
  | cs => cs

/-- The characters at the beginning that satisfy `p`, across joined lines, and those behind them. -/
def takeJoined (p : Char → Bool) : Input → List Char × Input
  | '\\' :: '\n' :: cs => takeJoined p cs
  | c :: cs =>
    if p c then
      let (taken, rest) := takeJoined p cs
      (c :: taken, rest)
    else ([], c :: cs)
  | [] => ([], [])

/-- The characters of operators that go on with another one. -/
def isOperatorChar (c : Char) : Bool :=
  c == ';' || c == '&' || c == '|' || c == '<' || c == '>'

/-- The characters with the lines joined in the first operator, or in the plain text of the first
word. -/
def joinFirst (cs : Input) : Input :=
  let isPlain (c : Char) : Bool :=
    !endsWord c && c != '\\' && c != '"' && c != '$' && c.toNat != 39 && c.toNat != 96
  let isJoined := if cs.head?.any isOperatorChar then isOperatorChar else isPlain
  let (taken, rest) := takeJoined isJoined cs
  taken ++ rest

/-- The characters up to the end of a word. -/
def wordRun (cs : Input) : String := String.ofList (cs.takeWhile fun c => !endsWord c)

/-- The token at the beginning, and its length; words and redirections are read by themselves and
have none. -/
def tokenAt (withKeywords : Bool) (cs : Input) : Token × Nat :=
  match cs with
  | [] => (.endOfFile, 0)
  | '\n' :: _ => (.newline, 1)
  | ';' :: ';' :: _ => (.endOfArm, 2)
  | ';' :: _ => (.semicolon, 1)
  | '&' :: '&' :: _ => (.both, 2)
  | '&' :: _ => (.background, 1)
  | '|' :: '|' :: _ => (.either, 2)
  | '|' :: _ => (.pipe, 1)
  | '(' :: _ => (.opening, 1)
  | ')' :: _ => (.closing, 1)
  | '<' :: _ => (.redirection, 0)
  | '>' :: _ => (.redirection, 0)
  | d :: c :: _ =>
    if d.isDigit && (c == '<' || c == '>') then (.redirection, 0)
    else if withKeywords && wordRun cs ∈ keywords then
      (.keyword (wordRun cs), (wordRun cs).toList.length)
    else (.word, 0)
  | cs =>
    if withKeywords && wordRun cs ∈ keywords then
      (.keyword (wordRun cs), (wordRun cs).toList.length)
    else (.word, 0)

/-- What is behind the operator of a redirection. -/
def behindOperator (cs : Input) : Input :=
  match cs.dropWhile Char.isDigit with
  | '<' :: '<' :: '-' :: cs => cs
  | '<' :: c :: cs => if c = '<' || c = '&' || c = '>' then cs else c :: cs
  | '>' :: c :: cs => if c = '>' || c = '&' || c = '|' then cs else c :: cs
  | cs => cs.drop 1

/-- Passes over blanks and line ends; `fuel` bounds the lines. -/
def skipLines : Nat → Input → Input
  | 0, cs => cs
  | fuel + 1, cs =>
    match skipBlanks cs with
    | '\n' :: cs => skipLines fuel cs
    | cs => cs

/-- The token that comes next, and the characters behind it. -/
def peek (withKeywords acrossLines : Bool) : Reader (Token × Input) := do
  let cs ← input
  let cs := joinFirst (if acrossLines then skipLines (cs.length + 1) cs else skipBlanks cs)
  goTo cs
  let (t, n) := tokenAt withKeywords cs
  return (t, cs.drop n)

/-- Puts the text that a word stands for in its place, if the word comes next and does not stand in
that text itself; `fuel` bounds how often. -/
def Scan.replaceAlias : Nat → Scan → Scan
  | 0, s => s
  | fuel + 1, s =>
    let cs := skipBlanks s.rest
    let name := wordRun cs
    let after := cs.drop name.toList.length
    let isUsed := s.inUse.any fun u => u.1 == name && u.2 < cs.length
    match if isUsed || keywords.contains name then none else s.aliases.lookup name with
    | none => { s with rest := cs }
    | some text => Scan.replaceAlias fuel { s with
        rest := text.toList ++ after
        total := s.total + countLines text.toList
        inUse := (name, after.length) :: s.inUse.filter (·.2 < cs.length)
        ahead := s.ahead.filter (·.1 < cs.length) }

/-- Whether the text of a word that stands for one ends before the next word, and in a blank: then
the next word is looked at too. -/
def Scan.leavesAlias (s : Scan) : Bool :=
  let left := (skipBlanks s.rest).length
  s.inUse.any fun u => u.2 < s.rest.length && left ≤ u.2 &&
    ((s.aliases.lookup u.1).any fun text => Text.endsWith " " text || Text.endsWith "\t" text)

/-- The token that comes next where a command may begin. -/
def peekCommand (acrossLines : Bool) : Reader (Token × Input) := do
  let (t, after) ← peek true acrossLines
  if t = .word then
    modify fun s => s.replaceAlias (s.rest.length + s.aliases.length + 1)
    peek true acrossLines
  else return (t, after)

/-! ## Parts of words -/

/-- The apostrophe. -/
def apostrophe : Char := Char.ofNat 39

/-- The grave accent. -/
def grave : Char := Char.ofNat 96

/-- Reads up to the apostrophe that closes. -/
def readSingle (acc : List Char) : Input → Option (String × Input)
  | [] => none
  | c :: cs =>
    if c = apostrophe then some (String.ofList acc.reverse, cs) else readSingle (c :: acc) cs

/-- Reads the text of an old-style substitution, up to the grave accent that closes. -/
def readGraveText (quoted : Bool) (acc : List Char) : Input → Option (String × Input)
  | [] => none
  | c :: cs =>
    if c = grave then some (String.ofList acc.reverse, cs)
    else if c = '\\' then
      match cs with
      | d :: cs =>
        if d = grave || d = '\\' || d = '$' || (quoted && d = '"') then
          readGraveText quoted (d :: acc) cs
        else readGraveText quoted (d :: '\\' :: acc) cs
      | [] => none
    else readGraveText quoted (c :: acc) cs

/-- The modifier behind a name and a colon, and the characters behind it. -/
def colonModifierAt (cs : Input) : Option Modifier × Bool × Input :=
  match dropJoined cs with
  | '-' :: cs => (some .orElse, true, cs)
  | '=' :: cs => (some .orAssign, true, cs)
  | '+' :: cs => (some .andThen, true, cs)
  | '?' :: cs => (some .orFail, true, cs)
  | cs => (some .malformed, false, cs.drop 1)

/-- Whether a sign is written twice, and the characters behind it. -/
def doubled (sign : Char) (cs : Input) : Bool × Input :=
  match dropJoined cs with
  | c :: rest => if c = sign then (true, rest) else (false, c :: rest)
  | [] => (false, [])

/-- The modifier behind a name, whether it has a colon, and the characters behind it. -/
def modifierAt (cs : Input) : Option Modifier × Bool × Input :=
  match dropJoined cs with
  | '}' :: cs => (none, false, '}' :: cs)
  | ':' :: cs => colonModifierAt cs
  | '-' :: cs => (some .orElse, false, cs)
  | '=' :: cs => (some .orAssign, false, cs)
  | '+' :: cs => (some .andThen, false, cs)
  | '?' :: cs => (some .orFail, false, cs)
  | '#' :: cs =>
    let (longest, cs) := doubled '#' cs
    (some (.withoutHead longest), false, cs)
  | '%' :: cs =>
    let (longest, cs) := doubled '%' cs
    (some (.withoutTail longest), false, cs)
  | cs => (some .malformed, false, cs.drop 1)

/-- The name of the parameter at the beginning, and what is behind it. -/
def nameAt (cs : Input) : Option (String × Input) :=
  let run (p : Char → Bool) : String × Input :=
    let (name, rest) := takeJoined p cs
    (String.ofList name, rest)
  match dropJoined cs with
  | c :: rest =>
    if isNameStart c then some (run isNameChar)
    else if c.isDigit then some (run Char.isDigit)
    else if isSpecial c then some (String.singleton c, rest)
    else none
  | [] => none

/-- The beginning of a parameter expansion in braces: the name, the modifier, whether it has a
colon, and the characters behind it. A character that is no name is passed over. -/
def bracedHead (cs : Input) : String × Option Modifier × Bool × Input :=
  let malformed (rest : Input) : String × Option Modifier × Bool × Input :=
    ("", some .malformed, false, rest)
  let plain : String × Option Modifier × Bool × Input :=
    match nameAt cs, dropJoined cs with
    | some (name, rest), _ => (name, modifierAt rest)
    | none, '}' :: rest => malformed ('}' :: rest)
    | none, rest => malformed (rest.drop 1)
  match dropJoined cs with
  | '#' :: rest =>
    match dropJoined rest with
    | c :: more =>
      match if isNameChar c then nameAt (c :: more) else none, dropJoined more with
      | some (name, '}' :: after), _ => (name, some .length, false, '}' :: after)
      | some (name, after), _ => (name, some .malformed, false, after)
      | none, '}' :: after =>
        if c = '}' then plain
        else if isSpecial c then (String.singleton c, some .length, false, '}' :: after)
        else malformed ('}' :: after)
      | none, _ => plain
    | [] => plain
  | _ => plain

/-- The parts with a character of text added behind them. -/
def addChar (quoted : Bool) (c : Char) (parts : List Part) : List Part :=
  match parts with
  | .text s q :: rest => if q = quoted then .text (s.push c) q :: rest
    else .text (String.singleton c) quoted :: parts
  | _ => .text (String.singleton c) quoted :: parts

/-- What ends a text in which blanks and apostrophes stand for themselves. -/
inductive Close where
  /-- A quotation mark. -/
  | mark
  /-- A closing brace. -/
  | brace
  /-- A closing brace behind the quotation mark that closes. -/
  | innerMark
  /-- The end of the characters. -/
  | finish
  deriving DecidableEq

/-- The accounts whose home directories are known; the empty name stands for the one in use. -/
def isAccount (name : String) : Bool := name = "" || name = "root"

/-- Whether a tilde is followed by the name of an account up to a slash or the end of the word. -/
def account? (inBrace : Bool) (cs : Input) : Option String :=
  let ends (c : Char) : Bool := c = '/' || (if inBrace then c = '}' else endsWord c)
  let name := String.ofList (cs.takeWhile fun c => !ends c)
  if isAccount name then some name else none

/-- The home directories in unquoted text of the value of an assignment, in which a tilde also has a
meaning behind a colon. `fresh` says whether the text stands at such a place, and `isLast` whether
it ends the word. -/
def homesInText (isLast : Bool) : Nat → Bool → Input → List Part → List Part
  | 0, _, _, parts => parts
  | _ + 1, _, [], parts => parts
  | fuel + 1, fresh, c :: cs, parts =>
    let name := cs.takeWhile fun d => d != '/' && d != ':'
    let after := cs.drop name.length
    if c = '~' && fresh && isAccount (String.ofList name) && (isLast || !after.isEmpty) then
      homesInText isLast fuel false after (.home (String.ofList name) :: parts)
    else homesInText isLast fuel (c == ':') cs (addChar false c parts)

/-- The value of an assignment with its home directories. -/
def withHomes (fresh : Bool) : Word → Word
  | [] => []
  | .text s false :: rest =>
    let parts := homesInText rest.isEmpty (s.length + 1) fresh s.toList []
    parts.reverse ++ withHomes (Text.endsWith ":" s) rest
  | part :: rest => part :: withHomes false rest

/-! ## Documents -/

/-- What follows the line that ends a document, if that line comes next. -/
def Mark.end? (m : Mark) (cs : Input) : Option Input :=
  let cs := if m.tabs then cs.dropWhile (· == '\t') else cs
  let line := cs.takeWhile (· != '\n')
  if !cs.isEmpty && String.ofList line = m.text then some (cs.drop (line.length + 1)) else none

/-- Takes the lines of a document in which nothing is expanded; `fuel` bounds them. -/
def takeDocument (m : Mark) : Nat → List Char → Input → String × Input
  | 0, acc, cs => (String.ofList acc.reverse, cs)
  | fuel + 1, acc, cs =>
    match m.end? cs with
    | some after => (String.ofList acc.reverse, after)
    | none =>
      let cs := if m.tabs then cs.dropWhile (· == '\t') else cs
      let line := cs.takeWhile (· != '\n')
      match cs.drop line.length with
      | [] => (String.ofList (line.reverse ++ acc).reverse, [])
      | _ :: cs => takeDocument m fuel ('\n' :: line.reverse ++ acc) cs

/-- What a character of a line stands in. -/
inductive Nest where
  | single
  | double
  | grave
  | bracket
  | brace
  deriving DecidableEq, Repr

/-- Splits at the end of the line: at a line end outside of quotes and substitutions. -/
def splitLine (nests : List Nest) (acc : List Char) : Input → Input × Option Input
  | [] => (acc.reverse, none)
  | '\\' :: d :: cs =>
    if nests.head? = some .single then splitLine nests ('\\' :: acc) (d :: cs)
    else splitLine nests (d :: '\\' :: acc) cs
  | '$' :: '(' :: cs =>
    if nests.head? = some .single then splitLine nests ('(' :: '$' :: acc) cs
    else splitLine (.bracket :: nests) ('(' :: '$' :: acc) cs
  | '$' :: '\x7b' :: cs =>
    if nests.head? = some .single then splitLine nests ('\x7b' :: '$' :: acc) cs
    else splitLine (.brace :: nests) ('\x7b' :: '$' :: acc) cs
  | c :: cs =>
    let inside := nests.head?
    let nests :=
      if inside = some .single then (if c = apostrophe then nests.tail else nests)
      else if c = '"' then (if inside = some .double then nests.tail else .double :: nests)
      else if c = grave then (if inside = some .grave then nests.tail else .grave :: nests)
      else if c = '\x7d' && inside = some .brace then nests.tail
      else if inside = some .double then nests
      else if c = apostrophe then .single :: nests
      else if c = '(' && inside = some .bracket then .bracket :: nests
      else if c = ')' && inside = some .bracket then nests.tail
      else nests
    if c = '\n' && nests.isEmpty then (acc.reverse, some cs) else splitLine nests (c :: acc) cs

/-- Reads the mark of a document, in which nothing but quotes has a meaning, and says whether it has
any; nothing for quotes that are not closed. -/
def readMark (nest : Option Nest) (acc : List Char) (quoted : Bool) :
    Input → Option (String × Bool × Input)
  | [] => if nest.isNone then some (String.ofList acc.reverse, quoted, []) else none
  | '\\' :: '\n' :: cs =>
    if nest = some .single then readMark nest ('\n' :: '\\' :: acc) quoted cs
    else readMark nest acc quoted cs
  | '\\' :: d :: cs =>
    if nest = some .single && d = apostrophe then readMark none ('\\' :: acc) true cs
    else if nest = some .single ||
        nest = some .double && !(d = '$' || d = '\\' || d = grave || d = '"') then
      readMark nest (d :: '\\' :: acc) true cs
    else readMark nest (d :: acc) true cs
  | c :: cs =>
    if nest = some .single then
      if c = apostrophe then readMark none acc true cs else readMark nest (c :: acc) quoted cs
    else if nest = some .double then
      if c = '"' then readMark none acc true cs else readMark nest (c :: acc) quoted cs
    else if endsWord c then some (String.ofList acc.reverse, quoted, c :: cs)
    else if c = apostrophe then readMark (some .single) acc true cs
    else if c = '"' then readMark (some .double) acc true cs
    else readMark nest (c :: acc) (quoted || c == grave) cs

/-! ## Commands -/

/-- The assignment a word is, if it is one. -/
def assignment? (w : Word) : Option (String × Word) :=
  match w with
  | .text s false :: rest =>
    let name := String.ofList (s.toList.takeWhile (· != '='))
    match s.toList.dropWhile (· != '=') with
    | '=' :: value =>
      if isName name then
        let value := if value.isEmpty then rest else .text (String.ofList value) false :: rest
        some (name, withHomes true value)
      else none
    | _ => none
  | _ => none

/-- A simple command being read, its lists last one first. -/
structure Simple where
  assignments : List (String × Word)
  words : List Word
  redirections : List Redirection

/-- The command that was read. -/
def Simple.command (s : Simple) (line : Nat) : Command :=
  .simple line s.assignments.reverse s.words.reverse s.redirections.reverse

/-- The command names that cannot be given to a function. -/
def specialNames : List String :=
  [":", ".", "break", "continue", "eval", "exec", "exit", "export", "local", "readonly", "return",
    "set", "shift", "times", "trap", "unset"]

/-- The text of a word without quotes or expansions. -/
def plainText : Word → Option String
  | [.text s false] => some s
  | _ => none

/-- How a list of commands ends. -/
inductive Extent where
  /-- At the end of the line. -/
  | line
  /-- At a reserved word, behind at least one command. -/
  | block
  /-- The same, or without any command. -/
  | body
  deriving DecidableEq

/-- A command behind others. -/
def andThen : Command → Command → Command
  | .nothing, c => c
  | first, second => .sequence first second

/-- A command with its streams led elsewhere. -/
def withRedirections (line : Nat) (c : Command) : List Redirection → Command
  | [] => c
  | rs => .group line c rs

/-- Passes over the end of the document that is read, if it comes next, and over tabs that are left
out of it. -/
def atDocumentEnd : Reader Bool := do
  let s ← get
  match s.document with
  | none => return false
  | some m =>
    let cs := dropJoined s.rest
    match m.end? cs with
    | some after =>
      goTo after
      return true
    | none =>
      goTo (if m.tabs then cs.dropWhile (· == '\t') else cs)
      return false

/-- The refusal of a token. -/
def unexpected {α : Type} (t : Token) (wanted : Option Token) (after : Input) : Reader α := do
  if t = .newline then goTo after
  match wanted with
  | some w => fail (t.name ++ " unexpected (expecting " ++ w.name ++ ")")
  | none => fail (t.name ++ " unexpected")

mutual

/-- Reads a word, or the word of a parameter expansion up to its brace; the parts are collected last
one first. -/
def readParts (inBrace : Bool) : Nat → List Part → Reader (List Part)
  | 0, parts => return parts
  | fuel + 1, parts => do
    match ← input with
    | [] => if inBrace then fail "Missing '\x7d'" else return parts
    | c :: cs =>
      if inBrace && c == '}' then
        goTo cs
        return parts
      else if !inBrace && endsWord c then return parts
      else if c = apostrophe then
        match readSingle [] cs with
        | some (s, cs) =>
          goTo cs
          readParts inBrace fuel (.text s true :: parts)
        | none =>
          goTo []
          fail "Unterminated quoted string"
      else if c = '"' then
        goTo cs
        let inner ← readDouble .mark fuel []
        readParts inBrace fuel ((if inner.isEmpty then [.text "" true] else inner) ++ parts)
      else if c = '\\' then
        match cs with
        | '\n' :: cs =>
          goTo cs
          readParts inBrace fuel parts
        | d :: cs =>
          goTo cs
          readParts inBrace fuel (addChar true d parts)
        | [] =>
          goTo []
          readParts inBrace fuel (addChar true c parts)
      else if c = '$' then
        goTo cs
        let part ← readDollar fuel false
        readParts inBrace fuel (part :: parts)
      else if c = grave then
        goTo cs
        let part ← readGrave fuel false
        readParts inBrace fuel (part :: parts)
      else if c = '\n' then
        goTo cs
        if ← atDocumentEnd then fail "Missing '\x7d'"
        readParts inBrace fuel (addChar false c parts)
      else match if c = '~' && parts.isEmpty then account? inBrace cs else none with
        | some name =>
          goTo (cs.drop name.length)
          readParts inBrace fuel (.home name :: parts)
        | none =>
          goTo cs
          readParts inBrace fuel (addChar false c parts)
  termination_by structural fuel => fuel

/-- Reads text in which blanks and apostrophes stand for themselves; the parts are collected last
one first. -/
def readDouble : Close → Nat → List Part → Reader (List Part)
  | _, 0, parts => return parts
  | close, fuel + 1, parts => do
    match ← input with
    | [] =>
      match close with
      | .finish => return parts
      | _ =>
        if (← get).document.isSome then fail "Missing '\x7d'"
        else fail "Unterminated quoted string"
    | c :: cs =>
      if c = '"' && close = .mark || c = '}' && close = .brace then
        goTo cs
        return parts
      else if c = '"' && close = .brace then
        goTo cs
        readDouble .innerMark fuel parts
      else if c = '"' && close = .innerMark then
        goTo cs
        readDouble .brace fuel parts
      else if c = '\n' then
        goTo cs
        if ← atDocumentEnd then
          if close = .finish then return addChar true c parts else fail "Missing '\x7d'"
        else readDouble close fuel (addChar true c parts)
      else if c = '\\' then
        match cs with
        | '\n' :: cs =>
          goTo cs
          readDouble close fuel parts
        | d :: cs =>
          goTo cs
          if d = '$' || d = '\\' || d = grave || (d = '"' && close != .finish) ||
              (d = '}' && (close = .brace || close = .innerMark)) then
            readDouble close fuel (addChar true d parts)
          else readDouble close fuel (addChar true d (addChar true '\\' parts))
        | [] =>
          goTo []
          readDouble close fuel (addChar true c parts)
      else if c = '$' then
        goTo cs
        let part ← readDollar fuel true
        readDouble close fuel (part :: parts)
      else if c = grave then
        goTo cs
        let part ← readGrave fuel true
        readDouble close fuel (part :: parts)
      else
        goTo cs
        readDouble close fuel (addChar true c parts)
  termination_by structural _ fuel => fuel

/-- Reads an arithmetic expression up to the brackets that close it; the parts are collected last
one first. -/
def readArithmetic : Nat → Nat → List Part → Reader (List Part)
  | 0, _, parts => return parts
  | fuel + 1, level, parts => do
    match ← input with
    | [] => fail "Missing '))'"
    | c :: cs =>
      match c, cs with
      | ')', cs =>
        match level, dropJoined cs with
        | 0, ')' :: after =>
          goTo after
          return parts
        | _, _ =>
          goTo cs
          readArithmetic fuel (level - 1) (addChar true c parts)
      | '(', cs =>
        goTo cs
        readArithmetic fuel (level + 1) (addChar true c parts)
      | '\\', '\n' :: cs =>
        goTo cs
        readArithmetic fuel level parts
      | '\n', cs =>
        goTo cs
        if ← atDocumentEnd then fail "Missing '))'"
        else readArithmetic fuel level (addChar true c parts)
      | '$', cs =>
        goTo cs
        let part ← readDollar fuel true
        readArithmetic fuel level (part :: parts)
      | c, cs =>
        goTo cs
        if c = grave then
          let part ← readGrave fuel true
          readArithmetic fuel level (part :: parts)
        else readArithmetic fuel level (addChar true c parts)
  termination_by structural fuel => fuel

/-- Reads what stands behind a dollar sign. -/
def readDollar : Nat → Bool → Reader Part
  | 0, quoted => return .text "$" quoted
  | fuel + 1, quoted => do
    let cs := dropJoined (← input)
    match cs, dropJoined (cs.drop 1) with
    | '(' :: _, '(' :: cs =>
      goTo cs
      return .arithmetic (← readArithmetic fuel 0 []).reverse quoted
    | '(' :: cs, _ =>
      let document := (← get).document
      modify fun s => { s with rest := cs, document := none }
      let body ← readList .body fuel false .nothing
      let (t, after) ← peek true true
      modify fun s => { s with document := document }
      if t = .closing then
        goTo after
        return .substitution body quoted
      else
        refuse fuel t (some .closing) after
        return .substitution body quoted
    | '{' :: cs, _ =>
      let (name, modifier, colon, rest) := bracedHead cs
      let passed := (cs.take (cs.length - rest.length)).reverse
      if modifier = some .malformed && passed.head? = some '\n' && passed[1]? != some '\\' then
        modify fun s => { s with total := s.total - 1 }
      goTo rest
      let word ← if quoted && !modifier.any Modifier.takesPattern then readDouble .brace fuel []
        else readParts true fuel []
      return .parameter name modifier colon word.reverse quoted
    | c :: cs, _ =>
      if isNameStart c then
        let (name, rest) := takeJoined isNameChar (c :: cs)
        goTo rest
        return .parameter (String.ofList name) none false [] quoted
      else if isSpecial c then
        goTo cs
        return .parameter (String.singleton c) none false [] quoted
      else return .text "$" quoted
    | [], _ => return .text "$" quoted
  termination_by structural fuel => fuel

/-- Reads an old-style substitution behind its grave accent. Its text is a script of its own. -/
def readGrave : Nat → Bool → Reader Part
  | 0, quoted => return .text "" quoted
  | fuel + 1, quoted => do
    match readGraveText quoted [] (← input) with
    | none =>
      goTo []
      fail "EOF in backquote substitution"
    | some (s, after) =>
      let outer ← get
      set (Scan.start outer.aliases s.toList)
      let body ← readList .body fuel false .nothing
      set { outer with rest := after }
      return .substitution body quoted
  termination_by structural fuel => fuel

/-- Reads one word. -/
def readWord : Nat → Reader Word
  | 0 => return []
  | fuel + 1 => do return (← readParts false fuel []).reverse
  termination_by structural fuel => fuel

/-- Refuses a token; a word is read first, and may be what is wrong. -/
def refuse : Nat → Token → Option Token → Input → Reader Unit
  | 0, t, wanted, after => unexpected t wanted after
  | fuel + 1, t, wanted, after => do
    if t = .word then
      let _ ← readWord fuel
    unexpected t wanted after
  termination_by structural fuel => fuel

/-- Reads a token that has to come next. -/
def expect : Nat → Token → Bool → Reader Unit
  | 0, t, _ => fail (t.name ++ " unexpected")
  | fuel + 1, wanted, acrossLines => do
    let (t, after) ← peek true acrossLines
    if t = wanted then goTo after else refuse fuel t (some wanted) after
  termination_by structural fuel => fuel

/-- Reads the word behind the operator of a redirection. -/
def readTarget : Nat → Reader Word
  | 0 => return []
  | fuel + 1 => do
    let (t, after) ← peek false false
    if t = .word then readWord fuel
    else
      refuse fuel t none after
      return []
  termination_by structural fuel => fuel

/-- Reads the mark of a document and takes its lines out of the input behind this line. -/
def readDocument : Nat → Nat → Bool → Reader Redirection
  | 0, fd, _ => return .document fd []
  | fuel + 1, fd, tabs => do
    let (t, after) ← peek false false
    if t != .word then refuse fuel t none after
    match readMark none [] false (← input) with
    | none =>
      goTo []
      fail "Unterminated quoted string"
    | some (text, quoted, cs) =>
      let mark : Mark := ⟨text, tabs⟩
      match splitLine [] [] cs with
      | (_, none) =>
        goTo cs
        return .document fd []
      | (here, some below) =>
        let outer ← get
        set { outer with rest := below, document := some mark }
        let parts ← if quoted then do
            let (body, after) := takeDocument mark (countLines below + 1) [] below
            goTo after
            pure [.text body true]
          else do
            if ← atDocumentEnd then pure [] else readDouble .finish fuel []
        let after ← input
        let sameLine := outer.ahead.filter (·.1 == below.length)
        let others := outer.ahead.filter (·.1 != below.length)
        let lines := (sameLine.map (·.2)).foldl (· + ·) (countLines below - countLines after)
        set { outer with
          rest := here ++ '\n' :: after
          ahead := (after.length, lines) :: others }
        return .document fd parts.reverse
  termination_by structural fuel => fuel

/-- Reads a redirection. -/
def readRedirection : Nat → Reader Redirection
  | 0 => return .document 0 []
  | fuel + 1 => do
    let cs ← input
    let (fd, cs) : Option Nat × Input := match cs with
      | d :: cs => if d.isDigit then (some (d.toNat - 48), cs) else (none, d :: cs)
      | cs => (none, cs)
    match cs with
    | '<' :: '<' :: '-' :: cs =>
      goTo cs
      readDocument fuel (fd.getD 0) true
    | '<' :: '<' :: cs =>
      goTo cs
      readDocument fuel (fd.getD 0) false
    | '<' :: '&' :: cs =>
      goTo cs
      return .duplicate (fd.getD 0) (← readTarget fuel)
    | '<' :: '>' :: cs =>
      goTo cs
      return .both (fd.getD 0) (← readTarget fuel)
    | '<' :: cs =>
      goTo cs
      return .input (fd.getD 0) (← readTarget fuel)
    | '>' :: '>' :: cs =>
      goTo cs
      return .output (fd.getD 1) (← readTarget fuel) .append
    | '>' :: '&' :: cs =>
      goTo cs
      return .duplicate (fd.getD 1) (← readTarget fuel)
    | '>' :: '|' :: cs =>
      goTo cs
      return .output (fd.getD 1) (← readTarget fuel) .force
    | cs =>
      goTo (cs.drop 1)
      return .output (fd.getD 1) (← readTarget fuel) .replace
  termination_by structural fuel => fuel

/-- Reads the redirections behind a compound command. -/
def readRedirections : Nat → Reader (List Redirection)
  | 0 => return []
  | fuel + 1 => do
    let (t, _) ← peek true false
    if t = .redirection then
      let r ← readRedirection fuel
      return r :: (← readRedirections fuel)
    else return []
  termination_by structural fuel => fuel

/-- Reads commands to the end of a list; `started` says whether one was read, and `acc` holds what
was. -/
def readList (extent : Extent) : Nat → Bool → Command → Reader Command
  | 0, _, acc => return acc
  | fuel + 1, started, acc => do
    let (t, after) ← peekCommand (extent != .line)
    if t = .newline then
      goTo after
      return acc
    else if t = .endOfFile then return acc
    else if t.endsList && (extent = .body || extent = .block && started) then return acc
    else
      let c ← readAndOr fuel
      let (t, after) ← peek true false
      match t with
      | .background =>
        goTo after
        readList extent fuel true (andThen acc (.background c))
      | .semicolon =>
        goTo after
        readList extent fuel true (andThen acc c)
      | .newline => readList extent fuel true (andThen acc c)
      | .endOfFile => return andThen acc c
      | t =>
        if extent = .line then refuse fuel t none after
        return andThen acc c
  termination_by structural fuel => fuel

/-- Reads pipelines joined by `&&` and `||`. -/
def readAndOr : Nat → Reader Command
  | 0 => return .nothing
  | fuel + 1 => do
    let first ← readPipeline fuel false
    readAndOrRest fuel first
  termination_by structural fuel => fuel

/-- Goes on behind a pipeline. -/
def readAndOrRest : Nat → Command → Reader Command
  | 0, first => return first
  | fuel + 1, first => do
    let (t, after) ← peek true false
    match t with
    | .both =>
      goTo after
      let second ← readPipeline fuel true
      readAndOrRest fuel (.both first second)
    | .either =>
      goTo after
      let second ← readPipeline fuel true
      readAndOrRest fuel (.either first second)
    | _ => return first
  termination_by structural fuel => fuel

/-- Reads a pipeline. -/
def readPipeline : Nat → Bool → Reader Command
  | 0, _ => return .nothing
  | fuel + 1, acrossLines => do
    let (t, after) ← peekCommand acrossLines
    if t = .keyword "!" then
      goTo after
      return .pipeline true (← readPipes fuel false)
    else
      match ← readPipes fuel false with
      | [c] => return c
      | commands => return .pipeline false commands
  termination_by structural fuel => fuel

/-- Reads the commands of a pipeline. -/
def readPipes : Nat → Bool → Reader (List Command)
  | 0, _ => return []
  | fuel + 1, acrossLines => do
    let first ← readCommand fuel acrossLines
    let (t, after) ← peek true false
    if t = .pipe then
      goTo after
      return first :: (← readPipes fuel true)
    else return [first]
  termination_by structural fuel => fuel

/-- Reads one command. -/
def readCommand : Nat → Bool → Reader Command
  | 0, _ => return .nothing
  | fuel + 1, acrossLines => do
    let (t, after) ← peekCommand acrossLines
    let line := (← get).line
    match t with
    | .opening =>
      goTo after
      let body ← readList .block fuel false .nothing
      expect fuel .closing false
      return .subshell line body (← readRedirections fuel)
    | .keyword "\x7b" =>
      goTo after
      let body ← readList .block fuel false .nothing
      expect fuel (.keyword "\x7d") false
      return .group line body (← readRedirections fuel)
    | .keyword "if" =>
      goTo after
      let c ← readConditional fuel
      return withRedirections line c (← readRedirections fuel)
    | .keyword "while" =>
      goTo after
      let c ← readLoop fuel false
      return withRedirections line c (← readRedirections fuel)
    | .keyword "until" =>
      goTo after
      let c ← readLoop fuel true
      return withRedirections line c (← readRedirections fuel)
    | .keyword "for" =>
      goTo after
      let c ← readEach fuel line
      return withRedirections line c (← readRedirections fuel)
    | .keyword "case" =>
      goTo after
      let c ← readChoice fuel line
      return withRedirections line c (← readRedirections fuel)
    | .word => readSimple fuel none ⟨[], [], []⟩
    | .redirection => readSimple fuel none ⟨[], [], []⟩
    | t => unexpected t none after
  termination_by structural fuel => fuel

/-- Reads the simple command that continues here. Its line is the one its first word or operator
ends on. -/
def readSimple : Nat → Option Nat → Simple → Reader Command
  | 0, line, acc => return acc.command (line.getD 0)
  | fuel + 1, line, acc => do
    let s ← get
    if acc.words.isEmpty || s.leavesAlias then
      set (s.replaceAlias (s.rest.length + s.aliases.length + 1))
    let (t, after) ← peek false false
    match t with
    | .redirection =>
      let line := line.getD (← get).line
      let r ← readRedirection fuel
      readSimple fuel (some line) { acc with redirections := r :: acc.redirections }
    | .word =>
      let w ← readWord fuel
      let line := some (line.getD (← get).line)
      match acc.words, assignment? w with
      | [], some a => readSimple fuel line { acc with assignments := a :: acc.assignments }
      | _, _ => readSimple fuel line { acc with words := w :: acc.words }
    | .opening =>
      match acc with
      | ⟨[], [w], []⟩ =>
        goTo after
        let (t, after) ← peek false false
        if t = .closing then goTo after else refuse fuel t (some .closing) after
        match plainText w with
        | some name =>
          if isName name && !(specialNames.contains name) then
            return .define name (← readCommand fuel true)
          else fail "Bad function name"
        | none => fail "Bad function name"
      | acc =>
        return acc.command (line.getD 0)
    | _ => return acc.command (line.getD 0)
  termination_by structural fuel => fuel

/-- Reads a conditional behind its first word. -/
def readConditional : Nat → Reader Command
  | 0 => return .nothing
  | fuel + 1 => do
    let condition ← readList .block fuel false .nothing
    expect fuel (.keyword "then") false
    let yes ← readList .block fuel false .nothing
    let (t, after) ← peek true false
    match t with
    | .keyword "elif" =>
      goTo after
      return .conditional condition yes (← readConditional fuel)
    | .keyword "else" =>
      goTo after
      let no ← readList .block fuel false .nothing
      expect fuel (.keyword "fi") false
      return .conditional condition yes no
    | _ =>
      expect fuel (.keyword "fi") false
      return .conditional condition yes .nothing
  termination_by structural fuel => fuel

/-- Reads a loop with a condition. -/
def readLoop : Nat → Bool → Reader Command
  | 0, _ => return .nothing
  | fuel + 1, untilTrue => do
    let condition ← readList .block fuel false .nothing
    expect fuel (.keyword "do") false
    let body ← readList .block fuel false .nothing
    expect fuel (.keyword "done") false
    return .loop untilTrue condition body
  termination_by structural fuel => fuel

/-- Reads the words of a loop. -/
def readWords : Nat → Reader (List Word)
  | 0 => return []
  | fuel + 1 => do
    let (t, _) ← peek false false
    if t = .word then
      let w ← readWord fuel
      return w :: (← readWords fuel)
    else return []
  termination_by structural fuel => fuel

/-- Reads a loop over words. -/
def readEach : Nat → Nat → Reader Command
  | 0, _ => return .nothing
  | fuel + 1, line => do
    let (t, after) ← peek false false
    let w ← if t = .word then readWord fuel
      else do
        goTo after
        pure []
    match plainText w with
    | none => fail "Bad for loop variable"
    | some name =>
      if !isName name then fail "Bad for loop variable"
      else
        let (t, after) ← peek true true
        let words ← match t with
          | .keyword "in" => do
            goTo after
            let words ← readWords fuel
            let (t, after) ← peek false false
            if t = .newline || t = .semicolon then
              goTo after
              pure (some words)
            else
              refuse fuel t none after
              pure none
          | .semicolon => do
            goTo after
            pure none
          | _ => pure none
        expect fuel (.keyword "do") true
        let body ← readList .block fuel false .nothing
        expect fuel (.keyword "done") false
        return .each line name words body
  termination_by structural fuel => fuel

/-- Reads a choice. -/
def readChoice : Nat → Nat → Reader Command
  | 0, _ => return .nothing
  | fuel + 1, line => do
    let (t, after) ← peek false false
    if t != .word then refuse fuel t (some .word) after
    let subject ← readWord fuel
    expect fuel (.keyword "in") true
    return .choose line subject (← readArms fuel)
  termination_by structural fuel => fuel

/-- Reads the arms of a choice, up to its last word. -/
def readArms : Nat → Reader (List (List Word × Command))
  | 0 => return []
  | fuel + 1 => do
    let (t, after) ← peek true true
    match t with
    | .keyword "esac" =>
      goTo after
      return []
    | t =>
      if t = .opening then
        goTo after
        let _ ← peek false false
      let patterns ← readPatterns fuel
      let body ← readList .body fuel false .nothing
      let (t, after) ← peek true true
      match t with
      | .keyword "esac" =>
        goTo after
        return [(patterns, body)]
      | .endOfArm =>
        goTo after
        return (patterns, body) :: (← readArms fuel)
      | t =>
        refuse fuel t (some .endOfArm) after
        return []
  termination_by structural fuel => fuel

/-- Reads the patterns of an arm, up to its bracket. -/
def readPatterns : Nat → Reader (List Word)
  | 0 => return []
  | fuel + 1 => do
    let (t, after) ← peek false false
    let w ← if t = .word then readWord fuel
      else do
        goTo (if t = .redirection then behindOperator after else after)
        pure []
    let (t, after) ← peek false false
    match t with
    | .pipe =>
      goTo after
      return w :: (← readPatterns fuel)
    | .closing =>
      goTo after
      return [w]
    | t =>
      refuse fuel t (some .closing) after
      return []
  termination_by structural fuel => fuel

end

end Parser

/-- A script: the characters of it that are still to be read, and the number of its lines. -/
abbrev Script := Parser.Scan

/-- The script of a text. -/
def Script.ofText (source : String) : Script := Parser.Scan.start [] source.toList

/-- Reads the commands of the next line with all that belongs to it; none at the end. -/
def Script.next (aliases : List (String × String)) (s : Script) :
    Except Parser.Fault (Option (Command × Script)) :=
  if s.rest.isEmpty then .ok none
  else
    let longest := (aliases.map fun a => a.2.length).foldl (· + ·) 1
    let fuel := 8 * longest * (s.rest.length + 8)
    match (Parser.readList .line fuel false .nothing).run { s with aliases := aliases } with
    | .ok (c, after) => .ok (some (c, after))
    | .error f => .error f

end ClassViewer.Shell
