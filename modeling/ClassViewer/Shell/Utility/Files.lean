import ClassViewer.Shell.Expansion
import ClassViewer.Shell.Utility.Options

/-!
# Utilities on files

The programs that list, make, copy, move and remove files and directories.
-/

namespace ClassViewer.Shell

open Session

/-! ## Names -/

/-- The last name of a path. -/
def baseName (path : String) : String :=
  match ((Text.split '/' path).filter (· != "")).getLast? with
  | some name => name
  | none => if path = "" then "" else "/"

/-- The last name of a path without an ending, unless that is all of it. -/
def baseNameWithout (ending path : String) : String :=
  let name := baseName path
  if name = ending then name else Text.dropTail ending name

def basename : Utility := withOptions "basename" "az" "s" [("multiple", 'a')] 1 fun g => do
  let ending := (g.value? 's').getD ""
  match g.operands with
  | [] => misuse "basename" "missing operand" 1
  | paths =>
    if g.has 'a' || g.has 's' then
      paths.forM fun p => say (baseNameWithout ending p ++ "\n")
      return 0
    else match paths with
      | [p] =>
        say (baseName p ++ "\n")
        return 0
      | [p, ending] =>
        say (baseNameWithout ending p ++ "\n")
        return 0
      | _ :: _ :: extra :: _ => misuse "basename" ("extra operand " ++ cited extra) 1
      | [] => return 1

/-- The path without its last name. -/
def dirName (path : String) : String :=
  let trimmed := path.toList.reverse.dropWhile (· == '/')
  let above := trimmed.dropWhile (· != '/')
  let kept := above.dropWhile (· == '/')
  if trimmed.isEmpty then (if path = "" then "." else "/")
  else if above.isEmpty then "."
  else if kept.isEmpty then "/"
  else String.ofList kept.reverse

def dirname : Utility := withOptions "dirname" "z" "" [] 1 fun g => do
  if g.operands.isEmpty then misuse "dirname" "missing operand" 1
  else
    g.operands.forM fun path => say (dirName path ++ "\n")
    return 0

/-! ## Listing -/

/-- The names of a directory that are shown, in order. -/
def shownNames (g : Given) (names : List String) : List String :=
  let all := g.has 'a' || g.has 'A'
  let names := (names.filter fun n => all || !Text.startsWith "." n)
  let names := sortNames ((if g.has 'a' then [".", ".."] else []) ++ names)
  if g.has 'r' then names.reverse else names

/-- The mark behind a name that tells what it names. -/
def kindMark (g : Given) (s : Session) (path : String) : String :=
  match s.disk.lookup s.here false (pathOf path) with
  | .ok (_, .directory) => if (g.has 'F' || g.has 'p') && !Text.endsWith "/" path then "/" else ""
  | .ok (_, .link _) => if g.has 'F' then "@" else ""
  | .ok (_, .file _ runners) => if g.has 'F' && runners.any then "*" else ""
  | .ok (_, .pipe _) => if g.has 'F' then "|" else ""
  | _ => ""

/-- The listing of a directory and, if asked, of those below it; `fuel` bounds the depth. -/
def listing (g : Given) (s : Session) (titled : Bool) : Nat → String → List String
  | 0, _ => []
  | fuel + 1, p =>
    match s.disk.list s.here (pathOf p) with
    | .error _ => []
    | .ok names =>
      let names := shownNames g (names.map Text.Octets.ofText)
      let inside (n : String) : String := if Text.endsWith "/" p then p ++ n else p ++ "/" ++ n
      let own := (if titled then p ++ ":\n" else "") ++
        Text.join "" (names.map fun n => n ++ kindMark g s (inside n) ++ "\n")
      let isBelow (n : String) : Bool :=
        n != "." && n != ".." && match s.disk.lookup s.here false (pathOf (inside n)) with
          | .ok (_, .directory) => true
          | _ => false
      own :: (if g.has 'R' then
        (names.filter isBelow).flatMap fun n => listing g s true fuel (inside n)
      else [])

def ls : Utility := withOptions "ls" "1aAdRrFplhtnogsiqbCxkScuUfmGLHN" "Iw"
    [("all", 'a'), ("almost-all", 'A'), ("directory", 'd'), ("recursive", 'R')] 2 fun g => do
  let s ← get
  let paths := if g.operands.isEmpty then ["."] else g.operands
  let isThere (p : String) : Bool := (s.disk.lookup s.here false (pathOf p)).isOk
  let isDirectory (p : String) : Bool := !g.has 'd' && s.disk.isDirectory s.here (pathOf p)
  paths.forM fun p =>
    match s.disk.lookup s.here false (pathOf p) with
    | .error e => complain ("ls: cannot access " ++ quoted p ++ ": " ++ reason e)
    | .ok _ => pure ()
  let order (names : List String) : List String :=
    if g.has 'r' then (sortNames names).reverse else sortNames names
  let found := order (paths.filter isThere)
  let files := found.filter fun p => !isDirectory p
  let directories := found.filter isDirectory
  files.forM fun p => say (p ++ kindMark g s p ++ "\n")
  let titled := 1 < paths.length || g.has 'R'
  let lists := directories.flatMap (listing g s titled (s.disk.items.length + 1))
  if !files.isEmpty && !lists.isEmpty then say "\n"
  say (Text.join "\n" lists)
  return if paths.all isThere then 0 else 2

/-! ## Making and removing -/

/-- The paths on the way to a path, the shortest first. -/
def waysTo (path : String) : List String :=
  let segments := Text.split '/' path
  ((List.range segments.length).map fun i => Text.join "/" (segments.take (i + 1))).filter fun p =>
    p != "" && !Text.endsWith "/" p

/-- Makes the directories on the way to a path that are missing; reports what was made. -/
def makeWay (spoken : Bool) : List String → SessionM Nat
  | [] => return 0
  | p :: rest => do
    let s ← get
    if s.disk.isDirectory s.here (pathOf p) then makeWay spoken rest
    else
      match s.disk.makeDirectory s.here (pathOf p) with
      | .ok d =>
        set { s with disk := d }
        if spoken then say ("mkdir: created directory " ++ quoted p ++ "\n")
        makeWay spoken rest
      | .error e =>
        let e := if !rest.isEmpty && e == .os .alreadyExists then .os .notADirectory else e
        complain ("mkdir: cannot create directory " ++ cited p ++ ": " ++ reason e)
        return 1

def mkdir : Utility := withOptions "mkdir" "pv" "m"
    [("parents", 'p'), ("verbose", 'v'), ("mode", 'm')] 1 fun g => do
  if g.operands.isEmpty then misuse "mkdir" "missing operand" 1
  else
    forAll g.operands fun p => do
      if g.has 'p' then makeWay (g.has 'v') (waysTo p)
      else
        let status ← report ("mkdir: cannot create directory " ++ cited p)
          (← change fun d here => d.makeDirectory here (pathOf p))
        if g.has 'v' && status = 0 then say ("mkdir: created directory " ++ quoted p ++ "\n")
        return status

/-- Makes pipes. -/
def mkfifo : Utility := withOptions "mkfifo" "Z" "m" [("mode", 'm')] 1 fun g => do
  if g.operands.isEmpty then misuse "mkfifo" "missing operand" 1
  else
    forAll g.operands fun p => do
      report ("mkfifo: cannot create fifo " ++ quoted p)
        (← change fun d here => d.makePipe here (pathOf p))

/-- Removes empty directories in order, up to the first that cannot be. -/
def removeEmpty (spoken : Bool) : List String → SessionM Nat
  | [] => return 0
  | p :: rest => do
    if spoken then say ("rmdir: removing directory, " ++ quoted p ++ "\n")
    match ← change fun d here => d.removeDirectory here (pathOf p) with
    | .ok () => removeEmpty spoken rest
    | .error e =>
      complain ("rmdir: failed to remove " ++ quoted p ++ ": " ++ reason e)
      return 1

def rmdir : Utility := withOptions "rmdir" "pv" ""
    [("parents", 'p'), ("verbose", 'v')] 1 fun g => do
  if g.operands.isEmpty then misuse "rmdir" "missing operand" 1
  else forAll g.operands fun p =>
    removeEmpty (g.has 'v') (if g.has 'p' then (waysTo p).reverse else [p])

/-- The order in which what a directory holds comes before it. -/
def holdsBefore : Route → Route → Bool
  | _, [] => true
  | [], _ :: _ => false
  | a :: as, b :: bs => if a = b then holdsBefore as bs else notAfter a.toList b.toList

/-- What removing all below a path says of each thing removed. -/
def removals (d : Disk) (r : Route) (path : String) : List String :=
  let below := (d.items.filter fun e => r.isPrefixOf e.1).mergeSort fun a b => holdsBefore a.1 b.1
  below.map fun e =>
    let name := quoted (Text.join "/" (path :: (e.1.drop r.length).map Text.Octets.ofText))
    (if e.2 == .directory then "removed directory " else "removed ") ++ name ++ "\n"

def rm : Utility := withOptions "rm" "rRfvdiI" ""
    [("recursive", 'r'), ("force", 'f'), ("verbose", 'v'), ("dir", 'd')] 1 fun g => do
  let deep := g.has 'r' || g.has 'R'
  if g.operands.isEmpty then
    if g.has 'f' then return 0 else misuse "rm" "missing operand" 1
  else
    forAll g.operands fun p => do
      let s ← get
      let last := baseName p
      match s.disk.lookup s.here false (pathOf p) with
      | .error e =>
        if g.has 'f' && (e == .os .noEntry || e == .os .notADirectory) then return 0
        else
          complain ("rm: cannot remove " ++ quoted p ++ ": " ++ reason e)
          return 1
      | .ok (r, .directory) =>
        let spoken := Text.join "" (if g.has 'v' then removals s.disk r p else [])
        if deep && (last = "." || last = ".." || last = "/") then
          complain ("rm: refusing to remove '.' or '..' directory: skipping " ++ quoted p)
          return 1
        else
          let status ← report ("rm: cannot remove " ++ quoted p) (← change fun d here =>
            if deep then d.removeAll here (pathOf p)
            else if g.has 'd' then d.removeDirectory here (pathOf p)
            else .error (.os .isADirectory))
          if status = 0 then say spoken
          return status
      | .ok _ =>
        let status ← report ("rm: cannot remove " ++ quoted p)
          (← change fun d here => d.removeFile here (pathOf p))
        if status = 0 && g.has 'v' then say ("removed " ++ quoted p ++ "\n")
        return status

/-! ## Copying and moving -/

/-- Where something of that name goes: into a directory, or to the path itself. -/
def destination (s : Session) (source target : String) : String :=
  if s.disk.isDirectory s.here (pathOf target) then
    (if Text.endsWith "/" target then target else target ++ "/") ++ baseName source
  else target

/-- The disk with everything below one route put below another; a directory that is there stays. -/
def copyTree (d : Disk) (source target : Route) : Disk :=
  (d.items.filter fun e => source.isPrefixOf e.1).foldr
    (fun e acc => acc.put (target ++ e.1.drop source.length) e.2) d

/-- Runs a program with sources and a target: the target is the last operand unless an option gives
it, and has to be a directory if there are several sources. -/
def withTarget (tool : String) (g : Given) (f : String → String → SessionM Nat) : SessionM Nat := do
  let (sources, target) := match g.value? 't' with
    | some t => (g.operands, some t)
    | none => (g.operands.dropLast, g.operands.getLast?)
  match sources, target with
  | _, none => misuse tool "missing file operand" 1
  | [], some only => misuse tool ("missing destination file operand after " ++ quoted only) 1
  | sources, some target =>
    let s ← get
    if 1 < sources.length && !s.disk.isDirectory s.here (pathOf target) then
      let why := match s.disk.lookup s.here true (pathOf target) with
        | .error e => reason e
        | .ok _ => reason (.os .notADirectory)
      complain (tool ++ ": target " ++ quoted target ++ ": " ++ why)
      return 1
    else forAll sources fun source => f source target

/-- Copies one item to a path. -/
def copyItem (g : Given) (source goal : String) : SessionM Nat := do
  let s ← get
  let deep := g.has 'r' || g.has 'R' || g.has 'a'
  let follow := !(g.has 'a' || g.has 'P' || g.has 'd') && !(deep && !g.has 'L' && !g.has 'H')
  match s.disk.lookup s.here follow (pathOf source) with
  | .error e =>
    complain ("cp: cannot stat " ++ quoted source ++ ": " ++ reason e)
    return 1
  | .ok (r, .directory) =>
    if !deep then
      complain ("cp: -r not specified; omitting directory " ++ quoted source)
      return 1
    else match s.disk.locate s.here .target (pathOf goal) with
      | .error e =>
        complain ("cp: cannot create directory " ++ quoted goal ++ ": " ++ reason e)
        return 1
      | .ok (.found t .directory) =>
        set { s with disk := copyTree s.disk r t }
        return 0
      | .ok (.found _ _) =>
        complain ("cp: cannot overwrite non-directory " ++ quoted goal ++ " with directory " ++
          quoted source)
        return 1
      | .ok (.vacant above name) =>
        if r.isPrefixOf above then
          complain ("cp: cannot copy a directory, " ++ quoted source ++ ", into itself, " ++
            quoted goal)
          return 1
        else
          set { s with disk := copyTree s.disk r (above ++ [name]) }
          return 0
  | .ok (r, item) =>
    let same := match s.disk.lookup s.here true (pathOf goal) with
      | .ok (t, _) => (s.disk.routesOf r).contains t
      | .error _ => false
    if same then
      complain ("cp: " ++ quoted source ++ " and " ++ quoted goal ++ " are the same file")
      return 1
    else if g.has 'n' && s.disk.leads s.here (pathOf goal) then return 0
    else
      let failed := "cp: cannot create regular file " ++ quoted goal
      match item, s.disk.locate s.here .target (pathOf goal) with
      | .file bytes runners, .ok (.vacant above name) =>
        if Text.endsWith "/" goal then report failed (.error (.os .notADirectory))
        else
          let runners :=
            if g.has 'p' || g.has 'a' then runners else runners.without (.ofMode s.mask)
          set { s with disk := s.disk.put (above ++ [name]) (.file bytes runners) }
          return 0
      | .file bytes _, .ok (.found _ (.device .full)) =>
        if bytes.size = 0 then return 0
        else report ("cp: error writing " ++ quoted goal) (.error (.os .noSpace))
      | .file bytes _, _ => report failed (← change fun d here => d.write here (pathOf goal) bytes)
      | .device .null, .ok (.vacant _ _) =>
        report failed (← change fun d here => d.write here (pathOf goal) ByteArray.empty)
      | .device .null, .ok (.found _ (.file _ _)) =>
        report failed (← change fun d here => d.write here (pathOf goal) ByteArray.empty)
      | .link target, _ =>
        report ("cp: cannot create symbolic link " ++ quoted goal)
          (← change fun d here => d.makeLink here target (pathOf goal))
      | _, _ => return 1

def cp : Utility := withOptions "cp" "rRafpnvLPHdiuTlsx" "t"
    [("recursive", 'r'), ("archive", 'a'), ("verbose", 'v'), ("force", 'f')] 1
    fun g => withTarget "cp" g fun source target => do
  let s ← get
  let goal := if g.has 'T' then target else destination s source target
  let status ← copyItem g source goal
  if g.has 'v' && status = 0 then say (quoted source ++ " -> " ++ quoted goal ++ "\n")
  return status

/-- Moves one item to a path. -/
def moveItem (source goal : String) : SessionM Nat := do
  let s ← get
  let wrong (text : String) : SessionM Nat := do
    complain ("mv: " ++ text)
    return 1
  match s.disk.lookup s.here false (pathOf source), s.disk.locate s.here .item (pathOf goal) with
  | .error e, _ => wrong ("cannot stat " ++ quoted source ++ ": " ++ reason e)
  | .ok _, .error e =>
    wrong ("cannot move " ++ quoted source ++ " to " ++ quoted goal ++ ": " ++ reason e)
  | .ok (r, item), .ok (.vacant above name) =>
    if r.isPrefixOf above then
      wrong ("cannot move " ++ quoted source ++ " to a subdirectory of itself, " ++ quoted goal)
    else if Text.endsWith "/" goal && item != .directory then
      wrong ("cannot move " ++ quoted source ++ " to " ++ quoted goal ++ ": Not a directory")
    else
      set { s with disk := s.disk.move r (above ++ [name]) }
      return 0
  | .ok (r, .directory), .ok (.found t .directory) =>
    if r = t then wrong (quoted source ++ " and " ++ quoted goal ++ " are the same file")
    else if r.isPrefixOf t then
      wrong ("cannot move " ++ quoted source ++ " to a subdirectory of itself, " ++ quoted goal)
    else if !(s.disk.children t).isEmpty then
      wrong ("cannot overwrite " ++ quoted goal ++ ": Directory not empty")
    else
      set { s with disk := s.disk.move r t }
      return 0
  | .ok (_, .directory), .ok (.found _ _) =>
    wrong ("cannot overwrite non-directory " ++ quoted goal ++ " with directory " ++ quoted source)
  | .ok _, .ok (.found _ .directory) =>
    wrong ("cannot overwrite directory " ++ quoted goal ++ " with non-directory")
  | .ok (r, _), .ok (.found t _) =>
    let leadsThere := match s.disk.lookup s.here true (pathOf source) with
      | .ok (led, _) => (s.disk.routesOf t).contains led
      | .error _ => false
    if leadsThere then wrong (quoted source ++ " and " ++ quoted goal ++ " are the same file")
    else
      set { s with disk := s.disk.move r t }
      return 0

def mv : Utility := withOptions "mv" "fnvuiT" "t" [("force", 'f')] 1
    fun g => withTarget "mv" g fun source target => do
  let s ← get
  let goal := if g.has 'T' then target else destination s source target
  if g.has 'n' && (s.disk.lookup s.here false (pathOf goal)).isOk then return 0
  else
    let status ← moveItem source goal
    if g.has 'v' && status = 0 then
      say ("renamed " ++ quoted source ++ " -> " ++ quoted goal ++ "\n")
    return status

def touch : Utility := withOptions "touch" "acmhf" "dtr" [("no-create", 'c')] 1 fun g => do
  if g.operands.isEmpty then misuse "touch" "missing file operand" 1
  else
    forAll g.operands fun p => do
      let s ← get
      if s.disk.leads s.here (pathOf p) || g.has 'c' then return 0
      else
        let outcome ← change fun d here => d.write here (pathOf p) ByteArray.empty
        match outcome, s.disk.lookup s.here true (pathOf p) with
        | .error (.os .isADirectory), .error e =>
          report ("touch: setting times of " ++ quoted p) (.error e)
        | outcome, _ => report ("touch: cannot touch " ++ quoted p) outcome

/-! ## Links -/

/-- Makes one link to a source. -/
def linkItem (g : Given) (source goal : String) : SessionM Nat := do
  if g.has 'f' then
    let _ ← change fun d here => d.removeFile here (pathOf goal)
  let s ← get
  if g.has 's' then
    match s.disk.makeLink s.here (Text.Octets.toText source) (pathOf goal) with
    | .ok d =>
      set { s with disk := d }
      if g.has 'v' then say (quoted goal ++ " -> " ++ quoted source ++ "\n")
      return 0
    | .error e =>
      let shown := if source != "" && e != .os .nameTooLong then quoted goal
        else quoted goal ++ " -> " ++ quoted source
      complain ("ln: failed to create symbolic link " ++ shown ++ ": " ++ reason e)
      return 1
  else
    match s.disk.lookup s.here false (pathOf source) with
    | .error e =>
      complain ("ln: failed to access " ++ quoted source ++ ": " ++ reason e)
      return 1
    | .ok (_, .directory) =>
      complain ("ln: " ++ shownName source ++ ": hard link not allowed for directory")
      return 1
    | .ok (r, _) =>
      match s.disk.locate s.here .entry (pathOf goal) with
      | .ok (.vacant above name) =>
        set { s with disk := s.disk.share r (above ++ [name]) }
        if g.has 'v' then say (quoted goal ++ " => " ++ quoted source ++ "\n")
        return 0
      | .ok (.found _ _) =>
        report ("ln: failed to create hard link " ++ quoted goal) (.error (.os .alreadyExists))
      | .error e =>
        report ("ln: failed to create hard link " ++ quoted goal ++ " => " ++ quoted source)
          (.error e)

def ln : Utility := withOptions "ln" "sfnvTirLP" "t" [("symbolic", 's'), ("force", 'f')] 1
    fun g => do
  let s ← get
  let isPlace (p : String) : Bool :=
    !g.has 'T' && s.disk.isDirectory s.here (pathOf p) && !(g.has 'n' &&
      match s.disk.lookup s.here false (pathOf p) with
      | .ok (_, .link _) => true
      | _ => false)
  let within (p source : String) : String :=
    if isPlace p then (if Text.endsWith "/" p then p else p ++ "/") ++ baseName source else p
  match g.operands with
  | [] => misuse "ln" "missing file operand" 1
  | [source] => linkItem g source ("./" ++ baseName source)
  | [source, target] => linkItem g source (within target source)
  | operands =>
    let target := operands.getLast?.getD ""
    if isPlace target then
      forAll operands.dropLast fun source => linkItem g source (within target source)
    else
      let why := match s.disk.lookup s.here true (pathOf target) with
        | .error e => reason e
        | .ok _ => reason (.os .notADirectory)
      complain ("ln: target " ++ quoted target ++ ": " ++ why)
      return 1

/-- Where a path leads, of which only the last name may be missing. -/
def settledPath (s : Session) (p : String) : Except IoError String :=
  match s.disk.locate s.here .target (pathOf p) with
  | .ok (.found r _) => .ok (Text.Octets.ofText r.toPath.text)
  | .ok (.vacant above name) => .ok (Text.Octets.ofText (Route.toPath (above ++ [name])).text)
  | .error e => .error e

def readlink : Utility := withOptions "readlink" "fenmqsvz" "" [("canonicalize", 'f')] 1 fun g => do
  let lineEnd := if g.has 'n' then "" else "\n"
  if g.operands.isEmpty then misuse "readlink" "missing operand" 1
  else
    forAll g.operands fun p => do
      let s ← get
      if g.has 'f' || g.has 'm' || g.has 'e' then
        if g.has 'e' && !s.disk.leads s.here (pathOf p) then return 1
        else match settledPath s p with
          | .ok path =>
            say (path ++ lineEnd)
            return 0
          | .error _ => return 1
      else match s.disk.lookup s.here false (pathOf p) with
        | .ok (_, .link target) =>
          say (Text.Octets.ofText target ++ lineEnd)
          return 0
        | _ => return 1

def realpath : Utility := withOptions "realpath" "emqsz" "" [] 1 fun g => do
  if g.operands.isEmpty then misuse "realpath" "missing operand" 1
  else
    forAll g.operands fun p => do
      let s ← get
      match settledPath s p with
      | .ok path =>
        if g.has 'e' && !s.disk.leads s.here (pathOf p) then
          complain ("realpath: " ++ shownName p ++ ": No such file or directory")
          return 1
        else
          say (path ++ "\n")
          return 0
      | .error e =>
        complain ("realpath: " ++ shownName p ++ ": " ++ reason e)
        return 1

end ClassViewer.Shell
