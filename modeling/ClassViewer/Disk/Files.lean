import ClassViewer.Disk.Basic

/-!
# Files and directories

What can be asked of a disk and done to it, each from a directory `here` that relative paths start
in. An operation that fails leaves the disk as it was, unless it says so.
-/

namespace ClassViewer.Disk

/-! ## Questions -/

/-- Whether a path leads to a file, through links. -/
def isFile (d : Disk) (here : Route) (p : Path) : Bool :=
  match d.lookup here true p with
  | .ok (_, .file _ _) => true
  | _ => false

/-- Whether a path leads to a directory, through links. -/
def isDirectory (d : Disk) (here : Route) (p : Path) : Bool :=
  match d.lookup here true p with
  | .ok (_, .directory) => true
  | _ => false

/-- Whether a path leads to anything, through links. -/
def leads (d : Disk) (here : Route) (p : Path) : Bool :=
  match d.lookup here true p with
  | .ok _ => true
  | .error _ => false

/-- Whether a special file can be opened. -/
def checkDevice : Device → Except IoError Unit
  | .terminal => .error (.os .noSuchDevice)
  | _ => .ok ()

/-- The bytes of a file. Of special files, only what a pipe holds is read. -/
def read (d : Disk) (here : Route) (p : Path) : Except IoError ByteArray :=
  match d.lookup here true p with
  | .ok (_, .file bytes _) => .ok bytes
  | .ok (_, .pipe held) => .ok held
  | .ok (_, .device device) => (checkDevice device).map fun _ => ByteArray.empty
  | .ok _ => .error (.os .isADirectory)
  | .error e => .error e

/-- The text of a file. -/
def readText (d : Disk) (here : Route) (p : Path) : Except IoError String :=
  match d.read here p with
  | .ok bytes =>
    match String.fromUTF8? bytes with
    | some s => .ok s
    | none => .error .notUtf8
  | .error e => .error e

/-- The bytes of a file as they are mapped into memory, which a directory cannot be, nor a special
file except the one that gives zeros. -/
def readMapped (d : Disk) (here : Route) (p : Path) : Except IoError ByteArray :=
  match d.lookup here true p with
  | .ok (_, .file bytes _) => .ok bytes
  | .ok (_, .device .zero) => .ok ByteArray.empty
  | .ok (_, .device .terminal) => .error (.os .noSuchDevice)
  | .ok _ => .error (.os .noDevice)
  | .error e => .error e

/-- The route a path leads to, through links. The path may have any length, but not the route, and a
stream has none. -/
def canonical (d : Disk) (here : Route) (p : Path) : Except IoError Route :=
  if !p.isAbsolute && (d.item? here).isNone then .error (.os .noEntry)
  else match d.follow here .target p with
    | .error e => .error e
    | .ok (.vacant _ _) => .error (.os .noEntry)
    | .ok (.found _ (.device (.stream _))) => .error (.os .noEntry)
    | .ok (.found r _) =>
      if pathLimit ≤ r.toPath.text.utf8ByteSize then .error (.os .nameTooLong) else .ok r

/-- The names in the directory a path leads to. -/
def list (d : Disk) (here : Route) (p : Path) : Except IoError (List String) :=
  match d.lookup here true p with
  | .ok (r, .directory) => .ok (d.children r)
  | .ok _ => .error (.os .notADirectory)
  | .error e => .error e

/-! ## Changes -/

/-- Writes to a special file. -/
def writeDevice (device : Device) (bytes : ByteArray) : Except IoError Unit :=
  if device = .full ∧ bytes.size ≠ 0 then .error (.os .noSpace) else checkDevice device

/-- Writes a file, making it or replacing its content; a link at the end is written through. -/
def write (d : Disk) (here : Route) (p : Path) (bytes : ByteArray) : Except IoError Disk :=
  match d.locate here .writing p with
  | .error e => .error e
  | .ok (.found r (.file _ runners)) => .ok (d.alter r (.file bytes runners))
  | .ok (.found _ (.device device)) => (writeDevice device bytes).map fun _ => d
  | .ok (.found r (.pipe held)) => .ok (d.alter r (.pipe (held ++ bytes)))
  | .ok (.found _ _) => .error (.os .isADirectory)
  | .ok (.vacant r name) => .ok (d.put (r ++ [name]) (.file bytes .nobody))

/-- Makes a directory in one that exists. -/
def makeDirectory (d : Disk) (here : Route) (p : Path) : Except IoError Disk :=
  match d.locate here .entry p with
  | .error e => .error e
  | .ok (.found _ _) => .error (.os .alreadyExists)
  | .ok (.vacant r name) => .ok (d.put (r ++ [name]) .directory)

/-- Makes a directory and those above it; `fuel` bounds how far up. The directories made before a
failure stay. -/
def makeDirectoriesUpTo (d : Disk) (here : Route) : Nat → Path → Except IoError Unit × Disk
  | 0, _ => (.ok (), d)
  | fuel + 1, p =>
    if p.text = "" then (.ok (), d)
    else match d.makeDirectory here p with
      | .ok d => (.ok (), d)
      | .error e =>
        if e.isNotFound then
          match p.parent? with
          | none => (.error (.other "failed to create whole tree"), d)
          | some above =>
            match makeDirectoriesUpTo d here fuel above with
            | (.error e, d) => (.error e, d)
            | (.ok (), d) =>
              match d.makeDirectory here p with
              | .ok d => (.ok (), d)
              | .error e => (if d.isDirectory here p then .ok () else .error e, d)
        else (if d.isDirectory here p then .ok () else .error e, d)

/-- Makes a directory and those above it that are missing; those made before a failure stay. -/
def makeDirectories (d : Disk) (here : Route) (p : Path) : Except IoError Unit × Disk :=
  makeDirectoriesUpTo d here (p.components.length + 1) p

/-- Makes a pipe. -/
def makePipe (d : Disk) (here : Route) (p : Path) : Except IoError Disk :=
  match d.locate here .entry p with
  | .error e => .error e
  | .ok (.found _ _) => .error (.os .alreadyExists)
  | .ok (.vacant r name) =>
    if asksDirectory p then .error (.os .noEntry)
    else .ok (d.put (r ++ [name]) (.pipe ByteArray.empty))

/-- Makes a link. -/
def makeLink (d : Disk) (here : Route) (target : String) (p : Path) : Except IoError Disk :=
  if target = "" then .error (.os .noEntry)
  else if pathLimit ≤ target.utf8ByteSize then .error (.os .nameTooLong)
  else match d.locate here .entry p with
    | .error e => .error e
    | .ok (.found _ _) => .error (.os .alreadyExists)
    | .ok (.vacant r name) =>
      if asksDirectory p then .error (.os .noEntry) else .ok (d.put (r ++ [name]) (.link target))

/-- Removes a file or a link. -/
def removeFile (d : Disk) (here : Route) (p : Path) : Except IoError Disk :=
  match d.locate here .entry p with
  | .error e => .error e
  | .ok (.vacant _ _) => .error (.os .noEntry)
  | .ok (.found _ .directory) => .error (.os .isADirectory)
  | .ok (.found r _) => if asksDirectory p then .error (.os .notADirectory) else .ok (d.erase r)

/-- Removes an empty directory. -/
def removeDirectory (d : Disk) (here : Route) (p : Path) : Except IoError Disk :=
  match d.locate here .entry p with
  | .error e => .error e
  | .ok (.vacant _ _) => .error (.os .noEntry)
  | .ok (.found r .directory) =>
    if (d.children r).isEmpty then .ok (d.erase r) else .error (.os .notEmpty)
  | .ok (.found _ _) => .error (.os .notADirectory)

/-- Removes a file, a link, or a directory with everything in it. -/
def removeAll (d : Disk) (here : Route) (p : Path) : Except IoError Disk :=
  match d.lookup here false p with
  | .error e => .error e
  | .ok (r, _) => .ok (d.eraseBelow r)

/-- Removes a directory with everything in it, or a link. -/
def removeTree (d : Disk) (here : Route) (p : Path) : Except IoError Disk :=
  match d.lookup here false p with
  | .error e => .error e
  | .ok (r, .directory) => .ok (d.eraseBelow r)
  | .ok (r, .link _) => .ok (d.erase r)
  | .ok _ => .error (.os .notADirectory)

/-- Changes who may execute a file. -/
def changeRunners (d : Disk) (here : Route) (p : Path) (f : Runners → Runners) :
    Except IoError Disk :=
  match d.lookup here true p with
  | .error e => .error e
  | .ok (r, .file bytes runners) => .ok (d.alter r (.file bytes (f runners)))
  | .ok _ => .ok d

/-! ## Trees -/

/-- The paths below a path that lead to no directory; directories are entered, also through links.
`fuel` bounds the depth. -/
def leavesUpTo (d : Disk) (here : Route) : Nat → Path → List Path
  | 0, _ => []
  | fuel + 1, p =>
    match d.list here p with
    | .error _ => []
    | .ok names => names.flatMap fun name =>
        let q := p.join ⟨name⟩
        if d.isDirectory here q then leavesUpTo d here fuel q else [q]

/-- The paths below a directory, seen from it, that lead to no directory. -/
def leavesBelow (d : Disk) (r : Route) : List Path :=
  let paths := leavesUpTo d r ((d.items.length + 1) * (linkLimit + 2)) ⟨"."⟩
  paths.map fun p => ⟨(Text.dropHead? "./" p.text).getD p.text⟩

end ClassViewer.Disk
