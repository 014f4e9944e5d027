import ClassViewer.Shell.Builtins

/-!
# Redirections

How the streams of a command are led to files, to special files and to each other.
-/

namespace ClassViewer.Shell

open Session

/-- The stream a redirection leads elsewhere. -/
def ledStream : Redirection → Nat
  | .input fd _ => fd
  | .output fd _ _ => fd
  | .both fd _ => fd
  | .duplicate fd _ => fd
  | .document fd _ => fd

/-- Leads a stream to a file; `source` says whether it is read, and `kept` whether what is in it
stays. -/
def leadToFile (fd : Nat) (target : String) (source kept atEnd : Bool) : SessionM Bool := do
  let s ← get
  let p := pathOf target
  let refuse (e : IoError) : SessionM Bool := do
    let missing := if source then "No such file" else "Directory nonexistent"
    let why := if e == .os .noEntry then missing else reason e
    complainHere ((if source then "cannot open " else "cannot create ") ++ target ++ ": " ++ why)
    return false
  let leadToStream (n : Nat) : SessionM Bool := do
    match s.streams.lookup n with
    | some i =>
      leadLike fd (some i)
      return true
    | none => refuse (.os .noEntry)
  match (Text.dropHead? "/dev/fd/" target).bind numberOf?, s.disk.lookup s.here true p with
  | some n, _ => leadToStream n
  | none, .ok (_, .device (.stream n)) => leadToStream n
  | none, .ok (_, .device d) =>
    match Disk.checkDevice d with
    | .ok () =>
      lead fd (.device d)
      return true
    | .error e => refuse e
  | none, .ok (r, .pipe held) =>
    if source then
      set { s with disk := s.disk.alter r (.pipe ByteArray.empty) }
      lead fd (.supply held)
    else lead fd (.file r 0 true)
    return true
  | none, found =>
    let opened ← if kept && s.disk.isFile s.here p then pure (.ok ())
      else if source then pure (found.map fun _ => ())
      else change fun d here => d.write here p ByteArray.empty
    match opened, (← get).disk.canonical s.here p with
    | .ok (), .ok r =>
      lead fd (.file r 0 atEnd)
      return true
    | .error e, _ => refuse e
    | _, _ => return false

/-- Whether a file may not be replaced. -/
def keepsFile (target : String) : SessionM Bool := do
  let s ← get
  return s.hasOption 'C' && s.disk.isFile s.here (pathOf target)

/-- Leads a stream to where another leads, which a text names, or closes it. -/
def duplicate (fd : Nat) (text : String) : SessionM Bool := do
  let s ← get
  match text.toList with
  | ['-'] =>
    leadLike fd none
    return true
  | [d] =>
    if d.isDigit then
      match s.streams.lookup (d.toNat - 48) with
      | some i =>
        leadLike fd (some i)
        return true
      | none =>
        complainHere (text ++ ": Bad file descriptor")
        return false
    else bad
  | _ => bad
where
  /-- Refuses the text. -/
  bad : SessionM Bool := do
    modify fun s => { s with line := s.reached }
    refuse "Syntax error: Bad fd number"
    return false

end ClassViewer.Shell
