import ClassViewer.Preferences.Store

/-!
# Libraries for databases

Preferences are kept in a file by a library, which opens the database in a file, reads and writes
its values, and closes it. The program works with any library. It makes the directory that a new
database lies in, and removes the file of a database and the lock file beside it.
-/

namespace ClassViewer.Database

/-- A library that keeps databases in files. -/
structure Library where
  /-- What stands for a database that is open. -/
  Handle : Type
  /-- Opens the database in a file, a new one if the file is missing. -/
  openFile : Path → HostM (Except DecompileError Handle)
  /-- The store in an open database. -/
  store : Handle → Store
  /-- Closes a database. -/
  close : Handle → HostM Unit

/-- The lock file beside a database. -/
def lockPath (p : Path) : Path := p.append "-lock"

/-- Opens the database at a path, making the directory it lies in. -/
def Library.openPath (library : Library) (p : Path) :
    HostM (Except DecompileError library.Handle) := do
  let above ← match p.parent? with
    | some above => if above.text = "" then pure (.ok ()) else Host.makeDirectories above
    | none => pure (.ok ())
  match above with
  | .error e => return .error (.io e)
  | .ok () => library.openFile p

end ClassViewer.Database
