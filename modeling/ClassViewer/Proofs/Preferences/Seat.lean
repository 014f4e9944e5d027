import ClassViewer.CommandLine.Places
import ClassViewer.Proofs.Disk.Vacant
import ClassViewer.Proofs.Host

/-!
# Where a database lies

A database lies at a place, which is a name on a disk with nothing but the way to it, and its lock
file beside it (`Place.Shows`). A `Seat` is a path that leads there from a directory, however it is
written. What the file says is left open : a disk stores a table at the place if the file contains
it, for whatever notion of containing, and where no file is, the table without entries
(`Place.Stores`). The directory of a place that is free may have to be made (`Seat.Roomy`). Removing
the database and its lock file never fails (`Seat.run_clearDatabase`).
-/

namespace ClassViewer

open Disk

namespace Disk.Place

/-- The route of the lock file. -/
def lockRoute (l : Place) : Route := l.directory ++ [l.name ++ "-lock"]

/-- The routes that a database needs as they are : those on the way to it, and its own. -/
def Watched (l : Place) (s : Route) : Prop :=
  (l.disk.item? s).isSome = true ∨ s = l.route ∨ s = l.lockRoute

/-- The way to the place is on the disk, and this is what lies at the two routes. -/
structure Shows (l : Place) (file lock : Option ByteArray) (x : Disk) : Prop where
  ground : l.disk.Extends x
  unshared : Unshared l.Watched x
  file : Lies x l.route file
  lock : Lies x l.lockRoute lock

variable {Contains : ByteArray → Table → Prop}

/-- There is a database with that table, and its lock file. -/
def Keeps (l : Place) (Contains : ByteArray → Table → Prop) (t : Table) (x : Disk) : Prop :=
  ∃ file lock, Contains file t ∧ l.Shows (some file) (some lock) x

/-- If there is a database, it has that table; where there is none, the table has no entries. -/
def Stores (l : Place) (Contains : ByteArray → Table → Prop) (t : Table) (x : Disk) : Prop :=
  ∃ file lock, l.Shows file lock x ∧
    match file with
    | some bytes => Contains bytes t
    | none => t = []

variable {l : Place} {x y : Disk} {file lock : Option ByteArray} {t : Table}

theorem lockRoute_ne_route (l : Place) : l.lockRoute ≠ l.route := by
  intro h
  have hname : l.name ++ "-lock" = l.name :=
    List.cons.inj (List.append_cancel_left h) |>.1
  have hlength := congrArg String.length hname
  rw [String.length_append] at hlength
  have hlock : "-lock".length = 5 := by decide
  omega

theorem Keeps.stores (h : l.Keeps Contains t x) : l.Stores Contains t x := by
  obtain ⟨file, lock, hcontains, hx⟩ := h
  exact ⟨some file, some lock, hx, hcontains⟩

theorem Shows.stores (h : l.Shows none lock x) : l.Stores Contains [] x := ⟨none, lock, h, rfl⟩

namespace Shows

theorem routesOf_route (h : l.Shows file lock x) : x.routesOf l.route = [l.route] :=
  h.unshared.routesOf (.inr (.inl rfl))

theorem routesOf_lockRoute (h : l.Shows file lock x) : x.routesOf l.lockRoute = [l.lockRoute] :=
  h.unshared.routesOf (.inr (.inr rfl))

theorem still (h : l.Shows file lock x) : x.Still l.Watched x := ⟨.refl x, h.unshared⟩

theorem of_changed_file (h : l.Shows file lock x) (hfree : l.disk.item? l.route = none)
    (hc : ChangedAt l.route x y) {file' : Option ByteArray} (hfile : Lies y l.route file') :
    l.Shows file' lock y where
  ground := hc.extends_ground h.ground hfree
  unshared := hc.shared.unshared h.unshared
  file := hfile
  lock := hc.lies l.lockRoute_ne_route h.lock

theorem of_changed_lock (h : l.Shows file lock x) (hfree : l.disk.item? l.lockRoute = none)
    (hc : ChangedAt l.lockRoute x y) {lock' : Option ByteArray} (hlock : Lies y l.lockRoute lock') :
    l.Shows file lock' y where
  ground := hc.extends_ground h.ground hfree
  unshared := hc.shared.unshared h.unshared
  file := hc.lies l.lockRoute_ne_route.symm h.file
  lock := hlock

theorem of_still {file lock : ByteArray} (h : l.Shows (some file) (some lock) x)
    (hy : x.Still l.Watched y) : l.Shows (some file) (some lock) y where
  ground s i hi := by
    have hwatched : l.Watched s := .inl (Option.isSome_iff_exists.2 ⟨i, hi⟩)
    rw [hy.agree s hwatched, h.ground s i hi]
  unshared := hy.unshared
  file := by
    obtain ⟨runners, hi⟩ := h.file
    exact ⟨runners, (hy.agree _ (.inr (.inl rfl))).trans hi⟩
  lock := by
    obtain ⟨runners, hi⟩ := h.lock
    exact ⟨runners, (hy.agree _ (.inr (.inr rfl))).trans hi⟩

/-- Where there is a database, there is something at every place that is watched. -/
theorem isSome {file lock : ByteArray} (h : l.Shows (some file) (some lock) x) {s : Route}
    (hs : l.Watched s) : (x.item? s).isSome = true := by
  rcases hs with hground | rfl | rfl
  · obtain ⟨i, hi⟩ := Option.isSome_iff_exists.1 hground
    rw [h.ground s i hi]
    rfl
  · obtain ⟨runners, hi⟩ := h.file
    rw [hi]
    rfl
  · obtain ⟨runners, hi⟩ := h.lock
    rw [hi]
    rfl

end Shows

end Disk.Place

/-- A path that leads to the place of a database from the directory `here`. -/
structure Seat (l : Place) (here : Route) (p : Path) where
  above : Path
  parent : p.parent? = some above
  fileName : p.fileName? = some l.name
  /-- A bare name lies in the directory itself. -/
  lookup : above.text ≠ "" → l.disk.lookup here true above = .ok (l.directory, .directory)
  file : Vacant l.disk here p l.directory l.name
  lock : Vacant l.disk here (Database.lockPath p) l.directory (l.name ++ "-lock")

namespace Seat

section

variable {l : Place} {here : Route} {p : Path} (S : Seat l here p)

/-- Makes the directory the path lies in, unless it is a bare name. -/
def made (x : Disk) : Except IoError Unit × Disk :=
  if S.above.text = "" then (.ok (), x) else x.makeDirectories here S.above

/-- There is no database, and its directory is there or can be made. -/
def Roomy (x : Disk) : Prop := ∃ y, S.made x = (.ok (), y) ∧ l.Shows none none y

variable {x : Disk} {file lock : Option ByteArray}

include S

theorem lookup_above (h : l.Shows file lock x) (hne : S.above.text ≠ "") :
    x.lookup here true S.above = .ok (l.directory, .directory) :=
  lookup_directory_of_extends h.ground S.file.leadsTo.2.isSome_directory (S.lookup hne)

/-- Nothing needs to be made once the directory is there. -/
theorem made_of_shows (h : l.Shows file lock x) : S.made x = (.ok (), x) := by
  unfold made
  split
  · rfl
  · rename_i hne
    refine makeDirectories_of_isDirectory ?_
    rw [isDirectory, S.lookup_above h hne]

end

variable {l : Place} {here : Route} {p : Path} {S : Seat l here p} {x : Disk}

/-- A place for which there is room is free, whether the directory is there or not. -/
theorem Roomy.leads (h : S.Roomy x) :
    x.leads here p = false ∧ x.leads here (Database.lockPath p) = false := by
  obtain ⟨y, hmade, hy⟩ := h
  have hkeeps : x.Keeps y := by
    unfold made at hmade
    split at hmade
    · obtain ⟨-, rfl⟩ := Prod.mk.inj hmade
      exact .refl x
    · have hx := extends_makeDirectories x here S.above
      rw [hmade] at hx
      exact hx.keeps
  have hfree {q : Path} {name : String}
      (hq : y.locate here .target q = .ok (.vacant l.directory name)) :
      x.leads here q = false := by
    unfold Disk.leads
    split
    · rename_i spot hl
      obtain ⟨j, hj⟩ :=
        follow_of_keeps hkeeps (locate_eq_ok_iff.mp (lookup_eq_ok_iff.mp hl)).2
      rw [(locate_eq_ok_iff.mp hq).2] at hj
      cases hj
    · rfl
  exact ⟨hfree (S.file.locate_none hy.ground hy.file .target),
    hfree (S.lock.locate_none hy.ground hy.lock .target)⟩

end Seat

/-! ## Removing -/

theorem Host.run_removeFile_of_ok {h : Host} {q : Path} {y : Disk}
    (hr : h.disk.removeFile h.here q = .ok y) :
    (Host.removeFile q).run h = (.ok (), { h with disk := y }) := by
  unfold Host.removeFile change
  rw [run_get_bind]
  simp only [hr]
  rfl

namespace CommandLine

/-- Where there is no database, there is nothing to remove, and that is no failure. -/
theorem run_clearDatabase_of_none {h : Host} {p : Path}
    (hfile : h.leads p = false) (hlock : h.leads (Database.lockPath p) = false) :
    (clearDatabase p).run h = (.ok (), h) := by
  have hnone {q : Path} {what : String} (hq : h.leads q = false) :
      (removeIfThere q what).run h = (.ok (), h) := by
    unfold removeIfThere
    rw [Host.run_get_bind, hq]
    rfl
  unfold clearDatabase
  rw [Host.run_bind, hnone hfile]
  exact hnone hlock

end CommandLine

namespace Seat

open Database

variable {l : Place} {p : Path} {h : Host} (S : Seat l h.here p) {file lock : Option ByteArray}

include S

theorem run_removeIfThere_file (hx : l.Shows file lock h.disk) (what : String) :
    ∃ y, (CommandLine.removeIfThere p what).run h = (.ok (), { h with disk := y }) ∧
      l.Shows none lock y := by
  have hleads : h.leads p = file.isSome := (S.file.leads_and_isFile hx.ground hx.file).1
  unfold CommandLine.removeIfThere
  rw [Host.run_get_bind, hleads]
  cases file with
  | none => exact ⟨h.disk, rfl, hx⟩
  | some bytes =>
    obtain ⟨y, hr, hlies, hchanged⟩ := S.file.exists_removeFile hx.ground hx.file
    refine ⟨y, ?_, hx.of_changed_file S.file.item?_route hchanged hlies⟩
    rw [Option.isSome_some, if_pos rfl, Host.run_bind, Host.run_removeFile_of_ok hr]
    rfl

theorem run_removeIfThere_lock (hx : l.Shows file lock h.disk) (what : String) :
    ∃ y, (CommandLine.removeIfThere (lockPath p) what).run h = (.ok (), { h with disk := y }) ∧
      l.Shows file none y := by
  have hleads : h.leads (lockPath p) = lock.isSome :=
    (S.lock.leads_and_isFile hx.ground hx.lock).1
  unfold CommandLine.removeIfThere
  rw [Host.run_get_bind, hleads]
  cases lock with
  | none => exact ⟨h.disk, rfl, hx⟩
  | some bytes =>
    obtain ⟨y, hr, hlies, hchanged⟩ := S.lock.exists_removeFile hx.ground hx.lock
    refine ⟨y, ?_, hx.of_changed_lock S.lock.item?_route hchanged hlies⟩
    rw [Option.isSome_some, if_pos rfl, Host.run_bind, Host.run_removeFile_of_ok hr]
    rfl

/-- A database is removed with its lock file, as far as they are there. -/
theorem run_clearDatabase (hx : l.Shows file lock h.disk) :
    ∃ y, (CommandLine.clearDatabase p).run h = (.ok (), { h with disk := y }) ∧
      l.Shows none none y := by
  obtain ⟨y, hfile, hy⟩ := S.run_removeIfThere_file hx "db"
  obtain ⟨y', hlock, hy'⟩ :=
    run_removeIfThere_lock (h := { h with disk := y }) S hy "db lock"
  refine ⟨y', ?_, hy'⟩
  unfold CommandLine.clearDatabase
  rw [Host.run_bind, hfile]
  exact hlock

end Seat

end ClassViewer
