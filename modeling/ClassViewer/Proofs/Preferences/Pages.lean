import ClassViewer.Proofs.Preferences.Codec
import ClassViewer.Proofs.Preferences.Library
import ClassViewer.Proofs.Preferences.Space

/-!
# Databases of pages are durable

The library the program is run with keeps what is relied on of a library (`durable_pages`). A file
of it contains a table if it is read as a database with that table, in which there is room for the
next value (`Stored.Sound`). A database is opened by its route, however its path was written
(`run_openFile`), and whatever is written to it is in the file (`run_put`). Values as short as those
of the preferences are always taken, so only the opening can fail, where a path does not lead to
the place (`taken_of_live`).
-/

namespace ClassViewer

open CommandLine Disk

/-! ## Sound databases -/

theorem fewKeys_preferenceKeys : Database.FewKeys preferenceKeys :=
  ⟨by decide, by decide⟩

/-- A database of preferences : it can be read back, and there is room for the next value. -/
structure Stored.Sound (c : Stored) : Prop where
  writable : Database.Writable c
  tidy : c.space.Tidy preferenceKeys

theorem Stored.sound_blank : Database.blank.Sound where
  writable := ⟨List.forall_mem_nil _, List.forall_mem_nil _, rfl⟩
  tidy := .blank

/-- There is always room for a short value under a key of the preferences. -/
theorem Stored.Sound.exists_write {c : Stored} (h : c.Sound) {key value : String}
    (hkey : key ∈ preferenceKeys) (hvalue : value.utf8ByteSize ≤ 32) :
    ∃ c', Database.write? c key value = some c' ∧ c'.Sound ∧ c'.table = c.table.put key value := by
  obtain ⟨space, hput, htidy⟩ := h.tidy.exists_put fewKeys_preferenceKeys hkey hvalue
  have hlimit : 32 < Database.numberLimit := by decide
  have hshort := fewKeys_preferenceKeys.short key hkey
  refine ⟨⟨c.table.put key value, (key, value.utf8ByteSize) :: c.writes, space⟩, ?_,
    ⟨⟨?_, ?_, ?_⟩, htidy⟩, rfl⟩
  · rw [Database.write?, hput]
    rfl
  · exact List.forall_mem_cons.2 ⟨⟨Nat.lt_of_le_of_lt hshort hlimit,
      Nat.lt_of_le_of_lt hvalue hlimit⟩, h.writable.writes⟩
  · refine List.forall_mem_cons.2 ⟨⟨Nat.lt_of_le_of_lt hshort hlimit,
      Nat.lt_of_le_of_lt hvalue hlimit⟩, fun e he => ?_⟩
    exact h.writable.table e (List.mem_filter.1 he).1
  · rw [Database.Space.ofWrites, h.writable.space]
    exact hput

/-! ## Places by their routes -/

/-- The route of a place, written as a path, leads to it from everywhere, and so does that of its
lock file. -/
structure Disk.Place.Addressed (l : Place) : Prop where
  file : ∀ here, Vacant l.disk here l.route.toPath l.directory l.name
  lock : ∀ here, Vacant l.disk here (Database.lockPath l.route.toPath) l.directory
    (l.name ++ "-lock")

theorem Host.run_modify_bind {α : Type} (f : Host → Host) (g : Unit → HostM α) (h : Host) :
    ((modify f : HostM Unit) >>= g).run h = (g ()).run (f h) := rfl

namespace Database

theorem run_touch_of_some {h : Host} {q : Path} {bytes : ByteArray} (hread : h.read q = .ok bytes) :
    (touch q).run h = (.ok bytes, h) := by
  unfold touch
  rw [Host.run_get_bind]
  simp only [hread]
  rfl

theorem run_touch_of_none {h h' : Host} {q : Path} (hread : h.read q = .error (.os .noEntry))
    (hw : (Host.write q ByteArray.empty).run h = (.ok (), h')) :
    (touch q).run h = (.ok ByteArray.empty, h') := by
  unfold touch
  rw [Host.run_get_bind]
  simp only [hread, IoError.isNotFound, if_true]
  rw [Host.run_bind, hw]
  rfl

/-- The file is read as a database of preferences with that table. -/
def Contains (bytes : ByteArray) (t : Table) : Prop :=
  ∃ c, decode bytes = .ok c ∧ c.Sound ∧ c.table = t

theorem contains_encode {c : Stored} (hc : c.Sound) : Contains (encode c) c.table :=
  ⟨c, decode_encode hc.writable, hc, rfl⟩

/-- The process holds the database at a place open, and its file says the same. -/
def Live (l : Place) (r : Route) (t : Table) (h : Host) : Prop :=
  r = l.route ∧ ∃ c lock, h.databases = [(l.route, c)] ∧
    l.Shows (some (encode c)) (some lock) h.disk ∧ c.Sound ∧ c.table = t

/-! ## Files at a place -/

section Files

variable {l : Place} (A : l.Addressed) {h : Host} {file lock : Option ByteArray}

include A

/-- A file is written over what lies at the place of the database. -/
theorem run_write_file (hx : l.Shows file lock h.disk) (bytes : ByteArray) :
    ∃ y, (Host.write l.route.toPath bytes).run h = (.ok (), { h with disk := y }) ∧
      l.Shows (some bytes) lock y := by
  obtain ⟨y, hw, hlies, hchanged⟩ :=
    (A.file h.here).exists_write hx.ground hx.file hx.routesOf_route bytes
  exact ⟨y, Host.run_write_of_ok ((A.file h.here).lookup_ne_device hx.ground hx.file) hw,
    hx.of_changed_file (A.file h.here).item?_route hchanged hlies⟩

/-- The lock file is made if it is missing. -/
theorem run_touch_lock (hx : l.Shows file lock h.disk) :
    ∃ y bytes, (touch (lockPath l.route.toPath)).run h = (.ok bytes, { h with disk := y }) ∧
      l.Shows file (some bytes) y := by
  have hread : h.read (lockPath l.route.toPath) = _ := (A.lock h.here).read hx.ground hx.lock
  cases lock with
  | some bytes => exact ⟨h.disk, bytes, run_touch_of_some hread, hx⟩
  | none =>
    obtain ⟨y, hw, hlies, hchanged⟩ :=
      (A.lock h.here).exists_write hx.ground hx.lock hx.routesOf_lockRoute ByteArray.empty
    have hwrite := Host.run_write_of_ok ((A.lock h.here).lookup_ne_device hx.ground hx.lock) hw
    exact ⟨y, _, run_touch_of_none hread hwrite,
      hx.of_changed_lock (A.lock h.here).item?_route hchanged hlies⟩

/-- The file of the database is made if it is missing. -/
theorem run_touch_file (hx : l.Shows file lock h.disk) :
    ∃ y, (touch l.route.toPath).run h =
        (.ok (file.getD ByteArray.empty), { h with disk := y }) ∧
      l.Shows (some (file.getD ByteArray.empty)) lock y := by
  have hread : h.read l.route.toPath = _ := (A.file h.here).read hx.ground hx.file
  cases file with
  | some bytes => exact ⟨h.disk, run_touch_of_some hread, hx⟩
  | none =>
    obtain ⟨y, hw, hy⟩ := run_write_file A hx ByteArray.empty
    exact ⟨y, run_touch_of_none hread hw, hy⟩

/-! ## Opening -/

theorem run_openAt {c : Stored} (hx : l.Shows file lock h.disk)
    (hdecode : decode (file.getD ByteArray.empty) = .ok c) :
    ∃ y lock', (openAt l.route).run h =
        (.ok (), { h with disk := y, databases := (l.route, c) :: h.databases }) ∧
      l.Shows (some (encode c)) (some lock') y := by
  obtain ⟨y, bytes, hlock, hy⟩ := run_touch_lock A hx
  obtain ⟨y', hfile, hy'⟩ := run_touch_file (h := { h with disk := y }) A hy
  obtain ⟨y'', hwrite, hy''⟩ := run_write_file (h := { h with disk := y' }) A hy' (encode c)
  refine ⟨y'', bytes, ?_, hy''⟩
  unfold openAt
  rw [Host.run_bind, hlock]
  simp only
  rw [Host.run_bind, hfile]
  simp only [hdecode]
  rw [Host.run_bind, hwrite]
  rfl

/-- Where the path leads, a database is opened with the table that is stored. -/
theorem run_openFile {p : Path} {t : Table} (hplace : place h p = .ok l.route)
    (hclosed : h.databases = []) (hx : l.Stores Contains t h.disk) :
    ∃ h', (openFile p).run h = (.ok l.route, h') ∧ h'.stdout = h.stdout ∧
      Live l l.route t h' := by
  obtain ⟨file, lock, hshows, hstored⟩ := hx
  obtain ⟨c, hdecode, hsound, htable⟩ : Contains (file.getD ByteArray.empty) t := by
    cases file with
    | some bytes => exact hstored
    | none => exact ⟨blank, rfl, Stored.sound_blank, hstored.symm⟩
  obtain ⟨y, lock', hopen, hy⟩ := run_openAt A hshows hdecode
  rw [hclosed] at hopen
  refine ⟨{ h with disk := y, databases := [(l.route, c)] }, ?_, rfl, rfl, c, lock', rfl, hy,
    hsound, htable⟩
  unfold openFile
  rw [Host.run_get_bind]
  simp only [hplace, hclosed, List.lookup_nil, Option.isSome_none, Bool.false_eq_true, if_false]
  rw [Host.run_bind, hopen]
  rfl

end Files

section Places

variable {l : Place} {p : Path} {h : Host} (S : Seat l h.here p) {file lock : Option ByteArray}

include S

/-- A path that is given leads nowhere else. -/
theorem place_eq (A : l.Addressed) (hx : l.Shows file lock h.disk) {r : Route}
    (hplace : place h p = .ok r) : r = l.route := by
  have hfile : h.canonical p = _ :=
    S.file.canonical hx.ground hx.file (A.file h.here).leadsTo.1.1
  unfold place at hplace
  rw [hfile] at hplace
  cases file with
  | some bytes => exact (Except.ok.inj hplace).symm
  | none =>
    simp only [Option.isSome_none, Bool.false_eq_true, if_false, IoError.isNotFound, if_true,
      S.parent, S.fileName] at hplace
    cases habove : h.canonical S.above with
    | error e =>
      rw [habove] at hplace
      cases hplace
    | ok d =>
      obtain ⟨i, hi⟩ := follow_of_canonical habove
      have hne : S.above.text ≠ "" := (follow_eq_ok_iff.1 hi).1.2
      have hfollow := (locate_eq_ok_iff.1 (lookup_eq_ok_iff.1 (S.lookup_above hx hne))).2
      rw [hi] at hfollow
      obtain ⟨rfl, -⟩ := Spot.found.inj (Except.ok.inj hfollow)
      rw [habove] at hplace
      exact (Except.ok.inj hplace).symm

/-- The place of a database is found, whether it is there or not, if the route of its directory
is. -/
theorem place_of_canonical (A : l.Addressed) (hx : l.Shows file lock h.disk)
    (habove : h.canonical S.above = .ok l.directory) : place h p = .ok l.route := by
  have hfile : h.canonical p = _ :=
    S.file.canonical hx.ground hx.file (A.file h.here).leadsTo.1.1
  unfold place
  rw [hfile]
  cases file with
  | some bytes => rfl
  | none =>
    simp only [Option.isSome_none, Bool.false_eq_true, if_false, IoError.isNotFound, if_true,
      S.parent, S.fileName, habove]
    rfl

end Places

/-! ## An open database -/

section Open

variable {l : Place} {r : Route} {t : Table} {h : Host} {c : Stored}

theorem contents_of_open (hopen : h.databases = [(l.route, c)]) : contents h l.route = c := by
  rw [contents, hopen, List.lookup_cons_self]
  rfl

theorem get_of_live (hlive : Live l r t h) {key : String} (hkey : key ∈ preferenceKeys) :
    (((store r).get key).run h).1 = .ok (t.lookup key) := by
  obtain ⟨rfl, c, lock, hopen, -, -, rfl⟩ := hlive
  have hkeys : ∀ k ∈ preferenceKeys, k ≠ "" := by decide
  simp only [store, if_neg (hkeys key hkey)]
  rw [Host.run_get_bind, contents_of_open hopen]
  rfl

/-- A value that is short enough is written, and the file says so. -/
theorem run_put (A : l.Addressed) (hlive : Live l r t h) {key value : String}
    (hkey : key ∈ preferenceKeys) (hvalue : value.utf8ByteSize ≤ 32) :
    ∃ h', ((store r).put key value).run h = (.ok (), h') ∧ h'.stdout = h.stdout ∧
      Live l r (t.put key value) h' := by
  obtain ⟨rfl, c, lock, hopen, hx, hsound, rfl⟩ := hlive
  obtain ⟨c', hwrite, hsound', htable⟩ := hsound.exists_write hkey hvalue
  obtain ⟨y, hwritten, hy⟩ := run_write_file (h := { h with databases := [(l.route, c')] }) A hx
    (encode c')
  refine ⟨{ h with disk := y, databases := [(l.route, c')] }, ?_, rfl, rfl, c', lock, rfl, hy,
    hsound', htable⟩
  have hthere : ({ h with databases := [(l.route, c')] } : Host).isFile l.route.toPath = true :=
    ((A.file h.here).leads_and_isFile hx.ground hx.file).2
  have hfilter : (l.route, c') :: h.databases.filter (·.1 != l.route) = [(l.route, c')] := by
    simp [hopen]
  have hlimits : ∀ k ∈ preferenceKeys, ¬(k = "" ∨ keyLimit < k.utf8ByteSize) := by decide
  simp only [store, if_neg (hlimits key hkey)]
  rw [Host.run_get_bind]
  simp only [contents_of_open hopen, hwrite]
  rw [Host.run_modify_bind, Host.run_get_bind]
  simp only [hfilter, hthere, if_true]
  rw [Host.run_bind, hwritten]
  rfl

/-- Whatever a request writes is taken. -/
theorem taken_of_live (A : l.Addressed) (hlive : Live l r t h) (request : Request) :
    request.Taken (store r) h := by
  intro key value hwritten
  obtain ⟨hkey, hvalue⟩ := request.written?_short hwritten
  obtain ⟨h', hput, -⟩ := run_put A hlive hkey hvalue
  rw [hput]

end Open

/-- What was committed to a database of pages is found again. -/
theorem durable_pages {l : Place} (A : l.Addressed) : pages.Durable l Contains (Live l) where
  opened {h p t} S hclosed hx := by
    obtain ⟨file, lock, hshows, -⟩ := id hx
    cases hplace : place h p with
    | error e =>
      have hopen : (openFile p).run h = (.error (.store e.message), h) := by
        unfold openFile
        rw [Host.run_get_bind]
        simp only [hplace]
        rfl
      have hrun : (pages.openFile p).run h = _ := hopen
      rw [hrun]
      exact ⟨rfl, hx⟩
    | ok r =>
      obtain rfl := place_eq S A hshows hplace
      obtain ⟨h', hopen, hstdout, hlive⟩ := run_openFile A hplace hclosed hx
      have hrun : (pages.openFile p).run h = _ := hopen
      rw [hrun]
      exact ⟨hstdout, hlive⟩
  kept {r t h} hlive := by
    obtain ⟨-, c, lock, -, hx, hsound, rfl⟩ := hlive
    exact ⟨_, lock, contains_encode hsound, hx⟩
  reads := Store.readsOnly_database
  read hlive hkey := get_of_live hlive hkey
  written {r t h request key value} hlive hwritten := by
    obtain ⟨hkey, hvalue⟩ := request.written?_short hwritten
    obtain ⟨h', hput, hstdout, hlive'⟩ := run_put A hlive hkey hvalue
    have hrun : ((pages.store r).put key value).run h = _ := hput
    rw [hrun]
    exact ⟨hstdout, hlive'⟩
  untouched {r t h h'} hlive hdatabases hstill := by
    obtain ⟨rfl, c, lock, hopen, hx, hsound⟩ := hlive
    exact ⟨rfl, c, lock, hdatabases.trans hopen, hx.of_still hstill, hsound⟩
  closed {r t h} hlive := by
    obtain ⟨-, c, lock, -, hx, hsound, rfl⟩ := hlive
    exact ⟨⟨some (encode c), some lock, hx, contains_encode hsound⟩, rfl⟩

end Database

end ClassViewer
