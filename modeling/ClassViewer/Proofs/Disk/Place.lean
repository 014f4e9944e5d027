import ClassViewer.Proofs.Disk.Confined

/-!
# A free place for a file

A path may lead to a free place once the directory above it has been made (`IsFree`). From then on
the disk is in one of two states as far as the path is concerned : nothing lies at the place
(`Place.Lacks`), or a file does (`Place.Holds`). Looking for the file, writing it and removing it do
what they should between these two, whatever else is on the disk.
-/

namespace ClassViewer.Disk

variable {d d' : Disk} {ending : Ending} {links : Nat} {here r : Route} {slash : Bool}
  {segs : List String} {spot : Spot} {i : Item} {name : String} {p : Path}

/-! ## Where paths lead -/

/-- Where a path leads depends on the items alone. -/
theorem Leads.congr (hd : ∀ s, d'.item? s = d.item? s)
    (h : Leads d ending links here slash segs spot) :
    Leads d' ending links here slash segs spot := by
  induction h with
  | @arrive links here slash =>
    rw [← hd here]
    exact .arrive
  | stay _ ih => exact .stay ih
  | climb _ ih => exact .climb ih
  | free hn hi ht =>
    refine .free hn ((hd _).trans hi) ?_
    rwa [takesNames, hd]
  | enter hn hi _ ih => exact .enter hn ((hd _).trans hi) ih
  | link hn hi hf => exact .link hn ((hd _).trans hi) hf
  | follow hn hi hf _ ih => exact .follow hn ((hd _).trans hi) hf ih
  | item hn hi hdir hlink hs => exact .item hn ((hd _).trans hi) hdir hlink hs

/-- A path that leads to something leads to an entry. -/
theorem Leads.exists_entry (h : Leads d .target links here slash segs (.found r i)) :
    ∃ r' i', Leads d .entry links here slash segs (.found r' i') := by
  have hname : ∀ {slash seg rest}, IsName .target slash seg rest → IsName .entry slash seg rest :=
    fun hn => ⟨hn.ne_dot, hn.ne_dots, by simp, hn.short⟩
  generalize hs : Spot.found r i = spot at h
  induction h with
  | arrive => exact ⟨_, _, .arrive⟩
  | stay _ ih =>
    obtain ⟨r', i', h'⟩ := ih hs
    exact ⟨r', i', .stay h'⟩
  | climb _ ih =>
    obtain ⟨r', i', h'⟩ := ih hs
    exact ⟨r', i', .climb h'⟩
  | free => cases hs
  | enter hn hi _ ih =>
    obtain ⟨r', i', h'⟩ := ih hs
    exact ⟨r', i', .enter (hname hn) hi h'⟩
  | link _ _ hf => cases hf
  | @follow links here slash seg rest target spot hn hi hf _ ih =>
    -- only a link at the very end is an entry itself
    by_cases hrest : rest = []
    · subst hrest
      exact ⟨_, _, .link (hname hn) hi rfl⟩
    · obtain ⟨r', i', h'⟩ := ih hs
      exact ⟨r', i', .follow (hname hn) hi (fun hc => hrest hc.1) h'⟩
  | item hn hi hdir hlink _ => exact ⟨_, _, .item (hname hn) hi hdir hlink (.inr rfl)⟩

/-- A name that is free as an entry is free for every purpose, if no directory is asked for. -/
theorem Leads.vacant_of_entry (h : Leads d .entry links here false segs (.vacant r name))
    (ending : Ending) : Leads d ending links here false segs (.vacant r name) := by
  have hname : ∀ {seg rest}, IsName .entry false seg rest → IsName ending false seg rest :=
    fun hn => ⟨hn.ne_dot, hn.ne_dots, by simp, hn.short⟩
  generalize hs : Spot.vacant r name = spot at h
  generalize hslash : false = slash at h
  induction h with
  | arrive => cases hs
  | stay _ ih => exact .stay (ih hs hslash)
  | climb _ ih => exact .climb (ih hs hslash)
  | free hn hi ht =>
    subst hslash
    exact .free (hname hn) hi ht
  | enter hn hi _ ih =>
    subst hslash
    exact .enter (hname hn) hi (ih hs rfl)
  | link => cases hs
  | @follow links here slash seg rest target spot hn hi hf _ ih =>
    subst hslash
    have hrest : rest ≠ [] := fun hc => hf ⟨hc, rfl⟩
    exact .follow (hname hn) hi (fun hc => hrest hc.1) (ih hs (by simp [hrest]))
  | item => cases hs

/-- A name stays free where more is on the disk, but nothing at its place. -/
theorem Leads.vacant_of_extends (h : Leads d ending links here slash segs (.vacant r name))
    (hx : d.Extends d') (hi : d'.item? (r ++ [name]) = none) :
    Leads d' ending links here slash segs (.vacant r name) := by
  generalize hs : Spot.vacant r name = spot at h
  induction h with
  | arrive => cases hs
  | stay _ ih => exact .stay (ih hs)
  | climb _ ih => exact .climb (ih hs)
  | @free links here slash seg hn _ ht =>
    obtain ⟨rfl, rfl⟩ := Spot.vacant.inj hs
    refine .free hn hi ?_
    simp only [takesNames, Bool.and_eq_true] at ht ⊢
    obtain ⟨i, hdir⟩ := Option.isSome_iff_exists.1 ht.1
    exact ⟨Option.isSome_iff_exists.2 ⟨i, hx _ _ hdir⟩, ht.2⟩
  | enter hn hdir _ ih => exact .enter hn (hx _ _ hdir) (ih hs)
  | link => cases hs
  | follow hn hlink hf _ ih => exact .follow hn (hx _ _ hlink) hf (ih hs)
  | item => cases hs

/-- Where a name was free, a file that is put there is found, for every purpose. -/
theorem Leads.found_of_entry (h : Leads d .entry links here false segs (.vacant r name))
    (hx : d.Extends d') (hi : d'.item? (r ++ [name]) = some i) (hleaf : IsLeaf i)
    (ending : Ending) : Leads d' ending links here false segs (.found (r ++ [name]) i) := by
  have hname : ∀ {seg rest}, IsName .entry false seg rest → IsName ending false seg rest :=
    fun hn => ⟨hn.ne_dot, hn.ne_dots, by simp, hn.short⟩
  generalize hs : Spot.vacant r name = spot at h
  generalize hslash : false = slash at h
  induction h with
  | arrive => cases hs
  | stay _ ih => exact .stay (ih hs hslash)
  | climb _ ih => exact .climb (ih hs hslash)
  | free hn _ _ =>
    subst hslash
    obtain ⟨rfl, rfl⟩ := Spot.vacant.inj hs
    exact .item (hname hn) hi hleaf.1 hleaf.2 (.inl rfl)
  | enter hn hdir _ ih =>
    subst hslash
    exact .enter (hname hn) (hx _ _ hdir) (ih hs rfl)
  | link => cases hs
  | @follow links here slash seg rest target spot hn hlink hf _ ih =>
    subst hslash
    have hrest : rest ≠ [] := fun hc => hf ⟨hc, rfl⟩
    exact .follow (hname hn) (hx _ _ hlink) (fun hc => hrest hc.1) (ih hs (by simp [hrest]))
  | item => cases hs

/-! ## Room for a file -/

/-- Makes the directory above a path, and those above that. -/
def makeRoom (d : Disk) (here : Route) (p : Path) : Except IoError Unit × Disk :=
  match p.parent? with
  | none => (.ok (), d)
  | some above => d.makeDirectories here above

theorem extends_makeRoom (d : Disk) (here : Route) (p : Path) :
    d.Extends (d.makeRoom here p).2 := by
  unfold makeRoom
  split
  · exact Extends.refl d
  · exact extends_makeDirectories d here _

/-- Nothing is made where the directory stands already. -/
theorem makeDirectories_of_isDirectory (h : d.isDirectory here p = true) :
    d.makeDirectories here p = (.ok (), d) := by
  have hfound : ∃ r' i', d.locate here .entry p = .ok (.found r' i') := by
    unfold isDirectory at h
    split at h
    · rename_i r hl
      obtain ⟨hshort, hf⟩ := locate_eq_ok_iff.mp (lookup_eq_ok_iff.mp hl)
      obtain ⟨htext, hlead⟩ := follow_eq_ok_iff.mp hf
      obtain ⟨r', i', hlead'⟩ := hlead.exists_entry
      exact ⟨r', i', locate_eq_ok_iff.mpr ⟨hshort, follow_eq_ok_iff.mpr ⟨htext, hlead'⟩⟩⟩
    · cases h
  obtain ⟨r', i', hentry⟩ := hfound
  have hmake : d.makeDirectory here p = .error (.os .alreadyExists) := by
    rw [makeDirectory, hentry]
  unfold makeDirectories makeDirectoriesUpTo
  split
  · rfl
  · simp [hmake, IoError.isNotFound]

theorem makeDirectories_empty (d : Disk) (here : Route) (h : p.text = "") :
    d.makeDirectories here p = (.ok (), d) := by
  unfold makeDirectories makeDirectoriesUpTo
  rw [if_pos h]

/-! ## The place -/

/-- A name in a directory of a disk, and the disk. -/
structure Place where
  disk : Disk
  directory : Route
  name : String

namespace Place

/-- The route of the place. -/
def route (l : Place) : Route := l.directory ++ [l.name]

theorem route_ne_nil (l : Place) : l.route ≠ [] := by
  simp [route]

/-- The disk is that of the place. -/
def Lacks (l : Place) (x : Disk) : Prop := ∀ s, x.item? s = l.disk.item? s

/-- The disk is that of the place, but for a file that lies there. -/
structure Holds (l : Place) (x : Disk) : Prop where
  others : ∀ s, s ≠ l.route → x.item? s = l.disk.item? s
  file : ∃ bytes runners, x.item? l.route = some (.file bytes runners)
  single : x.routesOf l.route = [l.route]

variable {l : Place} {x : Disk}

/-- A file that is put at the place lies there. -/
theorem Lacks.put (hx : l.Lacks x) (bytes : ByteArray) (runners : Runners) :
    l.Holds (x.put l.route (.file bytes runners)) := by
  refine ⟨?_, ⟨bytes, runners, ?_⟩, ?_⟩
  · intro s hs
    by_cases hnil : s = []
    · subst hnil
      rfl
    · rw [item?_put x _ _ hnil, if_neg hs, hx]
  · rw [item?_put x _ _ l.route_ne_nil, if_pos rfl]
  · have hnone :
        (x.put l.route (.file bytes runners)).shared.find? (·.contains l.route) = none := by
      simp [Disk.put, Disk.erase, eraseWhere]
    rw [routesOf, hnone]
    rfl

/-- A file that is written anew lies where it lay. -/
theorem Holds.alter (hx : l.Holds x) (bytes : ByteArray) (runners : Runners) :
    l.Holds (x.alter l.route (.file bytes runners)) := by
  have hmem : ∀ s, s ∈ x.routesOf l.route ↔ s = l.route := by
    intro s
    rw [hx.single, List.mem_singleton]
  refine ⟨?_, ⟨bytes, runners, ?_⟩, hx.single⟩
  · intro s hs
    by_cases hnil : s = []
    · subst hnil
      rfl
    · rw [item?_alter x _ _ hnil, if_neg (fun hc => hs ((hmem s).mp hc)), hx.others s hs]
  · rw [item?_alter x _ _ l.route_ne_nil, if_pos ((hmem _).mpr rfl)]

/-- Once the file is removed, nothing lies at the place. -/
theorem Holds.erase (hx : l.Holds x) (hfree : l.disk.item? l.route = none) :
    l.Lacks (x.erase l.route) := by
  intro s
  by_cases hnil : s = []
  · subst hnil
    rfl
  · rw [item?_erase x _ hnil]
    by_cases hs : s = l.route
    · rw [if_pos hs, hs, hfree]
    · rw [if_neg hs, hx.others s hs]

end Place

/-- Once room was made for it, a path leads to a free place : not even a link lies there. -/
structure IsFree (d : Disk) (here : Route) (p : Path) (l : Place) : Prop where
  room : d.makeRoom here p = (.ok (), l.disk)
  entry : l.disk.locate here .entry p = .ok (.vacant l.directory l.name)
  noSlash : asksDirectory p = false

namespace IsFree

variable {l : Place} {x : Disk}

theorem item?_route (h : d.IsFree here p l) : l.disk.item? l.route = none :=
  item?_eq_none_of_locate h.entry

/-- Where the path leads on the disk it is free on, by the rules. -/
theorem leadsTo_entry (h : d.IsFree here p l) :
    (p.text.utf8ByteSize < pathLimit ∧ Text.holds (Char.ofNat 0) p.text = false ∧ p.text ≠ "") ∧
      Leads l.disk .entry linkLimit (if p.isAbsolute then [] else here) false (steps p.text)
        (.vacant l.directory l.name) := by
  obtain ⟨hshort, hf⟩ := locate_eq_ok_iff.mp h.entry
  obtain ⟨htext, hlead⟩ := follow_eq_ok_iff.mp hf
  rw [LeadsTo, h.noSlash] at hlead
  exact ⟨⟨hshort, htext⟩, hlead⟩

/-- A path of the right form is located where the rules lead. -/
theorem locate_of_leads (h : d.IsFree here p l)
    (hlead : Leads x ending linkLimit (if p.isAbsolute then [] else here) false (steps p.text)
      spot) : x.locate here ending p = .ok spot := by
  obtain ⟨⟨hshort, htext⟩, -⟩ := h.leadsTo_entry
  refine locate_eq_ok_iff.mpr ⟨hshort, follow_eq_ok_iff.mpr ⟨htext, ?_⟩⟩
  rwa [LeadsTo, h.noSlash]

theorem locate_of_lacks (h : d.IsFree here p l) (hx : l.Lacks x) (ending : Ending) :
    x.locate here ending p = .ok (.vacant l.directory l.name) :=
  h.locate_of_leads ((h.leadsTo_entry.2.vacant_of_entry ending).congr hx)

theorem extends_of_holds (h : d.IsFree here p l) (hx : l.Holds x) : l.disk.Extends x := by
  intro s i hi
  rw [hx.others s, hi]
  rintro rfl
  rw [h.item?_route] at hi
  cases hi

theorem locate_of_holds (h : d.IsFree here p l) (hx : l.Holds x) :
    ∃ bytes runners, ∀ ending,
      x.locate here ending p = .ok (.found l.route (.file bytes runners)) := by
  obtain ⟨bytes, runners, hfile⟩ := hx.file
  have hleaf : IsLeaf (.file bytes runners) := ⟨by simp, by simp⟩
  exact ⟨bytes, runners, fun ending =>
    h.locate_of_leads (h.leadsTo_entry.2.found_of_entry (h.extends_of_holds hx) hfile hleaf ending)⟩

/-- Where nothing lies at the place, the path leads nowhere. -/
theorem leads_of_lacks (h : d.IsFree here p l) (hx : l.Lacks x) : x.leads here p = false := by
  rw [leads, lookup, if_pos rfl, h.locate_of_lacks hx]

/-- Where a file lies at the place, the path leads there. -/
theorem leads_of_holds (h : d.IsFree here p l) (hx : l.Holds x) : x.leads here p = true := by
  obtain ⟨bytes, runners, hloc⟩ := h.locate_of_holds hx
  rw [leads, lookup, if_pos rfl, hloc]

/-- Before room was made for it, the path led nowhere either. -/
theorem leads_eq_false (h : d.IsFree here p l) : d.leads here p = false := by
  unfold leads
  split
  · rename_i spot hl
    obtain ⟨r, i⟩ := spot
    have hkeeps : d.Keeps l.disk := by
      have hx := extends_makeRoom d here p
      rw [h.room] at hx
      exact hx.keeps
    obtain ⟨j, hj⟩ :=
      follow_of_keeps hkeeps (locate_eq_ok_iff.mp (lookup_eq_ok_iff.mp hl)).2
    have hvacant := (locate_eq_ok_iff.mp (h.locate_of_lacks (fun _ => rfl) .target)).2
    rw [hj] at hvacant
    cases hvacant
  · rfl

/-- Where the directory of the place stands, there is room. -/
theorem makeRoom_of_lacks (h : d.IsFree here p l) (hx : l.Lacks x) :
    x.makeRoom here p = (.ok (), x) := by
  have hroom := h.room
  unfold makeRoom at hroom ⊢
  split
  · rfl
  · rename_i above habove
    rw [habove] at hroom
    by_cases hempty : above.text = ""
    · exact makeDirectories_empty x here hempty
    · apply makeDirectories_of_isDirectory
      have hdir := isDirectory_of_makeDirectories hempty hroom
      unfold isDirectory at hdir ⊢
      split at hdir
      · rename_i r hl
        obtain ⟨hshort, hf⟩ := locate_eq_ok_iff.mp (lookup_eq_ok_iff.mp hl)
        obtain ⟨htext, hlead⟩ := follow_eq_ok_iff.mp hf
        have hl' := lookup_eq_ok_iff.mpr (locate_eq_ok_iff.mpr
          ⟨hshort, follow_eq_ok_iff.mpr ⟨htext, Leads.congr hx hlead⟩⟩)
        rw [hl']
      · cases hdir

/-- A file that is written to the free place lies there. -/
theorem write_of_lacks (h : d.IsFree here p l) (hx : l.Lacks x) (bytes : ByteArray) :
    ∃ y, x.write here p bytes = .ok y ∧ l.Holds y := by
  refine ⟨x.put l.route (.file bytes .nobody), ?_, hx.put bytes .nobody⟩
  rw [write, h.locate_of_lacks hx]
  rfl

/-- A file that is written again lies where it lay. -/
theorem write_of_holds (h : d.IsFree here p l) (hx : l.Holds x) (bytes : ByteArray) :
    ∃ y, x.write here p bytes = .ok y ∧ l.Holds y := by
  obtain ⟨old, runners, hloc⟩ := h.locate_of_holds hx
  refine ⟨x.alter l.route (.file bytes runners), ?_, hx.alter bytes runners⟩
  rw [write, hloc]

/-- Where nothing lies at the place, nothing is removed. -/
theorem removeFile_of_lacks (h : d.IsFree here p l) (hx : l.Lacks x) :
    x.removeFile here p = .error (.os .noEntry) := by
  rw [removeFile, h.locate_of_lacks hx]

/-- A file that is removed leaves the place free. -/
theorem removeFile_of_holds (h : d.IsFree here p l) (hx : l.Holds x) :
    ∃ y, x.removeFile here p = .ok y ∧ l.Lacks y := by
  obtain ⟨bytes, runners, hloc⟩ := h.locate_of_holds hx
  refine ⟨x.erase l.route, ?_, hx.erase h.item?_route⟩
  rw [removeFile, hloc]
  simp [h.noSlash]

end IsFree

end ClassViewer.Disk
