import ClassViewer.Proofs.Disk.Confined
import ClassViewer.Proofs.Disk.Direct
import ClassViewer.Proofs.Host
import ClassViewer.Proofs.PrimaryFirst
import ClassViewer.Tool.Cfr
import ClassViewer.Tool.JdCore
import ClassViewer.Tool.Procyon
import ClassViewer.Tool.Vineflower

/-!
# Scratch directories are not left

A path is refused by a scratch directory exactly if a segment of it climbs, and a write that is not
refused changes the machine within the directory (`Host.ChangedWithin`). So the tools write classes
nowhere else : from the moment its scratch directory is made, a decompilation changes the machine
within the directory until the tool is run (`UsesScratch`). `scratch_writes_stay_within` states
both.
-/

namespace ClassViewer

open Disk (Solid Confined steps)

/-! ## Machines changed within a root -/

/-- The machine is changed by making directories and writing files within the root, if at all. -/
structure Host.ChangedWithin (h : Host) (root : Path) (h' : Host) : Prop where
  here : h'.here = h.here
  disk : Confined root h.here h.disk h'.disk

namespace Host

variable {h h' h'' : Host} {root p : Path}

theorem ChangedWithin.refl (h : Host) (root : Path) : h.ChangedWithin root h :=
  ⟨rfl, .unchanged⟩

theorem ChangedWithin.trans (hc : h.ChangedWithin root h') (hc' : h'.ChangedWithin root h'') :
    h.ChangedWithin root h'' :=
  ⟨hc'.here.trans hc.here, hc.disk.trans (hc.here ▸ hc'.disk)⟩

/-- Nothing is missing on the way to a path, its end aside. -/
def Reaches (h : Host) (root : Path) : Prop := h.disk.Solid h.here root

theorem reaches_of_isDirectory (hd : h.isDirectory root = true) : h.Reaches root :=
  Disk.solid_of_isDirectory hd

theorem ChangedWithin.reaches (hc : h.ChangedWithin root h') (hr : h.Reaches root) :
    h'.Reaches root := by
  unfold Reaches
  rw [hc.here]
  exact Solid.hardens hr hc.disk.hardens

theorem changedWithin_makeDirectories (inner : Path) (hr : h.Reaches root)
    (hrel : inner.isAbsolute = false) (hdots : ".." ∉ steps inner.text)
    (hp : p.OnTheWay (root.join inner)) :
    h.ChangedWithin root ((Host.makeDirectories p).run h).2 := by
  rw [run_makeDirectories]
  exact ⟨rfl, Disk.confined_makeDirectoriesUpTo hr hrel hdots _ hp⟩

theorem changedWithin_write (hp : root.Within p) (bytes : ByteArray) :
    h.ChangedWithin root ((Host.write p bytes).run h).2 := by
  unfold Host.write
  simp only [StateT.run_bind, StateT.run_get, pure_bind]
  split
  · exact ⟨rfl, .unchanged⟩
  · unfold change
    simp only [StateT.run_bind, StateT.run_get, pure_bind]
    cases hw : h.disk.write h.here p bytes with
    | ok d => exact ⟨rfl, Confined.unchanged.file hp hw⟩
    | error e => exact ⟨rfl, .unchanged⟩

end Host

/-! ## Writing to a scratch directory -/

namespace Scratch

variable {s : Scratch} {h : Host} {relative : String} {bytes : ByteArray}

/-- The path of a file as seen from the directory. -/
def inner (relative : String) : Path := ⟨Text.dropLeading '/' relative⟩

/-- Where a file is written. -/
def target (s : Scratch) (relative : String) : Path := s.root.join (inner relative)

/-- The failure of a path that is refused. -/
def refusal (s : Scratch) (relative : String) : Failure :=
  .ofMessage ("Refusing scratch path outside " ++ s.root.text ++ ": " ++ (inner relative).text)

theorem isAbsolute_inner (relative : String) : (inner relative).isAbsolute = false := by
  rw [Path.isAbsolute, beq_eq_false_iff_ne]
  exact Text.head?_dropLeading '/' relative

theorem dots_mem_steps_inner :
    ".." ∈ steps (inner relative).text ↔ ".." ∈ Text.split '/' relative := by
  rw [steps, List.mem_filter, inner, Text.mem_split_dropLeading (by decide)]
  exact and_iff_left (by decide)

/-- The components of a relative path stay inside exactly if none of them climbs. -/
theorem all_staysInside_iff {p : Path} (hp : p.isAbsolute = false) :
    p.components.all staysInside = true ↔ ".." ∉ Text.split '/' p.text := by
  rw [← Path.parent_mem_components hp, List.all_eq_true]
  constructor
  · intro hall hparent
    exact absurd (hall _ hparent) (by decide)
  · intro hparent c hc
    cases c with
    | root => exact absurd hc (Path.root_not_mem_components hp)
    | parent => exact absurd hc hparent
    | current => rfl
    | name n => rfl

/-- A path is refused exactly if a segment of it climbs. -/
theorem place_eq (s : Scratch) (relative : String) :
    s.place relative = if ".." ∈ Text.split '/' relative then .error (s.refusal relative)
      else .ok (s.target relative) := by
  have hmem : ".." ∈ Text.split '/' (Text.dropLeading '/' relative) ↔
      ".." ∈ Text.split '/' relative := Text.mem_split_dropLeading (by decide)
  have hall := all_staysInside_iff (isAbsolute_inner relative)
  have hplace : s.place relative = if (inner relative).components.all staysInside then
      .ok (s.target relative) else .error (s.refusal relative) := rfl
  by_cases hdots : ".." ∈ Text.split '/' relative
  · rw [hplace, if_pos hdots, if_neg fun hc => hall.1 hc (hmem.2 hdots)]
  · rw [hplace, if_neg hdots, if_pos (hall.2 fun hc => hdots (hmem.1 hc))]

theorem run_write_of_climbs (hdots : ".." ∈ Text.split '/' relative) :
    (s.write relative bytes).run h = (.error (s.refusal relative), h) := by
  unfold write
  rw [place_eq, if_pos hdots]
  rfl

/-- The failures of a write that is not refused. -/
inductive IsIoFailure (p : Path) : Failure → Prop
  | above (e : IoError) : IsIoFailure p (.ofIo e)
  | file (e : IoError) :
      IsIoFailure p ((Failure.ofIo e).inContext ("Failed to write scratch file: " ++ p.text))

/-- What a write to a scratch directory does. -/
structure Writes (s : Scratch) (h : Host) (relative : String) (bytes : ByteArray) : Prop where
  /-- It is refused exactly if a segment climbs. -/
  refuses : (∃ f, s.place relative = .error f) ↔ ".." ∈ Text.split '/' relative
  /-- Then nothing is changed. -/
  refused : ".." ∈ Text.split '/' relative →
    (s.write relative bytes).run h = (.error (s.refusal relative), h)
  /-- Otherwise the file is within the root, and it is written unless the disk does not allow it. -/
  accepted : ".." ∉ Text.split '/' relative → s.root.Within (s.target relative) ∧
    (((s.write relative bytes).run h).1 = .ok (s.target relative) ∨
      ∃ f, ((s.write relative bytes).run h).1 = .error f ∧ IsIoFailure (s.target relative) f)
  /-- Where nothing is missing above the root, all that is made or written is within it. -/
  within : h.Reaches s.root → h.ChangedWithin s.root ((s.write relative bytes).run h).2

/-- Makes the directories above a path. -/
def makeAbove (p : Path) : HostM (Except IoError Unit) :=
  match p.parent? with
  | some above => Host.makeDirectories above
  | none => pure (.ok ())

theorem changedWithin_makeAbove {root : Path} (hr : h.Reaches root)
    (hdots : ".." ∉ Text.split '/' relative) :
    h.ChangedWithin root ((makeAbove (root.join (inner relative))).run h).2 := by
  unfold makeAbove
  split
  · rename_i above hp
    exact Host.changedWithin_makeDirectories (inner relative) hr (isAbsolute_inner relative)
      (fun hc => hdots (dots_mem_steps_inner.1 hc)) (Path.onTheWay_parent? hp)
  · exact .refl h root

/-- A write that is not refused makes the directories above the file, and then the file. -/
theorem run_write_of_stays (hdots : ".." ∉ Text.split '/' relative) :
    (s.write relative bytes).run h =
      match (makeAbove (s.target relative)).run h with
      | (.error e, h') => (.error (.ofIo e), h')
      | (.ok (), h') => match (Host.write (s.target relative) bytes).run h' with
        | (.ok (), h'') => (.ok (s.target relative), h'')
        | (.error e, h'') => (.error ((Failure.ofIo e).inContext
            ("Failed to write scratch file: " ++ (s.target relative).text)), h'') := by
  unfold write
  rw [place_eq, if_neg hdots]
  cases habove : (s.target relative).parent? with
  | none =>
    have hmade : (makeAbove (s.target relative)).run h = (.ok (), h) := by
      rw [makeAbove, habove]
      rfl
    simp only [hmade, habove, pure_bind, Host.run_bind]
    rcases (Host.write (s.target relative) bytes).run h with ⟨_ | _, h'⟩
    · rfl
    · rfl
  | some above =>
    have hmade : makeAbove (s.target relative) = Host.makeDirectories above := by
      rw [makeAbove, habove]
    simp only [hmade, habove, Host.run_bind]
    rcases (Host.makeDirectories above).run h with ⟨_ | _, h'⟩
    · rfl
    · simp only [Host.run_bind]
      rcases (Host.write (s.target relative) bytes).run h' with ⟨_ | _, h''⟩
      · rfl
      · rfl

theorem writes (s : Scratch) (h : Host) (relative : String) (bytes : ByteArray) :
    s.Writes h relative bytes := by
  by_cases hdots : ".." ∈ Text.split '/' relative
  · refine ⟨⟨fun _ => hdots, fun _ => ⟨_, (s.place_eq relative).trans (if_pos hdots)⟩⟩,
      run_write_of_climbs, fun hn => absurd hdots hn, fun _ => ?_⟩
    rw [run_write_of_climbs hdots]
    exact .refl h s.root
  · have hwithin : s.root.Within (s.target relative) :=
      Path.within_join (isAbsolute_inner relative) fun hc => hdots (dots_mem_steps_inner.1 hc)
    refine ⟨⟨?_, fun hc => absurd hc hdots⟩, fun hc => absurd hc hdots,
      fun _ => ⟨hwithin, ?_⟩, ?_⟩
    · rintro ⟨f, hf⟩
      rw [place_eq, if_neg hdots] at hf
      cases hf
    · rw [run_write_of_stays hdots]
      rcases (makeAbove (s.target relative)).run h with ⟨e | _, h'⟩
      · exact .inr ⟨_, rfl, .above e⟩
      · simp only
        rcases (Host.write (s.target relative) bytes).run h' with ⟨e | _, h''⟩
        · exact .inr ⟨_, rfl, .file e⟩
        · exact .inl rfl
    · intro hr
      have habove : h.ChangedWithin s.root ((makeAbove (s.target relative)).run h).2 :=
        changedWithin_makeAbove hr hdots
      rw [run_write_of_stays hdots]
      rcases hmade : (makeAbove (s.target relative)).run h with ⟨_ | _, h'⟩
      · rw [hmade] at habove
        exact habove
      · rw [hmade] at habove
        have hfile := Host.changedWithin_write (h := h') hwithin bytes
        simp only
        rcases hwritten : (Host.write (s.target relative) bytes).run h' with ⟨_ | _, h''⟩
        · rw [hwritten] at hfile
          exact habove.trans hfile
        · rw [hwritten] at hfile
          exact habove.trans hfile

/-! ## Making a scratch directory -/

theorem name_ne_empty (label : String) (process clock count : Nat) :
    name label process clock count ≠ "" := by
  simp [name]

/-- The path of the next scratch directory. -/
def newRoot (h : Host) (label : String) : Path :=
  h.temporary.join ⟨name label h.process h.clock h.scratchCount⟩

theorem newRoot_text_ne_empty (h : Host) (label : String) : (newRoot h label).text ≠ "" :=
  Path.join_text_ne_empty (name_ne_empty _ _ _ _) _

/-- Where its place is free, a scratch directory is made there. -/
theorem run_create_of_vacant {label n : String} {r : Route}
    (hfree : h.disk.locate h.here .entry (newRoot h label) = .ok (.vacant r n)) :
    (create label).run h = (.ok ⟨newRoot h label⟩, { h with
      scratchCount := h.scratchCount + 1, disk := h.disk.put (r ++ [n]) .directory }) := by
  have hmade := Disk.makeDirectories_of_vacant (newRoot_text_ne_empty h label) hfree
  unfold create
  simp only [Host.run_bind, StateT.run_get, StateT.run_set, pure, Host.run_makeDirectories,
    ← newRoot.eq_def, hmade]
  rfl

/-- A scratch directory that was made stands. -/
theorem isDirectory_of_create {label : String} {h' : Host}
    (hc : (create label).run h = (.ok s, h')) : h'.isDirectory s.root = true := by
  have hne : (h.temporary.join ⟨name label h.process h.clock h.scratchCount⟩).text ≠ "" :=
    Path.join_text_ne_empty (name_ne_empty _ _ _ _) _
  unfold create at hc
  simp only [Host.run_bind, StateT.run_get, StateT.run_set, pure, Host.run_makeDirectories] at hc
  generalize h.temporary.join ⟨name label h.process h.clock h.scratchCount⟩ = root at hc hne
  rcases hmade : h.disk.makeDirectories h.here root with ⟨_ | _, d⟩
  · rw [hmade] at hc
    cases hc
  · rw [hmade] at hc
    cases hc
    exact Disk.isDirectory_of_makeDirectories hne hmade

end Scratch

/-! ## Tools in scratch directories -/

/-- The machine is changed within the root until the tool is run, if it is, and not after it. -/
def JarTool.RunsWithin (tool : JarTool) (root : Path) (h h' : Host) : Prop :=
  ∃ g, h.ChangedWithin root g ∧ (h' = g ∨ ∃ args, h' = ((tool.run args).run g).2)

section Tools

variable {tool : JarTool} {scratch : Scratch} {scope : Scope} {h h' : Host} {root : Path}

theorem JarTool.RunsWithin.of_changed (hc : h.ChangedWithin root h') : tool.RunsWithin root h h' :=
  ⟨h', hc, .inl rfl⟩

theorem JarTool.RunsWithin.of_run (hc : h.ChangedWithin root h') (args : List String) :
    tool.RunsWithin root h ((tool.run args).run h').2 :=
  ⟨h', hc, .inr ⟨args, rfl⟩⟩

theorem Cfr.changedWithin_writeOthers (hr : h.Reaches scratch.root) (scope : Scope)
    (classPath : String) (paths : List String) : h.ChangedWithin scratch.root
      ((Cfr.writeOthers scratch (.ofScope scope) classPath paths).run h).2 := by
  induction paths generalizing h with
  | nil => exact .refl h scratch.root
  | cons path paths ih =>
    unfold Cfr.writeOthers
    split
    · exact ih hr
    · have hcontent : ((Cfr.Source.ofScope scope).content path).run h =
          (Cfr.contentIn scope h path, h) := rfl
      rw [Host.run_bind, hcontent]
      cases Cfr.contentIn scope h path with
      | none => exact ih hr
      | some bytes =>
        have hwrite := (scratch.writes h (Cfr.classpathName ++ "/" ++ path) bytes).within hr
        simp only [Host.run_bind]
        generalize (scratch.write (Cfr.classpathName ++ "/" ++ path) bytes).run h = written at *
        cases written.1 with
        | error f => exact hwrite
        | ok _ => exact hwrite.trans (ih (hwrite.reaches hr))

theorem Cfr.changedWithin_extraClasspath (hr : h.Reaches scratch.root) (scope : Scope)
    (classPath : String) : h.ChangedWithin scratch.root
      ((Cfr.extraClasspath scratch (.ofScope scope) classPath).run h).2 := by
  unfold Cfr.extraClasspath
  split
  · exact .refl h scratch.root
  · have hknown : (Cfr.Source.ofScope scope).knownPaths.run h =
        ((scope.classNames h).map ClassId.classPath, h) := rfl
    have hothers := Cfr.changedWithin_writeOthers hr scope classPath
      ((scope.classNames h).map ClassId.classPath)
    simp only [Host.run_bind, hknown]
    generalize (Cfr.writeOthers scratch (.ofScope scope) classPath
      ((scope.classNames h).map ClassId.classPath)).run h = written at *
    cases written.1 with
    | error f => exact hothers
    | ok _ => exact hothers

theorem Cfr.runsWithin_toolText (hr : h.Reaches scratch.root) (classPath : String)
    (options : Cfr.Options) : tool.RunsWithin scratch.root h
      ((Cfr.toolText tool classPath (.ofScope scope) options scratch).run h).2 := by
  have hcontent : ((Cfr.Source.ofScope scope).content classPath).run h =
      (Cfr.contentIn scope h classPath, h) := rfl
  unfold Cfr.toolText
  rw [Host.run_bind, hcontent]
  cases Cfr.contentIn scope h classPath with
  | none => exact .of_changed (.refl h scratch.root)
  | some bytes =>
    have hwrite := (scratch.writes h (Cfr.classpathName ++ "/" ++ classPath) bytes).within hr
    have hextra := Cfr.changedWithin_extraClasspath (hwrite.reaches hr) scope classPath
    simp only [Host.run_bind]
    generalize (scratch.write (Cfr.classpathName ++ "/" ++ classPath) bytes).run h = written at *
    cases written.1 with
    | error f => exact .of_changed hwrite
    | ok target =>
      simp only [Host.run_bind]
      generalize (Cfr.extraClasspath scratch (.ofScope scope) classPath).run written.2 = found at *
      cases found.1 with
      | error f => exact .of_changed (hwrite.trans hextra)
      | ok extra => exact .of_run (hwrite.trans hextra) _

theorem JdCore.runsWithin_toolText (hr : h.Reaches scratch.root) (name : String) :
    tool.RunsWithin scratch.root h ((JdCore.toolText tool scope name scratch).run h).2 := by
  unfold JdCore.toolText
  simp only [Host.run_bind, StateT.run_get, pure]
  cases scope.load h name with
  | error e => exact .of_changed (.refl h scratch.root)
  | ok blob =>
    have hwrite := (scratch.writes h blob.id.classPath blob.bytes).within hr
    simp only [Host.run_bind]
    generalize (scratch.write blob.id.classPath blob.bytes).run h = written at *
    cases written.1 with
    | error f => exact .of_changed hwrite
    | ok target => exact .of_run hwrite _

theorem Procyon.runsWithin_toolText (hr : h.Reaches scratch.root) (name : String)
    (bytes : ByteArray) (settings : Procyon.Settings) : tool.RunsWithin scratch.root h
      ((Procyon.toolText tool name bytes settings scratch).run h).2 := by
  have hwrite := (scratch.writes h (name ++ classSuffix) bytes).within hr
  unfold Procyon.toolText
  simp only [Host.run_bind]
  generalize (scratch.write (name ++ classSuffix) bytes).run h = written at *
  cases written.1 with
  | error f => exact .of_changed hwrite
  | ok target => exact .of_run hwrite _

theorem Vineflower.runsWithin_runTool (hr : h.Reaches scratch.root) (source : Path)
    (bytes : ByteArray) (options : Vineflower.Options) : tool.RunsWithin scratch.root h
      ((Vineflower.runTool tool source bytes options scratch).run h).2 := by
  have hwrite := (scratch.writes h ("in/" ++ Vineflower.fileNameOf source) bytes).within hr
  have hout := Host.changedWithin_makeDirectories ⟨"out"⟩ (hwrite.reaches hr)
    (by decide) (by decide) ⟨rfl, List.prefix_rfl⟩
  unfold Vineflower.runTool
  simp only [Host.run_bind]
  generalize (scratch.write ("in/" ++ Vineflower.fileNameOf source) bytes).run h = written at *
  cases written.1 with
  | error f => exact .of_changed hwrite
  | ok target =>
    simp only [Host.run_bind]
    generalize (Host.makeDirectories (scratch.root.join ⟨"out"⟩)).run written.2 = made at *
    cases made.1 with
    | error e => exact .of_changed (hwrite.trans hout)
    | ok _ =>
      refine ⟨made.2, hwrite.trans hout,
        .inr ⟨Vineflower.arguments options target (scratch.root.join ⟨"out"⟩), ?_⟩⟩
      simp only [Host.run_bind]
      generalize (tool.run _).run made.2 = ran
      cases ran.1 with
      | error f => rfl
      | ok finished => rfl

/-! ## Engines over tools -/

/-- A decompilation is a run with a scratch directory, and what the engine makes of its outcome. -/
def IsScratchRun {α : Type} (x : HostM (Except DecompileError String)) (d : Descriptor)
    (label : String) (f : Scratch → HostM (Except Failure α)) (h : Host) : Prop :=
  ∃ finish : Except Failure α → Except DecompileError String,
    (∀ e, finish (.error e) = .error (d.failure e)) ∧
      x.run h = (finish ((Scratch.within label f).run h).1, ((Scratch.within label f).run h).2)

/-- What a decompilation by a tool does to the machine : its scratch directory is made, the machine
is changed within the directory until the tool is run, and the directory is removed. -/
inductive UsesScratch (tool : JarTool) (label : String) (h : Host) : Host → Prop
  | unmade {f : Failure} {h' : Host} : (Scratch.create label).run h = (.error f, h') →
      UsesScratch tool label h h'
  | made {s : Scratch} {g g' : Host} : (Scratch.create label).run h = (.ok s, g) →
      g.isDirectory s.root = true → tool.RunsWithin s.root g g' →
      UsesScratch tool label h (s.remove.run g').2

/-- A decompilation fails with the refusal of a path, and all it does to the machine is to make a
scratch directory and to remove it. -/
def IsRefused (x : HostM (Except DecompileError String)) (d : Descriptor) (label relative : String)
    (h : Host) : Prop :=
  ∃ f h', (Scratch.within label fun s =>
      (pure (.error (s.refusal relative)) : HostM (Except Failure String))).run h = (.error f, h') ∧
    x.run h = (.error (d.failure f), h')

theorem IsScratchRun.usesScratch {α : Type} {x : HostM (Except DecompileError String)}
    {d : Descriptor} {label : String} {f : Scratch → HostM (Except Failure α)}
    (hx : IsScratchRun x d label f h)
    (hf : ∀ s g, g.Reaches s.root → tool.RunsWithin s.root g ((f s).run g).2) :
    UsesScratch tool label h (x.run h).2 := by
  obtain ⟨finish, -, hrun⟩ := hx
  rw [hrun]
  unfold Scratch.within
  rw [Host.run_bind]
  rcases hmade : (Scratch.create label).run h with ⟨e | s, g⟩
  · exact .unmade hmade
  · have hdir := Scratch.isDirectory_of_create hmade
    exact .made hmade hdir (hf s g (Host.reaches_of_isDirectory hdir))

theorem IsScratchRun.isRefused {x : HostM (Except DecompileError String)} {d : Descriptor}
    {label relative : String} {f : Scratch → HostM (Except Failure String)}
    (hx : IsScratchRun x d label f h)
    (hf : ∀ s g, (f s).run g = (.error (s.refusal relative), g)) :
    IsRefused x d label relative h := by
  obtain ⟨finish, hfinish, hrun⟩ := hx
  have hsame : f = fun s => pure (.error (s.refusal relative)) := by
    funext s g
    exact hf s g
  obtain ⟨e, h', hfails⟩ : ∃ e h', (Scratch.within label fun s =>
      (pure (.error (s.refusal relative)) : HostM (Except Failure String))).run h =
        (.error e, h') := by
    unfold Scratch.within
    rw [Host.run_bind]
    rcases (Scratch.create label).run h with ⟨e | s, g⟩
    · exact ⟨e, g, rfl⟩
    · exact ⟨s.refusal relative, _, rfl⟩
  refine ⟨e, h', hfails, ?_⟩
  rw [hrun, hsame, hfails, hfinish]

section Engines

variable (tool : JarTool) (name : String) (bytes : ByteArray) (scope : Scope) (preserve : Bool)
  (h : Host)

theorem Cfr.isScratchRun (id : ClassId) :
    IsScratchRun ((Cfr.engine (Cfr.ofTool tool)).decompile id bytes scope preserve) Cfr.descriptor
      "cfr" (Cfr.toolText tool id.classPath (.ofScope (scope.primaryFirst id bytes)) Cfr.options)
      h := by
  refine ⟨fun outcome => outcome.casesOn (fun f => Cfr.finish preserve ⟨[], .error f⟩)
    fun text => Cfr.finish preserve ⟨[.text text], .ok ()⟩, fun _ => rfl, ?_⟩
  simp only [Cfr.engine, Cfr.ofTool, Host.run_bind]
  generalize (Scratch.within "cfr" _).run h = ran
  cases ran.1 with
  | error f => rfl
  | ok text => rfl

theorem JdCore.isScratchRun (id : ClassId) :
    IsScratchRun ((JdCore.engine (JdCore.ofTool tool)).decompile id bytes scope preserve)
      JdCore.descriptor "jd" (JdCore.toolText tool (scope.primaryFirst id bytes) id.text) h := by
  refine ⟨fun outcome => outcome.casesOn (fun f => JdCore.finish preserve ⟨[], .error f⟩)
    fun text => JdCore.finish preserve ⟨JdCore.replay text, .ok ()⟩, fun _ => rfl, ?_⟩
  simp only [JdCore.engine, JdCore.ofTool, Host.run_bind]
  generalize (Scratch.within "jd" _).run h = ran
  cases ran.1 with
  | error f => rfl
  | ok text => rfl

theorem Procyon.isScratchRun :
    IsScratchRun ((Procyon.engine (Procyon.ofTool tool)).decompile (.ofName name) bytes scope
        preserve) Procyon.descriptor "procyon"
      (Procyon.toolText tool (ClassId.ofName name).text bytes Procyon.settings) h := by
  have hload := (Askers.allGive_primaryFirst name bytes scope).tryLoad h ByteArray.empty
  refine ⟨Procyon.finish, fun _ => rfl, ?_⟩
  simp only [Askers.primaryFirst] at hload
  simp only [Procyon.engine, Procyon.ofTool, Host.run_bind, hload, if_true]
  generalize (Scratch.within "procyon" _).run h = ran
  rfl

theorem Vineflower.isScratchRun :
    IsScratchRun ((Vineflower.engine (Vineflower.ofTool tool)).decompile (.ofName name) bytes scope
        preserve) Vineflower.descriptor "vineflower"
      (Vineflower.runTool tool (Vineflower.sourcePath h (.ofName name)) bytes
        (Vineflower.options preserve)) h := by
  have hload := (Askers.allGive_primaryFirst name bytes scope).bytecode h h.temporary
  refine ⟨fun outcome => outcome.casesOn (fun f => Vineflower.finish preserve ⟨[], .error f⟩)
    fun report => Vineflower.finish preserve report, fun _ => rfl, ?_⟩
  simp only [Askers.primaryFirst] at hload
  have hsource : (Vineflower.sourcePath h (.ofName name)).text =
      (h.temporary.join ⟨(ClassId.ofName name).classPath⟩).text := rfl
  rw [← hsource] at hload
  simp only [Vineflower.engine, Vineflower.ofTool, Host.run_bind, StateT.run_get, pure, hload]
  generalize (Scratch.within "vineflower" _).run h = ran
  cases ran.1 with
  | error f => rfl
  | ok report => rfl

/-- An identifier that climbs before its last segment is refused by the three tools that are given
its class path. -/
theorem isRefused_of_climbs (hdots : ".." ∈ (Text.split '/' (ClassId.ofName name).text).dropLast) :
    IsRefused ((Cfr.engine (Cfr.ofTool tool)).decompile (.ofName name) bytes scope preserve)
        Cfr.descriptor "cfr" (Cfr.classpathName ++ "/" ++ (ClassId.ofName name).classPath) h ∧
      IsRefused ((JdCore.engine (JdCore.ofTool tool)).decompile (.ofName name) bytes scope preserve)
        JdCore.descriptor "jd" (ClassId.ofName name).classPath h ∧
      IsRefused ((Procyon.engine (Procyon.ofTool tool)).decompile (.ofName name) bytes scope
        preserve) Procyon.descriptor "procyon" (ClassId.ofName name).classPath h := by
  have hpath : ".." ∈ Text.split '/' (ClassId.ofName name).classPath :=
    Text.mem_split_append hdots classSuffix
  have hbelow : ".." ∈ Text.split '/' (Cfr.classpathName ++ "/" ++
      (ClassId.ofName name).classPath) := by
    rw [Text.split_slash]
    exact List.mem_append_right _ hpath
  have hgive := Askers.allGive_primaryFirst name bytes scope
  refine ⟨(Cfr.isScratchRun tool bytes scope preserve h _).isRefused fun s g => ?_,
    (JdCore.isScratchRun tool bytes scope preserve h _).isRefused fun s g => ?_,
    (Procyon.isScratchRun tool name bytes scope preserve h).isRefused fun s g => ?_⟩
  · have hcontent := hgive.content g
    simp only [Askers.primaryFirst] at hcontent
    simp only [Cfr.toolText, Host.run_bind, hcontent, Scratch.run_write_of_climbs hbelow]
    rfl
  · simp only [JdCore.toolText, Host.run_bind, StateT.run_get, pure, Scope.load_primaryFirst_self,
      Scratch.run_write_of_climbs hpath]
    rfl
  · have hrefused : (s.write ((ClassId.ofName name).text ++ classSuffix) bytes).run g = _ :=
      Scratch.run_write_of_climbs hpath
    simp only [Procyon.toolText, Host.run_bind, hrefused]
    rfl

/-- A scratch directory refuses a path exactly if a segment of it climbs, and then nothing is
changed; what is made or written otherwise lies within the directory. A decompilation by a tool
makes and writes nothing elsewhere before the tool is run, and an identifier that climbs is refused
before. -/
theorem scratch_writes_stay_within :
    (∀ (s : Scratch) (relative : String) (content : ByteArray), s.Writes h relative content) ∧
      (UsesScratch tool "cfr" h (((Cfr.engine (Cfr.ofTool tool)).decompile (.ofName name) bytes
          scope preserve).run h).2 ∧
        UsesScratch tool "jd" h (((JdCore.engine (JdCore.ofTool tool)).decompile (.ofName name)
          bytes scope preserve).run h).2 ∧
        UsesScratch tool "procyon" h (((Procyon.engine (Procyon.ofTool tool)).decompile
          (.ofName name) bytes scope preserve).run h).2 ∧
        UsesScratch tool "vineflower" h (((Vineflower.engine (Vineflower.ofTool tool)).decompile
          (.ofName name) bytes scope preserve).run h).2) ∧
      (".." ∈ (Text.split '/' (ClassId.ofName name).text).dropLast →
        IsRefused ((Cfr.engine (Cfr.ofTool tool)).decompile (.ofName name) bytes scope preserve)
            Cfr.descriptor "cfr" (Cfr.classpathName ++ "/" ++ (ClassId.ofName name).classPath) h ∧
          IsRefused ((JdCore.engine (JdCore.ofTool tool)).decompile (.ofName name) bytes scope
            preserve) JdCore.descriptor "jd" (ClassId.ofName name).classPath h ∧
          IsRefused ((Procyon.engine (Procyon.ofTool tool)).decompile (.ofName name) bytes scope
            preserve) Procyon.descriptor "procyon" (ClassId.ofName name).classPath h) := by
  refine ⟨fun s => s.writes h, ⟨?_, ?_, ?_, ?_⟩,
    isRefused_of_climbs tool name bytes scope preserve h⟩
  · exact (Cfr.isScratchRun tool bytes scope preserve h _).usesScratch fun s g hr =>
      Cfr.runsWithin_toolText hr _ _
  · exact (JdCore.isScratchRun tool bytes scope preserve h _).usesScratch fun s g hr =>
      JdCore.runsWithin_toolText hr _
  · exact (Procyon.isScratchRun tool name bytes scope preserve h).usesScratch fun s g hr =>
      Procyon.runsWithin_toolText hr _ _ _
  · exact (Vineflower.isScratchRun tool name bytes scope preserve h).usesScratch fun s g hr =>
      Vineflower.runsWithin_runTool hr _ _ _

end Engines

end Tools

/-- A machine with one directory. -/
def roomyHost : Host := { (default : Host) with disk := ⟨[(["tmp"], .directory)], []⟩ }

theorem isDirectory_roomyHost : roomyHost.isDirectory ⟨"/tmp"⟩ = true := by
  have hlookup : roomyHost.disk.lookup roomyHost.here true ⟨"/tmp"⟩ = .ok (["tmp"], .directory) :=
    Disk.lookup_of_leadsDirectly (by decide +kernel)
  rw [Host.isDirectory, Disk.isDirectory, hlookup]

/-- A class below a directory that stands is written within it, and one that climbs is refused. -/
theorem roomy_scratch_refuses_climbing_class :
    roomyHost.isDirectory ⟨"/tmp"⟩ = true ∧ ".." ∉ Text.split '/' "/a//./B.class" ∧
      roomyHost.ChangedWithin ⟨"/tmp"⟩
        (((Scratch.mk ⟨"/tmp"⟩).write "/a//./B.class" "x".toUTF8).run roomyHost).2 ∧
      ".." ∈ (Text.split '/' (ClassId.ofName "a/../B.class").text).dropLast ∧
      IsRefused ((Cfr.engine (Cfr.ofTool ⟨⟨"java"⟩, ⟨"cfr.jar"⟩, none⟩)).decompile
          (.ofName "a/../B.class") "x".toUTF8 .nothing true) Cfr.descriptor "cfr"
        (Cfr.classpathName ++ "/" ++ (ClassId.ofName "a/../B.class").classPath) roomyHost := by
  obtain ⟨hwrites, -, hrefused⟩ := scratch_writes_stay_within ⟨⟨"java"⟩, ⟨"cfr.jar"⟩, none⟩
    "a/../B.class" "x".toUTF8 .nothing true roomyHost
  have hdots : ".." ∈ (Text.split '/' (ClassId.ofName "a/../B.class").text).dropLast := by
    decide +kernel
  have hstays : ".." ∉ Text.split '/' "/a//./B.class" := by decide +kernel
  exact ⟨isDirectory_roomyHost, hstays, (hwrites ⟨⟨"/tmp"⟩⟩ _ _).within
    (Host.reaches_of_isDirectory isDirectory_roomyHost), hdots, (hrefused hdots).1⟩

end ClassViewer
