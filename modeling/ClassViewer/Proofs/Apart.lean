import ClassViewer.CommandLine.Places
import ClassViewer.Proofs.EngineCalls

/-!
# Engines and open databases

A tool changes the disk, but neither which databases the process holds open, with what they contain,
nor the directory it works in (`Host.Apart`). Every operation on the disk is of that kind, and so is
what is put together from such operations; so are the engines of the program
(`isApart_standardRegistry`), and a batch over them (`Registry.apart_decompileAll`).
-/

namespace ClassViewer

namespace Host

/-- A computation leaves the open databases and the directory of the process as they are. -/
def Apart {α : Type} (x : HostM α) : Prop :=
  ∀ h, (x.run h).2.databases = h.databases ∧ (x.run h).2.here = h.here

namespace Apart

variable {α β : Type} {p : Path} {program : Path} {args : List String} {bytes : ByteArray}

theorem pure (a : α) : Apart (Pure.pure a : HostM α) := fun _ => ⟨rfl, rfl⟩

theorem bind {x : HostM α} {f : α → HostM β} (hx : Apart x) (hf : ∀ a, Apart (f a)) :
    Apart (x >>= f) := by
  intro h
  rw [run_bind]
  exact ⟨(hf _ _).1.trans (hx h).1, (hf _ _).2.trans (hx h).2⟩

theorem ite {c : Prop} [Decidable c] {x y : HostM α} (hx : Apart x) (hy : Apart y) :
    Apart (if c then x else y) := by
  split
  · exact hx
  · exact hy

/-- A computation that begins with a look at the machine. -/
theorem asking {f : Host → HostM α} (hf : ∀ h, Apart (f h)) :
    Apart ((MonadState.get : HostM Host) >>= f) :=
  fun h => hf h h

/-! ## The disk -/

theorem change (f : Disk → Route → Except IoError Disk) : Apart (Host.change f) := by
  intro h
  unfold Host.change
  rw [run_get_bind]
  cases f h.disk h.here with
  | ok d => exact ⟨rfl, rfl⟩
  | error e => exact ⟨rfl, rfl⟩

theorem write : Apart (Host.write p bytes) := by
  intro h
  unfold Host.write
  rw [run_get_bind]
  split
  · exact ⟨rfl, rfl⟩
  · exact change _ h

theorem makeDirectories : Apart (Host.makeDirectories p) := fun _ => ⟨rfl, rfl⟩

/-- A file is written once the directory above it was made, or was not. -/
theorem writeBelow {β : Type} (p : Path) (bytes : ByteArray) (done : β) (report : IoError → Failure)
    (above : Except IoError Unit) :
    Apart (match above with
      | .error e => (return .error (.ofIo e) : HostM (Except Failure β))
      | .ok () => do
        match ← Host.write p bytes with
        | .ok () => return .ok done
        | .error e => return .error (report e)) := by
  cases above with
  | error e => exact pure _
  | ok _ =>
    refine bind write fun written => ?_
    cases written <;> exact pure _

theorem catchUp : Apart Host.catchUp := fun _ => ⟨rfl, rfl⟩

theorem execute : Apart (Host.execute program args) := by
  intro h
  obtain ⟨e, hrun⟩ | ⟨finished, d, m, hrun⟩ := run_execute h program args
  · rw [hrun]
    exact ⟨rfl, rfl⟩
  · rw [hrun]
    exact ⟨rfl, rfl⟩

theorem executeInPlace : Apart (Host.executeInPlace program args) := by
  unfold Host.executeInPlace
  refine bind execute fun ran => ?_
  cases ran with
  | error e => exact pure _
  | ok finished => exact fun _ => ⟨rfl, rfl⟩

end Apart

end Host

open Host (Apart)

/-! ## Jars and scratch directories -/

namespace JarTool

variable (t : JarTool)

theorem apart_makeRoom (target : Path) : Apart (makeRoom target) := by
  unfold makeRoom
  split
  · exact .pure _
  · refine .bind .makeDirectories fun made => ?_
    cases made <;> exact .pure _

theorem apart_install (target : Path) (url : String) : Apart (install target url) := by
  unfold install
  refine .bind (apart_makeRoom target) fun room => ?_
  cases room with
  | error f => exact .pure _
  | ok _ =>
    refine .bind .executeInPlace fun ran => ?_
    cases ran with
    | error e => exact .pure _
    | ok status => exact .ite (.pure _) (.bind (.change _) fun _ => .pure _)

theorem apart_run (args : List String) : Apart (t.run args) := by
  have hensure : Apart t.ensure := by
    unfold ensure
    refine .asking fun h => .ite (.pure _) ?_
    split
    · exact apart_install _ _
    · exact .pure _
  unfold run
  refine .bind hensure fun ensured => ?_
  cases ensured with
  | error f => exact .pure _
  | ok _ =>
    refine .bind .execute fun ran => ?_
    cases ran <;> exact .pure _

theorem apart_runForText (tool : String) (args : List String) : Apart (t.runForText tool args) :=
  .bind (t.apart_run args) fun _ => .pure _

end JarTool

namespace Scratch

variable {α : Type}

theorem apart_write (s : Scratch) (relative : String) (bytes : ByteArray) :
    Apart (s.write relative bytes) := by
  unfold write
  split
  · exact .pure _
  · rename_i p _
    cases p.parent? with
    | some above => exact .bind .makeDirectories (.writeBelow p bytes p _)
    | none => exact .writeBelow p bytes p _ (.ok ())

theorem apart_create (label : String) : Apart (create label) := by
  intro h
  unfold create
  rw [Host.run_get_bind, Host.run_bind]
  refine Apart.bind .makeDirectories (fun made => ?_) { h with scratchCount := h.scratchCount + 1 }
  cases made <;> exact .pure _

theorem apart_within (label : String) {f : Scratch → HostM (Except Failure α)}
    (hf : ∀ s, Apart (f s)) : Apart (within label f) := by
  unfold within
  refine .bind (apart_create label) fun made => ?_
  cases made with
  | error e => exact .pure _
  | ok s =>
    have hremove : Apart s.remove := .bind (.change _) fun _ => .pure _
    exact .bind (hf s) fun _ => .bind hremove fun _ => .pure _

end Scratch

/-! ## Engines -/

/-- An engine keeps apart from the open databases. -/
def Engine.IsApart (e : Engine) : Prop :=
  ∀ id bytes scope preserve, Apart (e.decompile id bytes scope preserve)

section Engines

variable (tool : JarTool)

theorem Cfr.apart_writeOthers (scratch : Scratch) (scope : Scope) (classPath : String)
    (paths : List String) : Apart (writeOthers scratch (.ofScope scope) classPath paths) := by
  induction paths with
  | nil => exact .pure _
  | cons path paths ih =>
    unfold writeOthers
    refine .ite ih (.bind (.asking fun _ => .pure _) fun content => ?_)
    cases content with
    | none => exact ih
    | some bytes =>
      refine .bind (scratch.apart_write _ _) fun written => ?_
      cases written with
      | error f => exact .pure _
      | ok _ => exact ih

theorem Cfr.apart_toolText (classPath : String) (scope : Scope) (options : Options)
    (scratch : Scratch) : Apart (toolText tool classPath (.ofScope scope) options scratch) := by
  have hextra : Apart (extraClasspath scratch (.ofScope scope) classPath) := by
    unfold extraClasspath
    split
    · exact .pure _
    · refine .bind (.asking fun _ => .pure _) fun paths =>
        .bind (apart_writeOthers scratch scope classPath paths) fun written => ?_
      cases written <;> exact .pure _
  unfold toolText
  refine .bind (.asking fun _ => .pure _) fun content => ?_
  cases content with
  | none => exact .pure _
  | some bytes =>
    refine .bind (scratch.apart_write _ _) fun written => ?_
    cases written with
    | error f => exact .pure _
    | ok target =>
      refine .bind hextra fun extra => ?_
      cases extra with
      | error f => exact .pure _
      | ok extra => exact tool.apart_runForText _ _

theorem Cfr.isApart_engine : (engine (ofTool tool)).IsApart := by
  intro id bytes scope preserve
  refine .bind (.bind (Scratch.apart_within _ fun scratch => apart_toolText tool _ _ _ scratch)
    fun text => ?_) fun _ => .pure _
  cases text <;> exact .pure _

theorem JdCore.isApart_engine : (engine (ofTool tool)).IsApart := by
  have htext (scope : Scope) (name : String) (scratch : Scratch) :
      Apart (toolText tool scope name scratch) := by
    unfold toolText
    refine .asking fun h => ?_
    split
    · exact .pure _
    · refine .bind (scratch.apart_write _ _) fun written => ?_
      cases written with
      | error f => exact .pure _
      | ok target => exact tool.apart_runForText _ _
  intro id bytes scope preserve
  refine .bind (.bind (Scratch.apart_within _ fun scratch => htext _ _ scratch)
    fun text => ?_) fun _ => .pure _
  cases text <;> exact .pure _

theorem Procyon.isApart_engine : (engine (ofTool tool)).IsApart := by
  have htext (name : String) (bytes : ByteArray) (settings : Settings) (scratch : Scratch) :
      Apart (toolText tool name bytes settings scratch) := by
    unfold toolText
    refine .bind (scratch.apart_write _ _) fun written => ?_
    cases written with
    | error f => exact .pure _
    | ok target => exact tool.apart_runForText _ _
  intro id bytes scope preserve
  refine .bind (.bind (.asking fun _ => .pure _) fun found => .ite ?_ (.pure _)) fun _ => .pure _
  exact Scratch.apart_within _ fun scratch => htext _ _ _ scratch

theorem Vineflower.isApart_engine : (engine (ofTool tool)).IsApart := by
  have hrun (source : Path) (bytes : ByteArray) (options : Options) (scratch : Scratch) :
      Apart (runTool tool source bytes options scratch) := by
    unfold runTool
    refine .bind (scratch.apart_write _ _) fun written => ?_
    cases written with
    | error f => exact .pure _
    | ok target =>
      refine .bind .makeDirectories fun made => ?_
      cases made with
      | error e => exact .pure _
      | ok _ =>
        refine .bind (tool.apart_run _) fun ran => ?_
        cases ran with
        | error f => exact .pure _
        | ok finished => exact .asking fun _ => .pure _
  have hbytes (scope : Scope) (primary : ClassId) (path : String) :
      Apart ((Provider.ofScope scope primary).bytecode path) := by
    refine .asking fun h => ?_
    split <;> exact .pure _
  intro id bytes scope preserve
  refine .asking fun h => .bind (.bind (hbytes _ _ _) fun found => ?_) fun _ => .pure _
  split
  · exact .pure _
  · exact .pure _
  · refine .bind (Scratch.apart_within _ fun scratch => hrun _ _ _ scratch) fun ran => ?_
    cases ran <;> exact .pure _

end Engines

open CommandLine in
theorem engines_standardRegistry (store : Store) (t : ToolPaths) :
    (standardRegistry store t).engines = [Cfr.engine (Cfr.ofTool ⟨t.java, t.cfr, some cfrUrl⟩),
      JdCore.engine (JdCore.ofTool ⟨t.java, t.jd, none⟩),
      Procyon.engine (Procyon.ofTool ⟨t.java, t.procyon, some procyonUrl⟩),
      Vineflower.engine (Vineflower.ofTool ⟨t.java, t.vineflower, some vineflowerUrl⟩)] :=
  rfl

open CommandLine in
theorem isApart_standardRegistry (store : Store) (t : ToolPaths) :
    ∀ e ∈ (standardRegistry store t).engines, e.IsApart := by
  intro e he
  simp only [engines_standardRegistry, List.mem_cons, List.not_mem_nil, or_false] at he
  rcases he with rfl | rfl | rfl | rfl
  · exact Cfr.isApart_engine _
  · exact JdCore.isApart_engine _
  · exact Procyon.isApart_engine _
  · exact Vineflower.isApart_engine _

/-! ## Batches -/

namespace Registry

variable {r : Registry} (hstore : r.store.ReadsOnly) (hengines : ∀ e ∈ r.engines, e.IsApart)
  (o : Overrides)

include hstore hengines

theorem apart_decompileRow (l : Location) : Apart (r.decompileRow o l) := by
  have htry : Apart (r.tryDecompile l o) := by
    intro h
    rw [run_tryDecompile]
    cases l.subject h with
    | error err => exact ⟨rfl, rfl⟩
    | ok s =>
      simp only [run_run hstore]
      exact hengines _ (pick_mem o h) _ _ _ _ h
  exact .bind htry fun _ => .pure _

theorem apart_decompileRound (begun : Disk) (earlier : List Disk.Change)
    (known : List (Location × List Disk.Change)) :
    Apart (r.decompileRound o begun earlier known) := by
  have hbeside (others : List Disk.Change) (l : Location) :
      Apart (r.decompileBeside o others l) :=
    .bind (fun _ => ⟨rfl, rfl⟩) fun _ => .bind (apart_decompileRow hstore hengines o l) fun _ =>
      .bind (fun _ => ⟨rfl, rfl⟩) fun _ => .pure _
  induction known generalizing earlier with
  | nil => exact .pure _
  | cons e known ih =>
    exact .bind (fun _ => ⟨rfl, rfl⟩) fun _ => .bind (hbeside _ _) fun _ =>
      .bind (ih _) fun _ => .pure _

/-- A batch leaves the open databases and the directory of the process as they are. -/
theorem apart_decompileAll (ls : List Location) : Apart (r.decompileAll o ls) := by
  intro h
  obtain ⟨known, -, hend⟩ := exists_round (r := r) (o := o) h roundLimit (ls.map fun l => (l, []))
  rw [decompileAll, hend]
  exact apart_decompileRound hstore hengines o h.disk [] known h

end Registry

end ClassViewer
