import ClassViewer.Tool.Execute

/-!
# Computations on the machine

How a computation of several parts runs (`Host.run_bind`), and what the parts that change the disk
do to the machine.
-/

namespace ClassViewer.Host

theorem run_bind {α β : Type} (x : HostM α) (f : α → HostM β) (h : Host) :
    (x >>= f).run h = (f (x.run h).1).run (x.run h).2 := rfl

theorem run_get_bind {α : Type} (f : Host → HostM α) (h : Host) :
    ((get : HostM Host) >>= f).run h = (f h).run h := rfl

theorem run_makeDirectories (h : Host) (p : Path) : (Host.makeDirectories p).run h =
    ((h.disk.makeDirectories h.here p).1,
      { h with disk := (h.disk.makeDirectories h.here p).2 }) := rfl

/-- A file is removed from the disk, or the machine stays as it is. -/
theorem run_removeFile (h : Host) (p : Path) :
    (∃ d, h.disk.removeFile h.here p = .ok d ∧
      (Host.removeFile p).run h = (.ok (), { h with disk := d })) ∨
    ∃ e, h.disk.removeFile h.here p = .error e ∧ (Host.removeFile p).run h = (.error e, h) := by
  unfold Host.removeFile change
  simp only [run_get_bind]
  cases h.disk.removeFile h.here p with
  | ok d => exact .inl ⟨d, rfl, rfl⟩
  | error e => exact .inr ⟨e, rfl, rfl⟩

/-- What is written to no special file is written to the disk. -/
theorem run_write_of_ok {h : Host} {q : Path} {bytes : ByteArray} {y : Disk}
    (hplain : ∀ r device, h.disk.lookup h.here true q ≠ .ok (r, .device device))
    (hw : h.disk.write h.here q bytes = .ok y) :
    (Host.write q bytes).run h = (.ok (), { h with disk := y }) := by
  unfold Host.write
  rw [run_get_bind]
  split
  · rename_i hl
    exact absurd hl (hplain _ _)
  · unfold change
    rw [run_get_bind]
    simp only [hw]
    rfl

/-- A file that was written to no stream was written to the disk. -/
theorem exists_write_of_run {g g' : Host} {p : Path} {bytes : ByteArray}
    (hstream : ∀ r n, g.disk.lookup g.here true p ≠ .ok (r, .device (.stream n)))
    (hrun : (Host.write p bytes).run g = (.ok (), g')) :
    ∃ d, g.disk.write g.here p bytes = .ok d ∧ g' = { g with disk := d } := by
  unfold Host.write at hrun
  rw [run_get_bind] at hrun
  split at hrun
  · rename_i r n hl
    exact absurd hl (hstream r n)
  · unfold change at hrun
    rw [run_get_bind] at hrun
    dsimp only at hrun
    cases hw : g.disk.write g.here p bytes with
    | error e =>
      rw [hw] at hrun
      cases hrun
    | ok d =>
      rw [hw] at hrun
      exact ⟨d, rfl, (Prod.mk.inj hrun).2.symm⟩

/-- A program of which nothing comes has changed nothing, and one that has ended has only changed
the disk. -/
theorem run_execute (h : Host) (program : Path) (args : List String) :
    (∃ e, (execute program args).run h = (.error e, h)) ∨
    ∃ finished d m, (execute program args).run h =
      (.ok finished, (catchUp.run h).2.withDisk d m) := by
  unfold execute
  rw [run_get_bind]
  cases checkArguments h.environment (program.text :: args) with
  | error e => exact .inl ⟨e, rfl⟩
  | ok _ =>
    simp only
    cases h.programs.start h.disk h.here h.searchPath program.text args with
    | error e => exact .inl ⟨e, rfl⟩
    | ok started =>
      simp only
      rw [run_bind, run_get_bind]
      cases started (catchUp.run h).2.disk (catchUp.run h).2.surroundings h.here h.environment
        h.process with
      | none => exact .inl ⟨_, rfl⟩
      | some ran => exact .inr ⟨ran.1, ran.2.1, ran.2.2, rfl⟩

/-- A program that has ended has left the process in its directory. -/
theorem run_executeInPlace (h : Host) (program : Path) (args : List String) :
    (∃ e, (executeInPlace program args).run h = (.error e, h)) ∨
    ∃ status h', (executeInPlace program args).run h = (.ok status, h') ∧ h'.here = h.here := by
  unfold executeInPlace
  rw [run_bind]
  obtain ⟨e, hrun⟩ | ⟨finished, d, m, hrun⟩ := run_execute h program args
  · rw [hrun]
    exact .inl ⟨e, rfl⟩
  · rw [hrun]
    exact .inr ⟨_, _, rfl, rfl⟩

/-- Where nobody else works on the disk, a program that is started runs on the machine as it is. -/
theorem run_execute_of_start {h : Host} {program : Path} {args : List String} {started : Started}
    {finished : Finished} {d : Disk} {m : Disk.Meanwhile} (halone : h.meanwhile = none)
    (hargs : checkArguments h.environment (program.text :: args) = .ok ())
    (hstart : h.programs.start h.disk h.here h.searchPath program.text args = .ok started)
    (hran : started h.disk (.start [] h.disk) h.here h.environment h.process =
      some (finished, d, m)) :
    (execute program args).run h = (.ok finished, { h with disk := d }) := by
  have hcaught : catchUp.run h = ((), h) := by
    obtain ⟨disk, meanwhile⟩ := h
    obtain rfl : meanwhile = none := halone
    rfl
  have hsurroundings : h.surroundings = .start [] h.disk := by
    rw [surroundings, halone]
    rfl
  have hwith : h.withDisk d m = { h with disk := d } := by
    rw [withDisk, halone]
    rfl
  unfold execute
  rw [run_get_bind]
  simp only [hargs, hstart]
  rw [run_bind, hcaught, run_get_bind, hsurroundings, hran, ← hwith]
  rfl

end ClassViewer.Host
