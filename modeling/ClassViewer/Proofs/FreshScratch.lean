import ClassViewer.Proofs.Disk.Filled
import ClassViewer.Proofs.Scratch

/-!
# Writing to a fresh scratch directory

Nothing lies in a scratch directory when it is made, and so it is filled by what is written to it
alone. A file that was written is found under its path with its bytes, and whatever else was there
is as it was (`Scratch.wrote_of_run`). So what a path gives is changed only by a file that is
written to the same place (`Scratch.Wrote.gives_of_gives`).
-/

namespace ClassViewer

open Disk (steps Fresh Filled)

/-- The machine gives those bytes for a path, from a place of the disk. -/
def Host.Gives (g : Host) (p : Path) (place : Route) (bytes : ByteArray) : Prop :=
  ∃ runners, g.disk.lookup g.here true p = .ok (place, .file bytes runners)

theorem Host.Gives.read {g : Host} {p : Path} {place : Route} {bytes : ByteArray}
    (h : g.Gives p place bytes) : g.read p = .ok bytes := by
  obtain ⟨runners, hl⟩ := h
  rw [Host.read, Disk.read, hl]

/-- A file is made where the path leads to a free name. -/
theorem Host.run_write_of_vacant {g : Host} {p : Path} {r : Route} {n : String}
    (hfree : ∀ ending, g.disk.locate g.here ending p = .ok (.vacant r n)) (bytes : ByteArray) :
    (Host.write p bytes).run g =
      (.ok (), { g with disk := g.disk.put (r ++ [n]) (.file bytes .nobody) }) := by
  refine Host.run_write_of_ok (fun r device hl => ?_) (by rw [Disk.write, hfree])
  rw [Disk.lookup_eq_ok_iff, hfree] at hl
  cases hl

/-- A file is replaced where the path leads to one. -/
theorem Host.run_write_of_found {g : Host} {p : Path} {r : Route} {old : ByteArray}
    {runners : Runners}
    (hfound : ∀ ending, g.disk.locate g.here ending p = .ok (.found r (.file old runners)))
    (bytes : ByteArray) : (Host.write p bytes).run g =
      (.ok (), { g with disk := g.disk.alter r (.file bytes runners) }) := by
  refine Host.run_write_of_ok (fun r device hl => ?_) (by rw [Disk.write, hfound])
  rw [Disk.lookup_eq_ok_iff, hfound] at hl
  cases hl

theorem Host.exists_lookup_of_isDirectory {g : Host} {p : Path} (h : g.isDirectory p = true) :
    ∃ r, g.disk.lookup g.here true p = .ok (r, .directory) := by
  unfold Host.isDirectory Disk.isDirectory at h
  split at h
  · rename_i r hl
    exact ⟨r, hl⟩
  · cases h

/-! ## Files in the directory -/

namespace Scratch

variable {s : Scratch} {g g' : Host} {root place : Route} {ground : Disk} {relative : String}
  {bytes b : ByteArray} {p : Path}

/-- What writing a file to a scratch directory has done to the machine. -/
structure Wrote (s : Scratch) (root : Route) (ground : Disk) (relative : String) (bytes : ByteArray)
    (g g' : Host) : Prop where
  here : g'.here = g.here
  filled : Filled root ground g'.disk
  gives : g'.Gives (s.target relative) (root ++ (inner relative).trail) bytes
  keeps : g.disk.Keeps g'.disk
  others : ∀ r i, r ≠ root ++ (inner relative).trail → g.disk.item? r = some i →
    g'.disk.item? r = some i

/-- Afterwards a path gives the new bytes if it leads to the same place, and else what it gave. -/
theorem Wrote.gives_of_gives (hw : s.Wrote root ground relative bytes g g')
    (hg : g.Gives p place b) :
    g'.Gives p place (if place = root ++ (inner relative).trail then bytes else b) := by
  obtain ⟨runners, hl⟩ := hg
  by_cases hplace : place = root ++ (inner relative).trail
  · obtain ⟨runners', hnew⟩ := hw.gives
    have hitem := Disk.item?_of_lookup hnew (by simp)
    rw [← hplace] at hitem
    rw [if_pos hplace]
    refine ⟨runners', ?_⟩
    rw [hw.here]
    exact Disk.lookup_of_keeps hw.keeps hl hitem
  · have hitem := Disk.item?_of_lookup hl (by simp)
    rw [if_neg hplace]
    refine ⟨runners, ?_⟩
    rw [hw.here]
    exact Disk.lookup_of_keeps hw.keeps hl (hw.others _ _ hplace hitem)

theorem run_makeAbove (g : Host) (p : Path) : ∃ outcome, ∃ d,
    (makeAbove p).run g = (outcome, { g with disk := d }) ∧
      (d = g.disk ∨ ∃ q, d = (g.disk.makeDirectories g.here q).2) := by
  unfold makeAbove
  cases p.parent? with
  | none => exact ⟨.ok (), g.disk, rfl, .inl rfl⟩
  | some above => exact ⟨_, _, Host.run_makeDirectories g above, .inr ⟨above, rfl⟩⟩

/-- A file is written once the directory above it is there. -/
theorem run_write_of_above {above : Path} {d : Disk} (hdots : ".." ∉ Text.split '/' relative)
    (habove : (s.target relative).parent? = some above)
    (hmade : g.disk.makeDirectories g.here above = (.ok (), d))
    (hwritten : (Host.write (s.target relative) bytes).run { g with disk := d } = (.ok (), g')) :
    (s.write relative bytes).run g = (.ok (s.target relative), g') := by
  have hroom : (makeAbove (s.target relative)).run g = (.ok (), { g with disk := d }) := by
    rw [makeAbove, habove]
    exact (Host.run_makeDirectories g above).trans (by rw [hmade])
  rw [run_write_of_stays hdots, hroom]
  simp only [hwritten]

theorem eq_target_of_run (hrun : (s.write relative bytes).run g = (.ok p, g')) :
    p = s.target relative := by
  have hwrites := s.writes g relative bytes
  by_cases hdots : ".." ∈ Text.split '/' relative
  · rw [hwrites.refused hdots] at hrun
    cases hrun
  · have haccepted := (hwrites.accepted hdots).2
    rw [hrun] at haccepted
    rcases haccepted with hp | ⟨f, hf, -⟩
    · exact Except.ok.inj hp
    · cases hf

/-- A file that was written to a fresh directory is where its segments say. -/
theorem wrote_of_run (hroot : ground.lookup g.here true s.root = .ok (root, .directory))
    (hfresh : Fresh root ground) (hd : Filled root ground g.disk)
    (htrail : (inner relative).trail ≠ [])
    (hrun : (s.write relative bytes).run g = (.ok p, g')) :
    s.Wrote root ground relative bytes g g' := by
  have hdots : ".." ∉ Text.split '/' relative := by
    intro hdots
    rw [run_write_of_climbs hdots] at hrun
    cases hrun
  have hinner : ".." ∉ steps (inner relative).text := fun hc => hdots (dots_mem_steps_inner.1 hc)
  rw [run_write_of_stays hdots] at hrun
  obtain ⟨outcome, d, hmade, habove⟩ := run_makeAbove g (s.target relative)
  have hfilled : Filled root ground d ∧ g.disk.Extends d := by
    rcases habove with rfl | ⟨q, rfl⟩
    · exact ⟨hd, .refl _⟩
    · exact ⟨hd.makeDirectories g.here q, Disk.extends_makeDirectories _ _ _⟩
  rw [hmade] at hrun
  cases outcome with
  | error e => cases hrun
  | ok _ =>
    simp only at hrun
    rcases hwritten : (Host.write (s.target relative) bytes).run { g with disk := d } with
      ⟨e | _, g''⟩
    · rw [hwritten] at hrun
      cases hrun
    · rw [hwritten] at hrun
      obtain ⟨-, rfl⟩ := Prod.mk.inj hrun
      have hstream : ∀ r n, d.lookup g.here true (s.target relative) ≠
          .ok (r, .device (.stream n)) := by
        intro r n hl
        obtain ⟨-, hitem⟩ := hfilled.1.route_of_locate hroot (isAbsolute_inner relative) hinner
          htrail (Disk.lookup_eq_ok_iff.1 hl)
        simpa using hitem rfl
      obtain ⟨d', hw, rfl⟩ := Host.exists_write_of_run (g := { g with disk := d }) hstream hwritten
      obtain ⟨hto, hfilled'⟩ := hfilled.1.write hfresh hroot (isAbsolute_inner relative) hinner
        htrail hw
      exact ⟨rfl, hfilled', hto.lookup, hfilled.2.keeps.trans hto.keeps,
        fun r i hr hi => (hto.others r hr).trans (hfilled.2 r i hi)⟩

end Scratch

end ClassViewer
