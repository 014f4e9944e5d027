import ClassViewer.Proofs.Disk.Still
import ClassViewer.Proofs.Rows

/-!
# The engine calls of a batch

A batch is decompiled in rounds, and a round calls an engine for every location whose class is found
(`Registry.engineCalls`). Nothing else that a batch does reaches the disk by itself : each location
begins with the disk of the beginning, and sees what the calls for the others have done to it. So
what every call leaves as it was (`Host.Still`) is as it was when the batch is done
(`Registry.still_decompileAll`).
-/

namespace ClassViewer

open Disk (Change)

/-! ## Machines on which some places are still -/

/-- On the disk of the machine the places are still, and so they were at every time of which the
machine has taken note. -/
structure Host.Still (P : Route → Prop) (d : Disk) (h : Host) : Prop where
  disk : d.Still P h.disk
  noted : ∀ m, h.meanwhile = some m → d.Still P m.noted
  own : ∀ m, h.meanwhile = some m → ∀ c ∈ m.own, c.Still P d
  others : ∀ m, h.meanwhile = some m → ∀ c ∈ m.others, c.Still P d

variable {P : Route → Prop} {d : Disk}

/-- At the beginning nothing was done to the disk, and others do nothing to the places. -/
theorem Host.still_beginBeside {h : Host} {others : List Change} (hx : d.Still P h.disk)
    (hothers : ∀ c ∈ others, c.Still P d) :
    (h.among (some (.start others h.disk))).Still P d where
  disk := hx
  noted m hm := by
    obtain rfl := Option.some.inj hm
    exact hx
  own m hm := by
    obtain rfl := Option.some.inj hm
    exact List.forall_mem_nil _
  others m hm := by
    obtain rfl := Option.some.inj hm
    exact hothers

/-- In the end the places are still, also on the disks between which anything was done. -/
theorem Host.Still.settle {h : Host} (hh : h.Still P d) :
    (∀ c ∈ (Host.settle.run h).1, c.Still P d) ∧ d.Still P (Host.settle.run h).2.disk := by
  have hsurroundings : d.Still P h.surroundings.noted ∧
      (∀ c ∈ h.surroundings.own, c.Still P d) ∧ ∀ c ∈ h.surroundings.others, c.Still P d := by
    unfold surroundings
    cases hm : h.meanwhile with
    | none => exact ⟨hh.disk, List.forall_mem_nil _, List.forall_mem_nil _⟩
    | some m => exact ⟨hh.noted m hm, hh.own m hm, hh.others m hm⟩
  obtain ⟨hnoted, hown, hothers⟩ := hsurroundings
  refine ⟨fun c hc => ?_, Disk.still_foldl_apply hothers hh.disk⟩
  rcases List.mem_cons.1 (List.mem_reverse.1 hc) with rfl | hc
  · exact ⟨hnoted, hh.disk⟩
  · exact hown c hc

/-! ## Engine calls -/

namespace Registry

variable (r : Registry) (o : Overrides)

/-- The machine behind the engine call for a location, if a class is found there. -/
def engineCall? (l : Location) (h : Host) : Option Host :=
  match l.subject h with
  | .error _ => none
  | .ok s => some ((((r.pick o).run h).1.decompile s.id s.bytes s.scope
      ((r.flagFor o).run h).1).run h).2

/-- The machines behind the engine calls of a round. -/
def engineCallsOfRound (begun : Disk) :
    List Change → List (Location × List Change) → Host → List Host
  | _, [], _ => []
  | earlier, (l, _) :: rest, h =>
    let others := Change.insertAll (rest.flatMap fun e => e.2.map Change.later) earlier
    let beside := (r.decompileBeside o others l).run { h with disk := begun }
    (r.engineCall? o l (h.onDisk begun (some (.start others begun)))).toList ++
      engineCallsOfRound begun (Change.insertAll beside.1.2 earlier) rest beside.2

/-- What is known of the locations behind a round. -/
def knownAfter (h : Host) (known : List (Location × List Change)) :
    List (Location × List Change) :=
  (known.map (·.1)).zip (((r.decompileRound o h.disk [] known).run h).1.map (·.2))

/-- Whether those behind others do in a round what the others have seen of them. -/
def isSettled (h : Host) (known : List (Location × List Change)) : Bool :=
  let done := ((r.decompileRound o h.disk [] known).run h).1.map (·.2)
  let last := (done.flatten.map (·.time)).foldl max 0
  decide (changesBehind done last = changesBehind (known.map (·.2)) last)

/-- What is known of the locations at the beginning of each round of a batch. -/
def rounds (h : Host) : Nat → List (Location × List Change) → List (List (Location × List Change))
  | 0, known => [known]
  | fuel + 1, known =>
    known :: if r.isSettled o h known then [] else rounds h fuel (r.knownAfter o h known)

/-- The machines behind the engine calls of a batch. -/
def engineCalls (ls : List Location) (h : Host) : List Host :=
  (r.rounds o h roundLimit (ls.map fun l => (l, []))).flatMap fun known =>
    r.engineCallsOfRound o h.disk [] known h

variable {r o}

theorem run_decompileRounds_zero (h : Host) (known : List (Location × List Change)) :
    ((r.decompileRounds o 0 known).run h).2 = ((r.decompileRound o h.disk [] known).run h).2 := by
  unfold decompileRounds
  rw [Host.run_get_bind]
  rcases (r.decompileRound o h.disk [] known).run h with ⟨round, after⟩
  simp only
  split <;> rfl

theorem run_decompileRounds_succ (h : Host) (fuel : Nat)
    (known : List (Location × List Change)) :
    ((r.decompileRounds o (fuel + 1) known).run h).2 =
      if r.isSettled o h known then ((r.decompileRound o h.disk [] known).run h).2
      else ((r.decompileRounds o fuel (r.knownAfter o h known)).run h).2 := by
  unfold isSettled knownAfter
  rw [decompileRounds, Host.run_get_bind]
  rcases (r.decompileRound o h.disk [] known).run h with ⟨round, after⟩
  simp only [decide_eq_true_eq]
  split <;> rfl

/-- A batch ends as one of its rounds. -/
theorem exists_round (h : Host) (fuel : Nat) (known : List (Location × List Change)) :
    ∃ known' ∈ r.rounds o h fuel known,
      ((r.decompileRounds o fuel known).run h).2 =
        ((r.decompileRound o h.disk [] known').run h).2 := by
  induction fuel generalizing known with
  | zero => exact ⟨known, List.mem_singleton_self _, run_decompileRounds_zero h known⟩
  | succ fuel ih =>
    rw [run_decompileRounds_succ, rounds]
    cases r.isSettled o h known with
    | true => exact ⟨known, List.mem_cons_self, rfl⟩
    | false =>
      obtain ⟨known', hmem, hend⟩ := ih (r.knownAfter o h known)
      exact ⟨known', List.mem_cons_of_mem _ hmem, hend⟩

/-- What holds of what is known at first, and is kept by every round, holds at the beginning of each
round. -/
theorem forall_mem_rounds {Q : List (Location × List Change) → Prop} (h : Host) (fuel : Nat)
    {known : List (Location × List Change)} (hknown : Q known)
    (hkept : ∀ k ∈ r.rounds o h fuel known, Q k → Q (r.knownAfter o h k)) :
    ∀ k ∈ r.rounds o h fuel known, Q k := by
  induction fuel generalizing known with
  | zero => simpa [rounds] using hknown
  | succ fuel ih =>
    rw [rounds] at hkept ⊢
    cases hsettled : r.isSettled o h known with
    | true => simpa using hknown
    | false =>
      simp only [hsettled, Bool.false_eq_true, if_false] at hkept
      obtain ⟨hfirst, hrest⟩ := List.forall_mem_cons.1 hkept
      exact List.forall_mem_cons.2 ⟨hknown, ih (hfirst hknown) hrest⟩

theorem exists_of_mem_engineCallsOfRound {begun : Disk} {earlier : List Change}
    {known : List (Location × List Change)} {h g : Host}
    (hg : g ∈ r.engineCallsOfRound o begun earlier known h) :
    ∃ e ∈ known, ∃ h', r.engineCall? o e.1 h' = some g := by
  induction known generalizing earlier h with
  | nil => cases hg
  | cons e known ih =>
    rw [engineCallsOfRound] at hg
    rcases List.mem_append.1 hg with hcall | hrest
    · exact ⟨e, List.mem_cons_self, _, Option.mem_toList.1 hcall⟩
    · obtain ⟨e', he', hcall⟩ := ih hrest
      exact ⟨e', List.mem_cons_of_mem _ he', hcall⟩

/-- Engines are called for the locations of the batch only. -/
theorem exists_of_mem_engineCalls {ls : List Location} {h g : Host}
    (hg : g ∈ r.engineCalls o ls h) : ∃ l ∈ ls, ∃ h', r.engineCall? o l h' = some g := by
  obtain ⟨known, hmem, hcall⟩ := List.mem_flatMap.1 hg
  obtain ⟨e, he, hcall⟩ := exists_of_mem_engineCallsOfRound hcall
  have hlocations : ∀ known ∈ r.rounds o h roundLimit (ls.map fun l => (l, [])),
      ∀ e ∈ known, e.1 ∈ ls := by
    refine forall_mem_rounds h _ ?_ fun known _ hknown e he => ?_
    · intro e he
      obtain ⟨l, hl, rfl⟩ := List.mem_map.1 he
      exact hl
    · obtain ⟨e', he', hsame⟩ := List.mem_map.1 (List.of_mem_zip he).1
      exact hsame ▸ hknown e' he'
  exact ⟨e.1, hlocations known hmem e he, hcall⟩

/-- Nothing but the engine call is done to the machine for a location. -/
theorem run_decompileRow (hstore : r.store.ReadsOnly) (l : Location) (h : Host) :
    ((r.decompileRow o l).run h).2 = (r.engineCall? o l h).getD h := by
  have hrow : ((r.decompileRow o l).run h).2 = ((r.tryDecompile l o).run h).2 := rfl
  rw [hrow, run_tryDecompile, engineCall?]
  cases l.subject h with
  | error err => rfl
  | ok s =>
    simp only [run_run hstore]
    rfl

/-- A location is begun beside others, and in the end everything that they do is seen. -/
theorem run_decompileBeside_eq (others : List Change) (l : Location) (h : Host) :
    (r.decompileBeside o others l).run h =
      let ran := (r.decompileRow o l).run (h.among (some (.start others h.disk)))
      ((ran.1, (Host.settle.run ran.2).1), (Host.settle.run ran.2).2) := rfl

variable (hstore : r.store.ReadsOnly)

include hstore

/-- If the places are still behind the engine call, they are so behind the location. -/
theorem still_decompileBeside {others : List Change} {l : Location} {h : Host}
    (hx : d.Still P h.disk) (hothers : ∀ c ∈ others, c.Still P d)
    (hcall : ∀ g ∈ r.engineCall? o l (h.among (some (.start others h.disk))), g.Still P d) :
    (∀ c ∈ ((r.decompileBeside o others l).run h).1.2, c.Still P d) ∧
      d.Still P ((r.decompileBeside o others l).run h).2.disk := by
  have hstart := Host.still_beginBeside hx hothers
  have hran : ((r.decompileRow o l).run (h.among (some (.start others h.disk)))).2.Still P d := by
    rw [run_decompileRow hstore]
    cases hanswer : r.engineCall? o l (h.among (some (.start others h.disk))) with
    | none => exact hstart
    | some g => exact hcall g hanswer
  rw [run_decompileBeside_eq]
  exact hran.settle

/-- If the places are still behind all engine calls of a round, they are so behind the round, and
nothing is done to them in it. -/
theorem still_decompileRound {begun : Disk} (hbegun : d.Still P begun) {earlier : List Change}
    (hearlier : ∀ c ∈ earlier, c.Still P d) {known : List (Location × List Change)}
    (hknown : ∀ e ∈ known, ∀ c ∈ e.2, c.Still P d) {h : Host} (hx : d.Still P h.disk)
    (hcalls : ∀ g ∈ r.engineCallsOfRound o begun earlier known h, g.Still P d) :
    (∀ e ∈ ((r.decompileRound o begun earlier known).run h).1, ∀ c ∈ e.2, c.Still P d) ∧
      d.Still P ((r.decompileRound o begun earlier known).run h).2.disk := by
  induction known generalizing earlier h with
  | nil => exact ⟨List.forall_mem_nil _, hx⟩
  | cons e known ih =>
    obtain ⟨l, own⟩ := e
    obtain ⟨-, hrest⟩ := List.forall_mem_cons.1 hknown
    have hlater : ∀ c ∈ known.flatMap fun e => e.2.map Change.later, c.Still P d := by
      intro c hc
      obtain ⟨e, he, hc⟩ := List.mem_flatMap.1 hc
      obtain ⟨c', hc', rfl⟩ := List.mem_map.1 hc
      exact ⟨(hrest e he c' hc').before, (hrest e he c' hc').after⟩
    have hothers := Change.forall_insertAll (fun _ _ => .merge) hlater hearlier
    rw [engineCallsOfRound] at hcalls
    obtain ⟨hcall, hcallsrest⟩ := List.forall_mem_append.1 hcalls
    obtain ⟨hown, hdisk⟩ := still_decompileBeside hstore (h := { h with disk := begun }) hbegun
      hothers fun g hg => hcall g (Option.mem_toList.2 hg)
    have hnext := Change.forall_insertAll (fun _ _ => .merge) hown hearlier
    obtain ⟨hrows, hend⟩ := ih hnext hrest hdisk hcallsrest
    exact ⟨List.forall_mem_cons.2 ⟨hown, hrows⟩, hend⟩

/-- If the places are still behind every engine call of a batch, they are so behind the batch. -/
theorem still_decompileAll (ls : List Location) {h : Host} (hx : d.Still P h.disk)
    (hcalls : ∀ g ∈ r.engineCalls o ls h, g.Still P d) :
    d.Still P ((r.decompileAll o ls).run h).2.disk := by
  have hround {known : List (Location × List Change)}
      (hmem : known ∈ r.rounds o h roundLimit (ls.map fun l => (l, [])))
      (hknown : ∀ e ∈ known, ∀ c ∈ e.2, c.Still P d) :=
    still_decompileRound hstore hx (List.forall_mem_nil _) hknown hx fun g hg =>
      hcalls g (List.mem_flatMap.2 ⟨known, hmem, hg⟩)
  have hknown : ∀ known ∈ r.rounds o h roundLimit (ls.map fun l => (l, [])),
      ∀ e ∈ known, ∀ c ∈ e.2, c.Still P d := by
    refine forall_mem_rounds h _ ?_ fun known hmem hknown e he => ?_
    · intro e he c hc
      obtain ⟨l, -, rfl⟩ := List.mem_map.1 he
      cases hc
    obtain ⟨row, hrow, hsame⟩ := List.mem_map.1 (List.of_mem_zip he).2
    exact hsame ▸ (hround hmem hknown).1 row hrow
  obtain ⟨known, hmem, hend⟩ := r.exists_round (o := o) h roundLimit (ls.map fun l => (l, []))
  rw [decompileAll, hend]
  exact (hround hmem (hknown known hmem)).2

end Registry

end ClassViewer
