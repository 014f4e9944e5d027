import ClassViewer.Proofs.Disk.Place
import ClassViewer.Tool.Jar

/-!
# Calls that run one jar

Several calls may run one jar at the same time, and each sees to it by itself that the jar is there.
`Step` says what a call can do next, given the disk as the others have left it, and `Reaches` where
the calls can come to. Calls that look for the jar only while none of them downloads it are orderly
at all times (`Orderly.of_reaches`), and then `java` is only started on a complete jar
(`Settled.isComplete`). Where they may look at any time, two calls are enough for a jar that is
still being written (`reaches_written`) or was removed again (`reaches_removed`).
-/

namespace ClassViewer.JarTool

/-! ## Steps -/

/-- Where a call that runs the jar stands. -/
inductive Phase where
  /-- It has not looked for the jar yet. -/
  | asking
  /-- The jar was missing, and room for it is made next. -/
  | missing
  /-- There is room for the jar, and its download has not opened it yet. -/
  | fetching
  /-- Its download has opened the jar and writes it. -/
  | writing
  /-- Its download has failed, and what that has left is not removed yet. -/
  | failed
  /-- The jar is taken to be there, and `java` is started next. -/
  | ready
  /-- It has started `java`. -/
  | started
  /-- It has ended with an error. -/
  | over
  deriving DecidableEq

/-- Whether a download is under way, from when the jar was missing to the end of the clean-up. -/
def Phase.isBusy : Phase → Bool
  | missing => true
  | fetching => true
  | writing => true
  | failed => true
  | _ => false

/-- Whether the jar was taken to be there. -/
def Phase.hasJar : Phase → Bool
  | ready => true
  | started => true
  | _ => false

/-- Calls that run one jar at the same time. -/
structure Calls where
  disk : Disk
  /-- Where each of them stands. -/
  phases : List Phase
  /-- The call whose download was the last to open the jar. -/
  opener : Option Nat
  /-- Whether a failed call has removed the jar since then. -/
  removed : Bool

namespace Calls

/-- Calls that are about to begin. -/
def start (d : Disk) (count : Nat) : Calls := ⟨d, List.replicate count .asking, none, false⟩

/-- Where the call with a number stands. -/
def phase? (w : Calls) (i : Nat) : Option Phase := w.phases[i]?

/-- The calls once one of them has come to another phase. -/
def moved (w : Calls) (i : Nat) (p : Phase) : Calls := { w with phases := w.phases.set i p }

/-- The jar is there and complete : the last download that opened it has succeeded, no other one is
still writing it, and no failed call has removed it. -/
structure IsComplete (w : Calls) (here : Route) (jar : Path) : Prop where
  leads : w.disk.leads here jar = true
  opened : ∃ k p, w.opener = some k ∧ w.phase? k = some p ∧ p.hasJar = true
  written : ∀ k, w.phase? k ≠ some .writing
  kept : w.removed = false

end Calls

/-- What the call with a number can do next. -/
inductive Step (t : JarTool) (here : Route) (i : Nat) : Calls → Calls → Prop
  | found {w} : w.phase? i = some .asking → w.disk.leads here t.jar = true →
      Step t here i w (w.moved i .ready)
  | missed {w} : w.phase? i = some .asking → w.disk.leads here t.jar = false →
      Step t here i w (w.moved i .missing)
  | roomy {w d} : w.phase? i = some .missing → w.disk.makeRoom here t.jar = (.ok (), d) →
      Step t here i w ({ w with disk := d }.moved i .fetching)
  | cramped {w e d} : w.phase? i = some .missing → w.disk.makeRoom here t.jar = (.error e, d) →
      Step t here i w ({ w with disk := d }.moved i .over)
  -- `curl` cannot be started, or it opens the jar, or it fails before that
  | unstarted {w} : w.phase? i = some .fetching → Step t here i w (w.moved i .over)
  | opened {w bytes d} : w.phase? i = some .fetching → w.disk.write here t.jar bytes = .ok d →
      Step t here i w ({ w with disk := d, opener := some i, removed := false }.moved i .writing)
  | refused {w} : w.phase? i = some .fetching → Step t here i w (w.moved i .failed)
  -- what it writes to a jar that was removed in the meantime is lost
  | wrote {w bytes d} : w.phase? i = some .writing → w.disk.leads here t.jar = true →
      w.disk.write here t.jar bytes = .ok d → Step t here i w { w with disk := d }
  | completed {w} : w.phase? i = some .writing → Step t here i w (w.moved i .ready)
  | broken {w} : w.phase? i = some .writing → Step t here i w (w.moved i .failed)
  -- that the jar cannot be removed is not noticed
  | removed {w d} : w.phase? i = some .failed → w.disk.removeFile here t.jar = .ok d →
      Step t here i w ({ w with disk := d, removed := true }.moved i .over)
  | unremoved {w e} : w.phase? i = some .failed → w.disk.removeFile here t.jar = .error e →
      Step t here i w (w.moved i .over)
  | started {w} : w.phase? i = some .ready → Step t here i w (w.moved i .started)

/-- The calls come from one state to another, in steps that are allowed to the call that takes
them. -/
inductive Reaches (t : JarTool) (here : Route) (allowed : Calls → Nat → Prop) (w₀ : Calls) :
    Calls → Prop
  | refl : Reaches t here allowed w₀ w₀
  | tail {w w' i} : Reaches t here allowed w₀ w → allowed w i → Step t here i w w' →
      Reaches t here allowed w₀ w'

/-- Every call may take every step. -/
def Anytime (_ : Calls) (_ : Nat) : Prop := True

/-- A call looks for the jar only while no download is under way. -/
def OneAtATime (w : Calls) (i : Nat) : Prop :=
  w.phase? i = some .asking → ∀ k p, w.phase? k = some p → p.isBusy = false

variable {t : JarTool} {here : Route} {w w' : Calls} {i k : Nat} {p q : Phase} {d : Disk}
  {l : Disk.Place}

namespace Calls

theorem phase_moved (h : w.phase? i = some p) : (w.moved i q).phase? i = some q := by
  obtain ⟨hi, -⟩ := List.getElem?_eq_some_iff.mp h
  exact List.getElem?_set_self hi

theorem phase_moved_of_ne (h : k ≠ i) : (w.moved i q).phase? k = w.phase? k :=
  List.getElem?_set_ne (Ne.symm h)

/-- What holds of the phase that a call has come to and of those of the others holds of all. -/
theorem forall_moved {P : Phase → Prop} (hq : P q)
    (h : ∀ k p, k ≠ i → w.phase? k = some p → P p) :
    ∀ k p, (w.moved i q).phase? k = some p → P p := by
  intro k p hp
  by_cases hk : k = i
  · subst hk
    obtain ⟨hlt, -⟩ := List.getElem?_eq_some_iff.mp hp
    have hlt' : k < w.phases.length := by simpa [moved] using hlt
    have hpq : some p = some q := hp.symm.trans (List.getElem?_set_self hlt')
    rw [Option.some.inj hpq]
    exact hq
  · rw [phase_moved_of_ne hk] at hp
    exact h k p hk hp

end Calls

theorem Step.length_phases (h : Step t here i w w') : w'.phases.length = w.phases.length := by
  cases h <;> simp [Calls.moved]

/-! ## Downloads one at a time -/

/-- A call has not got the jar and does nothing about it : it has not begun, or it is over. -/
def Phase.IsQuiet (p : Phase) : Prop := p.isBusy = false ∧ p.hasJar = false

/-- All calls but one are quiet. -/
def Calls.OthersQuiet (w : Calls) (i : Nat) : Prop :=
  ∀ k p, k ≠ i → w.phase? k = some p → p.IsQuiet

/-- What a download that is under way has made of the disk, and what is known of the jar. -/
inductive Loading (d : Disk) (l : Disk.Place) (w : Calls) (i : Nat) : Phase → Prop
  | missing : w.disk = d ∨ l.Lacks w.disk → Loading d l w i .missing
  | fetching : l.Lacks w.disk → Loading d l w i .fetching
  | writing : l.Holds w.disk → w.opener = some i → w.removed = false → Loading d l w i .writing
  | failed : l.Lacks w.disk ∨ l.Holds w.disk → Loading d l w i .failed

/-- The jar is there for good : a download has succeeded, and none is under way. -/
structure Settled (l : Disk.Place) (w : Calls) : Prop where
  resting : ∀ k p, w.phase? k = some p → p.isBusy = false
  holds : l.Holds w.disk
  opened : ∃ k p, w.opener = some k ∧ w.phase? k = some p ∧ p.hasJar = true
  kept : w.removed = false

/-- The states of calls whose downloads do not overlap : the jar is missing, one call is downloading
it, or it is there for good. -/
inductive Orderly (d : Disk) (l : Disk.Place) (w : Calls) : Prop
  | idle : (∀ k p, w.phase? k = some p → p.IsQuiet) → w.disk = d ∨ l.Lacks w.disk → Orderly d l w
  | loading (j : Nat) (p : Phase) : w.phase? j = some p → w.OthersQuiet j → Loading d l w j p →
      Orderly d l w
  | done : Settled l w → Orderly d l w

theorem Loading.isBusy (h : Loading d l w i p) : p.isBusy = true := by
  cases h <;> rfl

theorem Settled.isComplete (h : Settled l w) (hd : d.IsFree here t.jar l) :
    w.IsComplete here t.jar := by
  refine ⟨hd.leads_of_holds h.holds, h.opened, ?_, h.kept⟩
  intro k hk
  cases h.resting k _ hk

/-- A call that has not got the jar, or that has got it and goes on, leaves the jar there. -/
theorem Settled.moved (h : Settled l w) (hp : w.phase? i = some p)
    (hq : q.isBusy = false) (hjar : p.hasJar = true → q.hasJar = true) :
    Settled l (w.moved i q) := by
  obtain ⟨k, p', hk, hp', hjar'⟩ := h.opened
  refine ⟨Calls.forall_moved hq fun k p _ => h.resting k p, h.holds, ?_, h.kept⟩
  by_cases hki : k = i
  · subst hki
    rw [hp] at hp'
    obtain rfl := Option.some.inj hp'
    exact ⟨k, q, hk, Calls.phase_moved hp, hjar hjar'⟩
  · exact ⟨k, p', hk, (Calls.phase_moved_of_ne hki).trans hp', hjar'⟩

namespace Orderly

/-- A call that is downloading is the only one that has got so far. -/
theorem loading_of_isBusy (h : Orderly d l w) (hp : w.phase? i = some p)
    (hb : p.isBusy = true) : w.OthersQuiet i ∧ Loading d l w i p := by
  cases h with
  | idle hquiet _ =>
    rw [(hquiet i p hp).1] at hb
    cases hb
  | loading j q hq hothers hl =>
    by_cases hij : i = j
    · subst hij
      rw [hp] at hq
      obtain rfl := Option.some.inj hq
      exact ⟨hothers, hl⟩
    · rw [(hothers i p hij hp).1] at hb
      cases hb
  | done hset =>
    rw [hset.resting i p hp] at hb
    cases hb

/-- Where a call has got the jar, it is there for good. -/
theorem settled_of_hasJar (h : Orderly d l w) (hp : w.phase? i = some p)
    (hjar : p.hasJar = true) : Settled l w := by
  cases h with
  | idle hquiet _ =>
    rw [(hquiet i p hp).2] at hjar
    cases hjar
  | loading j q hq hothers hl =>
    by_cases hij : i = j
    · subst hij
      rw [hp] at hq
      obtain rfl := Option.some.inj hq
      cases hl <;> cases hjar
    · rw [(hothers i p hij hp).2] at hjar
      cases hjar
  | done hset => exact hset

/-- While nobody downloads the jar it is missing, or there for good. -/
theorem missing_or_settled (h : Orderly d l w) (hd : d.IsFree here t.jar l)
    (hrest : ∀ k p, w.phase? k = some p → p.isBusy = false) :
    (w.disk.leads here t.jar = false ∧ (∀ k p, w.phase? k = some p → p.IsQuiet) ∧
      (w.disk = d ∨ l.Lacks w.disk)) ∨
    (w.disk.leads here t.jar = true ∧ Settled l w) := by
  cases h with
  | idle hquiet hdisk =>
    refine .inl ⟨?_, hquiet, hdisk⟩
    obtain rfl | hlacks := hdisk
    · exact hd.leads_eq_false
    · exact hd.leads_of_lacks hlacks
  | loading j q hq _ hl =>
    have hbusy := hl.isBusy
    rw [hrest j q hq] at hbusy
    cases hbusy
  | done hset => exact .inr ⟨hd.leads_of_holds hset.holds, hset⟩

/-- Where the jar is missing there is room for it. -/
theorem makeRoom_of_missing (hd : d.IsFree here t.jar l) (hdisk : w.disk = d ∨ l.Lacks w.disk) :
    ∃ x, w.disk.makeRoom here t.jar = (.ok (), x) ∧ l.Lacks x := by
  obtain rfl | hlacks := hdisk
  · exact ⟨l.disk, hd.room, fun _ => rfl⟩
  · exact ⟨w.disk, hd.makeRoom_of_lacks hlacks, hlacks⟩

theorem moved_loading (hp : w.phase? i = some p) (hothers : w.OthersQuiet i)
    (hl : Loading d l (w.moved i q) i q) : Orderly d l (w.moved i q) := by
  refine .loading i q (Calls.phase_moved hp) ?_ hl
  intro k p' hk hp'
  rw [Calls.phase_moved_of_ne hk] at hp'
  exact hothers k p' hk hp'

theorem moved_over (hothers : w.OthersQuiet i) (hlacks : l.Lacks w.disk) :
    Orderly d l (w.moved i .over) :=
  .idle (Calls.forall_moved ⟨rfl, rfl⟩ hothers) (.inr hlacks)

/-- A step of a call that looks for the jar only while nobody downloads it keeps calls orderly. -/
theorem step (h : Orderly d l w) (hd : d.IsFree here t.jar l) (ha : OneAtATime w i)
    (hs : Step t here i w w') : Orderly d l w' := by
  cases hs with
  | found hp hleads =>
    obtain ⟨hfalse, -⟩ | ⟨-, hset⟩ := h.missing_or_settled hd (ha hp)
    · rw [hleads] at hfalse
      cases hfalse
    · exact .done (hset.moved hp rfl fun _ => rfl)
  | missed hp hleads =>
    obtain ⟨-, hquiet, hdisk⟩ | ⟨htrue, -⟩ := h.missing_or_settled hd (ha hp)
    · exact moved_loading hp (fun k q _ => hquiet k q) (.missing hdisk)
    · rw [hleads] at htrue
      cases htrue
  | @roomy x hp hroom =>
    obtain ⟨hothers, hl⟩ := h.loading_of_isBusy hp rfl
    cases hl with
    | missing hdisk =>
      obtain ⟨y, hy, hlacks⟩ := makeRoom_of_missing hd hdisk
      rw [hroom] at hy
      obtain ⟨-, rfl⟩ := Prod.mk.inj hy
      exact moved_loading (w := { w with disk := x }) hp hothers (.fetching hlacks)
  | cramped hp hroom =>
    obtain ⟨-, hl⟩ := h.loading_of_isBusy hp rfl
    cases hl with
    | missing hdisk =>
      obtain ⟨y, hy, -⟩ := makeRoom_of_missing hd hdisk
      rw [hroom] at hy
      cases hy
  | unstarted hp =>
    obtain ⟨hothers, hl⟩ := h.loading_of_isBusy hp rfl
    cases hl with
    | fetching hlacks => exact moved_over hothers hlacks
  | @opened bytes x hp hw =>
    obtain ⟨hothers, hl⟩ := h.loading_of_isBusy hp rfl
    cases hl with
    | fetching hlacks =>
      obtain ⟨y, hy, hholds⟩ := hd.write_of_lacks hlacks bytes
      rw [hw] at hy
      obtain rfl := Except.ok.inj hy
      exact moved_loading (w := { w with disk := x, opener := some i, removed := false }) hp
        hothers (.writing hholds rfl rfl)
  | @wrote bytes x hp _ hw =>
    obtain ⟨hothers, hl⟩ := h.loading_of_isBusy hp rfl
    cases hl with
    | writing hholds hopener hkept =>
      obtain ⟨y, hy, hholds'⟩ := hd.write_of_holds hholds bytes
      rw [hw] at hy
      obtain rfl := Except.ok.inj hy
      exact .loading i .writing hp hothers (.writing hholds' hopener hkept)
  | completed hp =>
    obtain ⟨hothers, hl⟩ := h.loading_of_isBusy hp rfl
    cases hl with
    | writing hholds hopener hkept =>
      refine .done ⟨?_, hholds, ⟨i, .ready, hopener, Calls.phase_moved hp, rfl⟩, hkept⟩
      exact Calls.forall_moved rfl fun k p hk hp => (hothers k p hk hp).1
  | refused hp =>
    obtain ⟨hothers, hl⟩ := h.loading_of_isBusy hp rfl
    cases hl with
    | fetching hlacks => exact moved_loading hp hothers (.failed (.inl hlacks))
  | broken hp =>
    obtain ⟨hothers, hl⟩ := h.loading_of_isBusy hp rfl
    cases hl with
    | writing hholds _ _ => exact moved_loading hp hothers (.failed (.inr hholds))
  | @removed x hp hr =>
    obtain ⟨hothers, hl⟩ := h.loading_of_isBusy hp rfl
    cases hl with
    | failed hdisk =>
      obtain hlacks | hholds := hdisk
      · rw [hd.removeFile_of_lacks hlacks] at hr
        cases hr
      · obtain ⟨y, hy, hlacks⟩ := hd.removeFile_of_holds hholds
        rw [hr] at hy
        obtain rfl := Except.ok.inj hy
        exact moved_over (w := { w with disk := x, removed := true }) hothers hlacks
  | unremoved hp hr =>
    obtain ⟨hothers, hl⟩ := h.loading_of_isBusy hp rfl
    cases hl with
    | failed hdisk =>
      obtain hlacks | hholds := hdisk
      · exact moved_over hothers hlacks
      · obtain ⟨y, hy, -⟩ := hd.removeFile_of_holds hholds
        rw [hr] at hy
        cases hy
  | started hp => exact .done ((h.settled_of_hasJar hp rfl).moved hp rfl fun _ => rfl)

/-- Calls that look for the jar only while nobody downloads it are orderly at all times. -/
theorem of_reaches (hd : d.IsFree here t.jar l) {n : Nat}
    (h : Reaches t here OneAtATime (.start d n) w) : Orderly d l w := by
  induction h with
  | refl =>
    refine .idle ?_ (.inl rfl)
    intro k p hp
    obtain rfl := List.eq_of_mem_replicate (List.mem_of_getElem? hp)
    exact ⟨rfl, rfl⟩
  | tail _ ha hs ih => exact ih.step hd ha hs

end Orderly

/-- A call that is alone looks for the jar only while nobody downloads it. -/
theorem Reaches.oneAtATime {n : Nat} (hn : n ≤ 1) (h : Reaches t here Anytime (.start d n) w) :
    Reaches t here OneAtATime (.start d n) w ∧ w.phases.length = n := by
  induction h with
  | refl => exact ⟨.refl, List.length_replicate⟩
  | @tail w w' i _ _ hs ih =>
    obtain ⟨hr, hlen⟩ := ih
    refine ⟨.tail hr ?_ hs, hs.length_phases.trans hlen⟩
    intro hi k p hk
    obtain ⟨hlt, -⟩ := List.getElem?_eq_some_iff.mp hi
    obtain ⟨hlt', -⟩ := List.getElem?_eq_some_iff.mp hk
    obtain rfl : k = i := by omega
    rw [hi] at hk
    obtain rfl := Option.some.inj hk
    rfl

theorem OneAtATime.of_forall (h : ∀ p ∈ w.phases, p.isBusy = false) : OneAtATime w i :=
  fun _ _ _ hp => h _ (List.mem_of_getElem? hp)

/-! ## Downloads that overlap -/

/-- One call finds the jar that another is still writing. -/
theorem reaches_written (hd : d.IsFree here t.jar l) (n : Nat) :
    ∃ w, Reaches t here Anytime (.start d (n + 2)) w ∧
      w.phase? 1 = some .ready ∧ w.phase? 0 = some .writing := by
  obtain ⟨y, hy, hholds⟩ := hd.write_of_lacks (fun _ => rfl) ByteArray.empty
  refine ⟨⟨y, .writing :: .ready :: List.replicate n .asking, some 0, false⟩, ?_, rfl, rfl⟩
  have hmissed : Reaches t here Anytime (.start d (n + 2))
      ((Calls.start d (n + 2)).moved 0 .missing) :=
    .tail .refl trivial (.missed rfl hd.leads_eq_false)
  have hroomy := hmissed.tail trivial (.roomy (i := 0) rfl hd.room)
  have hopened := hroomy.tail trivial (.opened (i := 0) rfl hy)
  exact hopened.tail trivial (.found (i := 1) rfl (hd.leads_of_holds hholds))

/-- One call has downloaded the jar, and another whose download fails removes it. -/
theorem reaches_removed (hd : d.IsFree here t.jar l) (n : Nat) :
    ∃ w, Reaches t here Anytime (.start d (n + 2)) w ∧
      w.phase? 0 = some .ready ∧ w.disk.leads here t.jar = false := by
  have hlacks : l.Lacks l.disk := fun _ => rfl
  obtain ⟨y, hy, hholds⟩ := hd.write_of_lacks hlacks ByteArray.empty
  obtain ⟨z, hz, hlacks'⟩ := hd.removeFile_of_holds hholds
  refine ⟨⟨z, .ready :: .over :: List.replicate n .asking, some 0, true⟩, ?_, rfl,
    hd.leads_of_lacks hlacks'⟩
  have hmissed : Reaches t here Anytime (.start d (n + 2))
      ((Calls.start d (n + 2)).moved 0 .missing) :=
    .tail .refl trivial (.missed rfl hd.leads_eq_false)
  have hboth := hmissed.tail trivial (.missed (i := 1) rfl hd.leads_eq_false)
  have hroomy := hboth.tail trivial (.roomy (i := 0) rfl hd.room)
  have hroomy' := hroomy.tail trivial (.roomy (i := 1) rfl (hd.makeRoom_of_lacks hlacks))
  have hopened := hroomy'.tail trivial (.opened (i := 0) rfl hy)
  have hcompleted := hopened.tail trivial (.completed (i := 0) rfl)
  have hrefused := hcompleted.tail trivial (.refused (i := 1) rfl)
  exact hrefused.tail trivial (.removed (i := 1) rfl hz)

end ClassViewer.JarTool
