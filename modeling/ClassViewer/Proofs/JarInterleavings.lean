import ClassViewer.Proofs.Host
import ClassViewer.Proofs.JarCalls
import Mathlib.Logic.Relation

/-!
# Calls that run one jar side by side

A call that sees to the jar does so in parts, and others may work on the disk between them and while
a program runs (`JarTool.ensureInParts`). Done one after the other, the parts are what the program
does (`whole_ensureInParts`). `Moves` says how calls that are done side by side go on : one of them
does its next part on the disk as the others have left it, or its `curl` does something to the jar.

Where calls stand side by side, each at a phase of its own (`Follows`), they go on as the steps of
`JarTool.Step` say, and whatever steps there are, they can take (`Follows.exists_step`,
`Follows.exists_move`). So what is reached in steps is what is reached side by side, for any number
of calls (`follows_of_comesTo`, `comesTo_of_reaches`).
-/

namespace ClassViewer

/-! ## Computations in parts -/

/-- A computation in parts, between which others may work on the disk. A program may be run to its
end, and others may work on the disk meanwhile. -/
inductive Parts (α : Type) : Type 1
  | done (a : α)
  | act {β : Type} (first : HostM β) (next : β → Parts α)
  | execute (program : Path) (args : List String) (next : Except IoError ExitStatus → Parts α)

/-- The parts one after the other. -/
def Parts.whole {α : Type} : Parts α → HostM α
  | done a => pure a
  | act first next => do (next (← first)).whole
  | execute program args next => do (next (← Host.executeInPlace program args)).whole

namespace JarTool

/-- Looks whether the jar is there. -/
def look (t : JarTool) : HostM Bool := do return (← get).leads t.jar

/-- Goes on once a download has ended. -/
def afterDownload (target : Path) (url : String) :
    Except IoError ExitStatus → Parts (Except Failure Unit)
  | .error e => .done (.error (unstartedFailure e))
  | .ok status =>
    if status.isSuccess then .done (.ok ())
    else .act (Host.removeFile target) fun _ => .done (.error (downloadFailure url status))

/-- Goes on once there is room for the jar. -/
def afterRoom (target : Path) (url : String) : Except Failure Unit → Parts (Except Failure Unit)
  | .error f => .done (.error f)
  | .ok () => .execute ⟨"curl"⟩ (downloadArguments target url) (afterDownload target url)

/-- Goes on once it is known whether the jar is there. -/
def afterLook (t : JarTool) : Bool → Parts (Except Failure Unit)
  | true => .done (.ok ())
  | false => match t.download with
    | some url => .act (makeRoom t.jar) (afterRoom t.jar url)
    | none => .done (.error (missingFailure t.jar))

/-- Sees in parts to it that the jar is there. -/
def ensureInParts (t : JarTool) : Parts (Except Failure Unit) := .act t.look t.afterLook

/-- Starts `java` on the jar. -/
def launch (t : JarTool) (args : List String) : HostM (Except Failure Finished) := do
  match ← Host.execute t.java ("-jar" :: t.jar.text :: args) with
  | .ok finished => return .ok finished
  | .error e =>
    return .error ((Failure.ofIo e).inContext
      "Failed to execute java (ensure JRE/JDK is installed)")

/-- Starts `java` if the jar is there. -/
def launchIfThere (t : JarTool) (args : List String) :
    Except Failure Unit → HostM (Except Failure Finished)
  | .error f => return .error f
  | .ok () => t.launch args

theorem whole_afterRoom (target : Path) (url : String) :
    (Parts.act (makeRoom target) (afterRoom target url)).whole = install target url := by
  unfold install
  rw [Parts.whole]
  congr 1
  funext room
  cases room with
  | error f => rfl
  | ok _ =>
    simp only [afterRoom, Parts.whole]
    congr 1
    funext ended
    cases ended with
    | error e => rfl
    | ok status =>
      simp only [afterDownload]
      split <;> rfl

/-- The parts one after the other are what the program does. -/
theorem whole_ensureInParts (t : JarTool) : t.ensureInParts.whole = t.ensure := by
  have hlook : t.ensureInParts.whole = (get : HostM Host) >>= fun h =>
      (t.afterLook (h.leads t.jar)).whole := rfl
  rw [hlook]
  unfold ensure
  congr 1
  funext h
  cases h.leads t.jar with
  | true => rfl
  | false =>
    simp only [afterLook, Bool.false_eq_true, if_false]
    cases t.download with
    | none => rfl
    | some url => exact whole_afterRoom t.jar url

/-- So a run of the jar is what its parts do, and then `java` is started if the jar is there. -/
theorem run_eq (t : JarTool) (args : List String) :
    t.run args = t.ensureInParts.whole >>= t.launchIfThere args := by
  rw [whole_ensureInParts]
  unfold run
  rfl

/-- Making room for the jar does to the disk what the disk says. -/
theorem run_makeRoom (target : Path) (h : Host) :
    ∃ outcome : Except Failure Unit, (makeRoom target).run h =
      (outcome, { h with disk := (h.disk.makeRoom h.here target).2 }) ∧
      (outcome = .ok () ↔ (h.disk.makeRoom h.here target).1 = .ok ()) := by
  unfold makeRoom Disk.makeRoom
  cases target.parent? with
  | none => exact ⟨.ok (), rfl, by simp⟩
  | some above =>
    simp only [Host.makeDirectories, StateT.run_bind, StateT.run_get, pure_bind]
    rcases h.disk.makeDirectories h.here above with ⟨e | _, d⟩
    · exact ⟨_, rfl, by simp⟩
    · exact ⟨_, rfl, by simp⟩

/-! ## Calls side by side -/

/-- What a call is doing. -/
inductive Activity : Type 1
  /-- It goes on with these parts. -/
  | goesOn (rest : Parts (Except Failure Unit))
  /-- Its `curl` has opened the jar and writes it, and this is how it goes on then. -/
  | downloading (next : Except IoError ExitStatus → Parts (Except Failure Unit))
  /-- It has started `java`. -/
  | launched

/-- Calls side by side on one disk. -/
structure SideBySide where
  disk : Disk
  activities : List Activity

namespace SideBySide

/-- Calls that are about to see to the jar. -/
def start (t : JarTool) (d : Disk) (count : Nat) : SideBySide :=
  ⟨d, List.replicate count (.goesOn t.ensureInParts)⟩

/-- The calls once one of them does something else. -/
def moved (s : SideBySide) (i : Nat) (a : Activity) : SideBySide :=
  { s with activities := s.activities.set i a }

/-- The calls once one of them has done a part of its own, on the disk as it is then. -/
def acted {β : Type} (s : SideBySide) (h : Host) (i : Nat) (first : HostM β)
    (next : β → Parts (Except Failure Unit)) : SideBySide :=
  { s with disk := (first.run { h with disk := s.disk }).2.disk }.moved i
    (.goesOn (next (first.run { h with disk := s.disk }).1))

end SideBySide

/-- What can happen next at the call with a number, on a machine : its next part is done, on the
disk as it is then, or its `curl` does something. Of `curl` it is relied on that it opens the jar
before it succeeds, and does nothing to the disk but to write to the jar. -/
inductive Moves (t : JarTool) (h : Host) (i : Nat) : SideBySide → SideBySide → Prop
  | acted {s : SideBySide} {β : Type} {first : HostM β} {next} :
      s.activities[i]? = some (.goesOn (.act first next)) →
        Moves t h i s (s.acted h i first next)
  | unstarted {s : SideBySide} {p args next} (e : IoError) :
      s.activities[i]? = some (.goesOn (.execute p args next)) →
        Moves t h i s (s.moved i (.goesOn (next (.error e))))
  | opened {s : SideBySide} {p args next bytes d} :
      s.activities[i]? = some (.goesOn (.execute p args next)) →
        s.disk.write h.here t.jar bytes = .ok d →
          Moves t h i s ({ s with disk := d }.moved i (.downloading next))
  | refused {s : SideBySide} {p args next} {status : ExitStatus} :
      s.activities[i]? = some (.goesOn (.execute p args next)) → status.isSuccess = false →
        Moves t h i s (s.moved i (.goesOn (next (.ok status))))
  | wrote {s : SideBySide} {next bytes d} : s.activities[i]? = some (.downloading next) →
      s.disk.leads h.here t.jar = true → s.disk.write h.here t.jar bytes = .ok d →
        Moves t h i s { s with disk := d }
  | ended {s : SideBySide} {next} (status : ExitStatus) :
      s.activities[i]? = some (.downloading next) →
        Moves t h i s (s.moved i (.goesOn (next (.ok status))))
  | launched {s : SideBySide} : s.activities[i]? = some (.goesOn (.done (.ok ()))) →
      Moves t h i s (s.moved i .launched)

/-- Calls come from one state to another, whatever happens at which of them. -/
def ComesTo (t : JarTool) (h : Host) : SideBySide → SideBySide → Prop :=
  Relation.ReflTransGen fun s s' => ∃ i, Moves t h i s s'

/-! ## Phases -/

/-- The phase of a call that does something. -/
inductive Activity.IsIn (t : JarTool) (url : String) : Activity → Phase → Prop
  | asking : IsIn t url (.goesOn (.act t.look t.afterLook)) .asking
  | missing : IsIn t url (.goesOn (.act (makeRoom t.jar) (afterRoom t.jar url))) .missing
  | fetching : IsIn t url (.goesOn (.execute ⟨"curl"⟩ (downloadArguments t.jar url)
      (afterDownload t.jar url))) .fetching
  | writing : IsIn t url (.downloading (afterDownload t.jar url)) .writing
  | failed (f : Failure) :
      IsIn t url (.goesOn (.act (Host.removeFile t.jar) fun _ => .done (.error f))) .failed
  | ready : IsIn t url (.goesOn (.done (.ok ()))) .ready
  | started : IsIn t url .launched .started
  | over (f : Failure) : IsIn t url (.goesOn (.done (.error f))) .over

/-- A call whose download has succeeded has the jar, and one whose download has failed is to remove
what that has left. -/
theorem Activity.isIn_afterDownload {t : JarTool} {url : String} {status : ExitStatus} {ok : Bool}
    (hstatus : status.isSuccess = ok) :
    (Activity.goesOn (afterDownload t.jar url (.ok status))).IsIn t url
      (if ok then .ready else .failed) := by
  subst hstatus
  simp only [afterDownload]
  split
  · exact .ready
  · exact .failed _

/-- Calls side by side stand as calls that go in steps. -/
structure SideBySide.Follows (s : SideBySide) (t : JarTool) (url : String) (w : Calls) :
    Prop where
  disk : s.disk = w.disk
  phases : ∀ k : Nat, Option.Rel (Activity.IsIn t url) s.activities[k]? w.phases[k]?

namespace SideBySide.Follows

variable {t : JarTool} {url : String} {h : Host} {s s' : SideBySide} {w w' : Calls} {i : Nat}
  {a b : Activity} {p q : Phase}

theorem start (t : JarTool) (url : String) (d : Disk) (n : Nat) :
    (SideBySide.start t d n).Follows t url (.start d n) where
  disk := rfl
  phases k := by
    simp only [SideBySide.start, Calls.start, List.getElem?_replicate]
    split
    · exact .some .asking
    · exact .none

section

variable (hs : s.Follows t url w)

include hs

theorem exists_phase (ha : s.activities[i]? = some a) :
    ∃ p, w.phase? i = some p ∧ a.IsIn t url p := by
  have hrel := hs.phases i
  rw [ha] at hrel
  cases hp : w.phases[i]? with
  | none =>
    rw [hp] at hrel
    cases hrel
  | some p =>
    rw [hp] at hrel
    cases hrel with
    | some hin => exact ⟨p, hp, hin⟩

theorem exists_activity (hp : w.phase? i = some p) :
    ∃ a, s.activities[i]? = some a ∧ a.IsIn t url p := by
  have hrel := hs.phases i
  rw [show w.phases[i]? = some p from hp] at hrel
  cases ha : s.activities[i]? with
  | none =>
    rw [ha] at hrel
    cases hrel
  | some a =>
    rw [ha] at hrel
    cases hrel with
    | some hin => exact ⟨a, rfl, hin⟩

/-- One call has come to another phase, and the disk may have changed with that. -/
theorem moved (hb : b.IsIn t url q) (d : Disk) (opener : Option Nat) (removed : Bool) :
    ({ s with disk := d }.moved i b).Follows t url
      ({ w with disk := d, opener := opener, removed := removed }.moved i q) where
  disk := rfl
  phases k := by
    have hrel := hs.phases k
    by_cases hk : i = k
    · subst hk
      simp only [SideBySide.moved, Calls.moved, List.getElem?_set_self']
      generalize s.activities[i]? = found at hrel ⊢
      generalize w.phases[i]? = stands at hrel ⊢
      cases hrel with
      | some _ => exact .some hb
      | none => exact .none
    · simp only [SideBySide.moved, Calls.moved, List.getElem?_set_ne hk]
      exact hrel

/-- One call has come to another phase. -/
theorem moved_same (hb : b.IsIn t url q) : (s.moved i b).Follows t url (w.moved i q) := by
  have hsame : ({ s with disk := w.disk } : SideBySide) = s := by rw [← hs.disk]
  have hafter := hs.moved (i := i) hb w.disk w.opener w.removed
  rw [hsame] at hafter
  exact hafter

/-! ### What the parts do -/

theorem look (hurl : t.download = some url) (h : Host) :
    (s.acted h i t.look t.afterLook).Follows t url
      (w.moved i (if w.disk.leads h.here t.jar then .ready else .missing)) := by
  have hlook : s.acted h i t.look t.afterLook =
      s.moved i (.goesOn (t.afterLook (w.disk.leads h.here t.jar))) := by
    rw [← hs.disk]
    rfl
  rw [hlook]
  cases w.disk.leads h.here t.jar with
  | true => exact hs.moved_same .ready
  | false =>
    refine hs.moved_same ?_
    simp only [afterLook, hurl]
    exact .missing

theorem makeRoom {outcome : Except IoError Unit} {d : Disk}
    (hroom : w.disk.makeRoom h.here t.jar = (outcome, d)) :
    (s.acted h i (JarTool.makeRoom t.jar) (afterRoom t.jar url)).Follows t url
      ({ w with disk := d }.moved i (if outcome.isOk then .fetching else .over)) := by
  obtain ⟨made, hrun, hmade⟩ := run_makeRoom t.jar { h with disk := s.disk }
  rw [hs.disk] at hrun hmade
  have hdone : s.acted h i (JarTool.makeRoom t.jar) (afterRoom t.jar url) =
      { s with disk := d }.moved i (.goesOn (afterRoom t.jar url made)) := by
    unfold SideBySide.acted
    rw [hs.disk, hrun]
    simp only [hroom]
  rw [hdone]
  refine hs.moved ?_ d w.opener w.removed
  simp only [hroom] at hmade
  cases made with
  | ok _ =>
    rw [hmade.1 rfl]
    exact .fetching
  | error f =>
    cases outcome with
    | ok _ => cases hmade.2 rfl
    | error e => exact .over f

theorem removeFile (h : Host) (f : Failure) :
    (∀ d, w.disk.removeFile h.here t.jar = .ok d →
      (s.acted h i (Host.removeFile t.jar) fun _ => .done (.error f)).Follows t url
        ({ w with disk := d, removed := true }.moved i .over)) ∧
    ∀ e, w.disk.removeFile h.here t.jar = .error e →
      (s.acted h i (Host.removeFile t.jar) fun _ => .done (.error f)).Follows t url
        (w.moved i .over) := by
  unfold SideBySide.acted
  rw [hs.disk]
  obtain ⟨d, hd, hrun⟩ | ⟨e, he, hrun⟩ := Host.run_removeFile { h with disk := w.disk } t.jar
  · rw [hrun]
    refine ⟨fun d' hd' => ?_, fun e he => ?_⟩
    · obtain rfl := Except.ok.inj (hd.symm.trans hd')
      exact hs.moved (.over f) d w.opener true
    · cases hd.symm.trans he
  · rw [hrun]
    refine ⟨fun d hd => ?_, fun _ _ => hs.moved (.over f) w.disk w.opener w.removed⟩
    cases he.symm.trans hd

end

/-! ### Moves and steps -/

/-- What happens next is a step. -/
theorem exists_step (hurl : t.download = some url) (hs : s.Follows t url w)
    (hm : Moves t h i s s') : ∃ w', Step t h.here i w w' ∧ s'.Follows t url w' := by
  cases hm with
  | acted ha =>
    obtain ⟨p, hp, hin⟩ := hs.exists_phase ha
    cases hin with
    | asking =>
      have hlook := hs.look (i := i) hurl h
      cases hleads : w.disk.leads h.here t.jar with
      | true =>
        rw [hleads] at hlook
        exact ⟨_, .found hp hleads, hlook⟩
      | false =>
        rw [hleads] at hlook
        exact ⟨_, .missed hp hleads, hlook⟩
    | missing =>
      rcases hroom : w.disk.makeRoom h.here t.jar with ⟨e | _, d⟩
      · exact ⟨_, .cramped hp hroom, hs.makeRoom hroom⟩
      · exact ⟨_, .roomy hp hroom, hs.makeRoom hroom⟩
    | failed f =>
      obtain ⟨hremoved, hkept⟩ := hs.removeFile (i := i) h f
      cases hd : w.disk.removeFile h.here t.jar with
      | ok d => exact ⟨_, .removed hp hd, hremoved d hd⟩
      | error e => exact ⟨_, .unremoved hp hd, hkept e hd⟩
  | unstarted e ha =>
    obtain ⟨p, hp, hin⟩ := hs.exists_phase ha
    cases hin
    exact ⟨_, .unstarted hp, hs.moved_same (.over _)⟩
  | @opened _ _ _ bytes d ha hw =>
    obtain ⟨p, hp, hin⟩ := hs.exists_phase ha
    cases hin
    rw [hs.disk] at hw
    exact ⟨_, .opened hp hw, hs.moved .writing d (some i) false⟩
  | refused ha hstatus =>
    obtain ⟨p, hp, hin⟩ := hs.exists_phase ha
    cases hin
    exact ⟨_, .refused hp, hs.moved_same (Activity.isIn_afterDownload hstatus)⟩
  | wrote ha hleads hw =>
    obtain ⟨p, hp, hin⟩ := hs.exists_phase ha
    cases hin
    rw [hs.disk] at hleads hw
    exact ⟨_, .wrote hp hleads hw, rfl, hs.phases⟩
  | ended status ha =>
    obtain ⟨p, hp, hin⟩ := hs.exists_phase ha
    cases hin
    cases hstatus : status.isSuccess with
    | true => exact ⟨_, .completed hp, hs.moved_same (Activity.isIn_afterDownload hstatus)⟩
    | false => exact ⟨_, .broken hp, hs.moved_same (Activity.isIn_afterDownload hstatus)⟩
  | launched ha =>
    obtain ⟨p, hp, hin⟩ := hs.exists_phase ha
    cases hin
    exact ⟨_, .started hp, hs.moved_same .started⟩

/-- What step there is can happen next. -/
theorem exists_move (hurl : t.download = some url) (hs : s.Follows t url w)
    (hstep : Step t h.here i w w') : ∃ s', Moves t h i s s' ∧ s'.Follows t url w' := by
  cases hstep with
  | found hp hleads =>
    obtain ⟨a, ha, hin⟩ := hs.exists_activity hp
    cases hin
    have hlook := hs.look (i := i) hurl h
    rw [hleads] at hlook
    exact ⟨_, .acted ha, hlook⟩
  | missed hp hleads =>
    obtain ⟨a, ha, hin⟩ := hs.exists_activity hp
    cases hin
    have hlook := hs.look (i := i) hurl h
    rw [hleads] at hlook
    exact ⟨_, .acted ha, hlook⟩
  | roomy hp hroom =>
    obtain ⟨a, ha, hin⟩ := hs.exists_activity hp
    cases hin
    exact ⟨_, .acted ha, hs.makeRoom hroom⟩
  | cramped hp hroom =>
    obtain ⟨a, ha, hin⟩ := hs.exists_activity hp
    cases hin
    exact ⟨_, .acted ha, hs.makeRoom hroom⟩
  | unstarted hp =>
    obtain ⟨a, ha, hin⟩ := hs.exists_activity hp
    cases hin
    exact ⟨_, .unstarted (.os .noEntry) ha, hs.moved_same (.over _)⟩
  | @opened bytes d hp hw =>
    obtain ⟨a, ha, hin⟩ := hs.exists_activity hp
    cases hin
    rw [← hs.disk] at hw
    exact ⟨_, .opened ha hw, hs.moved .writing d (some i) false⟩
  | refused hp =>
    obtain ⟨a, ha, hin⟩ := hs.exists_activity hp
    cases hin
    have hstatus : (ExitStatus.code 1).isSuccess = false := rfl
    exact ⟨_, .refused ha hstatus, hs.moved_same (Activity.isIn_afterDownload hstatus)⟩
  | wrote hp hleads hw =>
    obtain ⟨a, ha, hin⟩ := hs.exists_activity hp
    cases hin
    rw [← hs.disk] at hleads hw
    exact ⟨_, .wrote ha hleads hw, rfl, hs.phases⟩
  | completed hp =>
    obtain ⟨a, ha, hin⟩ := hs.exists_activity hp
    cases hin
    have hstatus : (ExitStatus.code 0).isSuccess = true := rfl
    exact ⟨_, .ended _ ha, hs.moved_same (Activity.isIn_afterDownload hstatus)⟩
  | broken hp =>
    obtain ⟨a, ha, hin⟩ := hs.exists_activity hp
    cases hin
    have hstatus : (ExitStatus.code 1).isSuccess = false := rfl
    exact ⟨_, .ended _ ha, hs.moved_same (Activity.isIn_afterDownload hstatus)⟩
  | removed hp hd =>
    obtain ⟨a, ha, hin⟩ := hs.exists_activity hp
    cases hin with
    | failed f => exact ⟨_, .acted ha, (hs.removeFile h f).1 _ hd⟩
  | unremoved hp he =>
    obtain ⟨a, ha, hin⟩ := hs.exists_activity hp
    cases hin with
    | failed f => exact ⟨_, .acted ha, (hs.removeFile h f).2 _ he⟩
  | started hp =>
    obtain ⟨a, ha, hin⟩ := hs.exists_activity hp
    cases hin
    exact ⟨_, .launched ha, hs.moved_same .started⟩

end SideBySide.Follows

/-- What calls come to side by side, calls come to in steps. -/
theorem follows_of_comesTo {t : JarTool} {url : String} (hurl : t.download = some url) {h : Host}
    {d : Disk} {n : Nat} {s : SideBySide} (hs : ComesTo t h (.start t d n) s) :
    ∃ w, Reaches t h.here Anytime (.start d n) w ∧ s.Follows t url w := by
  induction hs with
  | refl => exact ⟨_, .refl, .start t url d n⟩
  | tail _ hm ih =>
    obtain ⟨w, hw, hfollows⟩ := ih
    obtain ⟨i, hm⟩ := hm
    obtain ⟨w', hstep, hfollows'⟩ := hfollows.exists_step hurl hm
    exact ⟨w', hw.tail trivial hstep, hfollows'⟩

/-- What calls come to in steps, they come to side by side. -/
theorem comesTo_of_reaches {t : JarTool} {url : String} (hurl : t.download = some url) {h : Host}
    {d : Disk} {n : Nat} {w : Calls} (hw : Reaches t h.here Anytime (.start d n) w) :
    ∃ s, ComesTo t h (.start t d n) s ∧ s.Follows t url w := by
  induction hw with
  | refl => exact ⟨_, .refl, .start t url d n⟩
  | tail _ _ hstep ih =>
    obtain ⟨s, hs, hfollows⟩ := ih
    obtain ⟨s', hm, hfollows'⟩ := hfollows.exists_move hurl hstep
    exact ⟨s', hs.tail ⟨_, hm⟩, hfollows'⟩

end JarTool

end ClassViewer
