import ClassViewer.Proofs.JarInterleavings

/-!
# The jar that `java` is started on

Runs of a jar side by side go on in the steps of calls, and a single run that is done as a whole
follows them too (`reaches_of_run`). So what holds of calls holds of the program :
`jar_complete_unless_downloads_overlap` says when `java` is only started on a complete jar, and how
it is started on another one where downloads overlap.
-/

namespace ClassViewer.JarTool

variable {t : JarTool} {here : Route} {d : Disk} {l : Disk.Place}

/-! ## One call -/

/-- If `curl` is run to its end, it has written the jar, or it has failed and left the disk as it
was. -/
def Fetches (t : JarTool) (url : String) (h : Host) : Prop :=
  ∀ status h',
    (Host.executeInPlace ⟨"curl"⟩ (downloadArguments t.jar url)).run h = (.ok status, h') →
      (status.isSuccess = false ∧ h'.disk = h.disk) ∨
      ∃ bytes, h.disk.write h.here t.jar bytes = .ok h'.disk

variable {h h' : Host} {args : List String} {url : String}

theorem run_of_ensure (he : t.ensure.run h = (.ok (), h')) :
    (t.run args).run h = (t.launch args).run h' := by
  unfold run
  rw [Host.run_bind, he]
  rfl

theorem run_of_ensure_error {f : Failure} (he : t.ensure.run h = (.error f, h')) :
    (t.run args).run h = (.error f, h') := by
  unfold run
  rw [Host.run_bind, he]
  rfl

section Install

variable {target : Path} {h₁ h₂ : Host}

theorem run_install_of_cramped {f : Failure} (hroom : (makeRoom target).run h = (.error f, h₁)) :
    (install target url).run h = (.error f, h₁) := by
  unfold install
  rw [Host.run_bind, hroom]
  rfl

theorem run_install_of_unstarted {e : IoError} (hroom : (makeRoom target).run h = (.ok (), h₁))
    (hcurl : (Host.executeInPlace ⟨"curl"⟩ (downloadArguments target url)).run h₁ =
      (.error e, h₂)) : ∃ f, (install target url).run h = (.error f, h₂) := by
  unfold install
  simp only [Host.run_bind, hroom, hcurl]
  exact ⟨_, rfl⟩

theorem run_install_of_ended {status : ExitStatus}
    (hroom : (makeRoom target).run h = (.ok (), h₁))
    (hcurl : (Host.executeInPlace ⟨"curl"⟩ (downloadArguments target url)).run h₁ =
      (.ok status, h₂)) :
    (status.isSuccess = true → (install target url).run h = (.ok (), h₂)) ∧
    (status.isSuccess = false → ∃ f,
      (install target url).run h = (.error f, ((Host.removeFile target).run h₂).2)) := by
  unfold install
  simp only [Host.run_bind, hroom, hcurl]
  constructor
  · intro hok
    rw [if_pos hok]
    rfl
  · intro hfail
    rw [if_neg (by simp [hfail])]
    exact ⟨_, rfl⟩

end Install

/-- A call stands as the machine does after it has seen to the jar. -/
def Ensured (w : Calls) (run : Except Failure Unit × Host) : Prop :=
  w.disk = run.2.disk ∧
    ((run.1 = .ok () ∧ w.phases = [.ready]) ∨ ((∃ f, run.1 = .error f) ∧ w.phases = [.over]))

/-- A call whose download has failed removes what that has left, and is over. -/
theorem reaches_of_failed {opener : Option Nat} {removed : Bool} (f : Failure)
    (hfailed : Reaches t h.here Anytime (.start d 1) ⟨h.disk, [.failed], opener, removed⟩) :
    ∃ w, Reaches t h.here Anytime (.start d 1) w ∧
      Ensured w (.error f, ((Host.removeFile t.jar).run h).2) := by
  obtain ⟨x, hx, hrun⟩ | ⟨e, he, hrun⟩ := Host.run_removeFile h t.jar
  · rw [hrun]
    exact ⟨_, hfailed.tail trivial (.removed (i := 0) rfl hx), rfl, .inr ⟨⟨f, rfl⟩, rfl⟩⟩
  · rw [hrun]
    exact ⟨_, hfailed.tail trivial (.unremoved (i := 0) rfl he), rfl, .inr ⟨⟨f, rfl⟩, rfl⟩⟩

/-- A call that is alone and downloads the jar does so in the steps of a call. -/
theorem reaches_of_install (hmiss : h.disk.leads h.here t.jar = false)
    (hcurl : t.Fetches url { h with disk := (h.disk.makeRoom h.here t.jar).2 }) :
    ∃ w, Reaches t h.here Anytime (.start h.disk 1) w ∧
      Ensured w ((install t.jar url).run h) := by
  have hmissed : Reaches t h.here Anytime (.start h.disk 1) ⟨h.disk, [.missing], none, false⟩ :=
    .tail .refl trivial (.missed (i := 0) rfl hmiss)
  obtain ⟨outcome, hroom, hout⟩ := run_makeRoom t.jar h
  rcases hr : h.disk.makeRoom h.here t.jar with ⟨e | _, d⟩
  · rw [hr] at hroom hout
    cases outcome with
    | ok _ => cases hout.mp rfl
    | error f =>
      rw [run_install_of_cramped hroom]
      exact ⟨_, hmissed.tail trivial (.cramped (i := 0) rfl hr), rfl, .inr ⟨⟨f, rfl⟩, rfl⟩⟩
  · rw [hr] at hroom hout hcurl
    obtain rfl := hout.mpr rfl
    have hroomy := hmissed.tail trivial (.roomy (i := 0) rfl hr)
    obtain ⟨e, hc⟩ | ⟨status, h₂, hc, hhere⟩ := Host.run_executeInPlace { h with disk := d }
      ⟨"curl"⟩ (downloadArguments t.jar url)
    · obtain ⟨f, hi⟩ := run_install_of_unstarted hroom hc
      rw [hi]
      exact ⟨_, hroomy.tail trivial (.unstarted (i := 0) rfl), rfl, .inr ⟨⟨f, rfl⟩, rfl⟩⟩
    · obtain ⟨hgood, hbad⟩ := run_install_of_ended hroom hc
      have hended := hcurl status h₂ hc
      cases hs : status.isSuccess with
      | true =>
        rw [hgood hs]
        obtain ⟨hfail, -⟩ | ⟨bytes, hw⟩ := hended
        · rw [hs] at hfail
          cases hfail
        · have hopened := hroomy.tail trivial (.opened (i := 0) rfl hw)
          exact ⟨_, hopened.tail trivial (.completed (i := 0) rfl), rfl, .inl ⟨rfl, rfl⟩⟩
      | false =>
        obtain ⟨f, hi⟩ := hbad hs
        rw [hi]
        have hhere' : h₂.here = h.here := hhere
        rw [← hhere'] at hroomy ⊢
        obtain ⟨-, hsame⟩ | ⟨bytes, hw⟩ := hended
        · obtain rfl : h₂.disk = d := hsame
          exact reaches_of_failed f (hroomy.tail trivial (.refused (i := 0) rfl))
        · rw [← hhere'] at hw
          have hopened := hroomy.tail trivial (.opened (i := 0) rfl hw)
          exact reaches_of_failed f (hopened.tail trivial (.broken (i := 0) rfl))

/-- A call that is alone and sees to the jar does so in the steps of a call. -/
theorem reaches_of_ensure (hurl : t.download = some url)
    (hcurl : t.Fetches url { h with disk := (h.disk.makeRoom h.here t.jar).2 }) :
    ∃ w, Reaches t h.here Anytime (.start h.disk 1) w ∧ Ensured w (t.ensure.run h) := by
  cases hleads : h.leads t.jar with
  | true =>
    have he : t.ensure.run h = (.ok (), h) := by
      rw [ensure, Host.run_get_bind, if_pos hleads]
      rfl
    rw [he]
    exact ⟨_, .tail .refl trivial (.found (i := 0) rfl hleads), rfl, .inl ⟨rfl, rfl⟩⟩
  | false =>
    have he : t.ensure.run h = (install t.jar url).run h := by
      rw [ensure, Host.run_get_bind, if_neg (by simp [hleads]), hurl]
    rw [he]
    exact reaches_of_install hleads hcurl

/-- A run of the jar goes on as a call does that has come so far : it starts `java` on that disk, or
it has ended with an error and left that disk. -/
def GoesOn (t : JarTool) (args : List String) (h : Host) (w : Calls) : Prop :=
  ∃ h', h'.disk = w.disk ∧
    ((w.phases = [.ready] ∧ (t.run args).run h = (t.launch args).run h') ∨
      (w.phases = [.over] ∧ ∃ f, (t.run args).run h = (.error f, h')))

/-- A run of the jar that is alone follows the steps of a call. -/
theorem reaches_of_run (hurl : t.download = some url)
    (hcurl : t.Fetches url { h with disk := (h.disk.makeRoom h.here t.jar).2 })
    (args : List String) :
    ∃ w, Reaches t h.here Anytime (.start h.disk 1) w ∧ t.GoesOn args h w := by
  obtain ⟨w, hw, hdisk, hend⟩ := reaches_of_ensure hurl hcurl
  refine ⟨w, hw, (t.ensure.run h).2, hdisk.symm, ?_⟩
  obtain ⟨hok, hphases⟩ | ⟨⟨f, herror⟩, hphases⟩ := hend
  · exact .inl ⟨hphases, run_of_ensure (Prod.ext hok rfl)⟩
  · exact .inr ⟨hphases, f, run_of_ensure_error (Prod.ext herror rfl)⟩

/-! ## The jar that is started -/

/-- Calls that run a jar which is missing, in any number : as long as none looks for the jar during
the download of another, `java` is only started on a complete jar. Where they may look at any time,
that is so exactly if there is at most one call; with two, `java` can be started on a jar that was
removed and on one that is still being written. And the steps are those of the program : a single
run of the jar follows them, and runs side by side, which do what the program does part by part,
come to the same states as calls in steps. -/
theorem jar_complete_unless_downloads_overlap (t : JarTool) (hd : d.IsFree here t.jar l) :
    (∀ n w i, Reaches t here OneAtATime (.start d n) w → w.phase? i = some .ready →
      w.IsComplete here t.jar) ∧
    (∀ n, (∀ w i, Reaches t here Anytime (.start d n) w → w.phase? i = some .ready →
      w.IsComplete here t.jar) ↔ n ≤ 1) ∧
    (∀ n, 2 ≤ n →
      (∃ w i, Reaches t here Anytime (.start d n) w ∧ w.phase? i = some .ready ∧
        w.disk.leads here t.jar = false) ∧
      ∃ w i k, Reaches t here Anytime (.start d n) w ∧ w.phase? i = some .ready ∧
        w.phase? k = some .writing) ∧
    (∀ (h : Host) url args, h.disk = d → h.here = here → t.download = some url →
      t.Fetches url { h with disk := l.disk } →
      ∃ w, Reaches t here Anytime (.start d 1) w ∧ t.GoesOn args h w) ∧
    (∀ args, t.run args = t.ensureInParts.whole >>= t.launchIfThere args) ∧
    (∀ (h : Host) url n, h.here = here → t.download = some url →
      (∀ s, ComesTo t h (.start t d n) s →
        ∃ w, Reaches t here Anytime (.start d n) w ∧ s.Follows t url w) ∧
      ∀ w, Reaches t here Anytime (.start d n) w →
        ∃ s, ComesTo t h (.start t d n) s ∧ s.Follows t url w) := by
  have hserial : ∀ n w i, Reaches t here OneAtATime (.start d n) w → w.phase? i = some .ready →
      w.IsComplete here t.jar :=
    fun n w i hw hi => ((Orderly.of_reaches hd hw).settled_of_hasJar hi rfl).isComplete hd
  have hraces : ∀ n, 2 ≤ n →
      (∃ w i, Reaches t here Anytime (.start d n) w ∧ w.phase? i = some .ready ∧
        w.disk.leads here t.jar = false) ∧
      ∃ w i k, Reaches t here Anytime (.start d n) w ∧ w.phase? i = some .ready ∧
        w.phase? k = some .writing := by
    intro n hn
    obtain ⟨m, rfl⟩ := Nat.exists_eq_add_of_le' hn
    obtain ⟨w, hw, hready, hgone⟩ := reaches_removed hd m
    obtain ⟨w', hw', hready', hwriting⟩ := reaches_written hd m
    exact ⟨⟨w, 0, hw, hready, hgone⟩, w', 1, 0, hw', hready', hwriting⟩
  refine ⟨hserial, ?_, hraces, ?_, t.run_eq, ?_⟩
  · intro n
    constructor
    · intro hall
      refine Nat.le_of_not_lt fun hn => ?_
      obtain ⟨⟨w, i, hw, hi, hgone⟩, -⟩ := hraces n hn
      have hleads := (hall w i hw hi).leads
      rw [hgone] at hleads
      cases hleads
    · exact fun hn w i hw => hserial n w i (hw.oneAtATime hn).1
  · intro h url args hdisk hhere hurl hcurl
    subst hdisk hhere
    refine reaches_of_run hurl ?_ args
    rw [hd.room]
    exact hcurl
  · intro h url n hhere hurl
    subst hhere
    exact ⟨fun _ => follows_of_comesTo hurl, fun _ => comesTo_of_reaches hurl⟩

/-! ## Two calls on an empty disk -/

/-- A jar that is kept in the directory the program works in. -/
def sampleTool : JarTool := ⟨⟨"java"⟩, ⟨"tool.jar"⟩, some "tool"⟩

/-- A disk with nothing on it. -/
def emptyDisk : Disk := ⟨[], []⟩

theorem isFree_sampleTool : emptyDisk.IsFree [] sampleTool.jar ⟨emptyDisk, [], "tool.jar"⟩ := by
  have hform : Disk.steps "tool.jar" = ["tool.jar"] ∧ Disk.asksDirectory ⟨"tool.jar"⟩ = false ∧
      Text.holds (Char.ofNat 0) "tool.jar" = false ∧ Path.parent? ⟨"tool.jar"⟩ = some ⟨""⟩ ∧
      "tool.jar".utf8ByteSize = 8 := by decide
  obtain ⟨hsteps, hslash, hnul, hparent, hsize⟩ := hform
  refine ⟨?_, ?_, hslash⟩
  · simp only [Disk.makeRoom, sampleTool, hparent]
    exact Disk.makeDirectories_empty emptyDisk [] rfl
  · refine Disk.locate_eq_ok_iff.mpr ⟨?_, Disk.follow_eq_ok_iff.mpr ⟨⟨hnul, by decide⟩, ?_⟩⟩
    · simp [sampleTool, hsize, Disk.pathLimit]
    · rw [Disk.LeadsTo, ite_self, sampleTool, hsteps]
      refine .free ⟨by decide, by decide, by simp, ?_⟩ rfl rfl
      simp [hsize, Disk.nameLimit]

/-- Of two calls on an empty disk one can start `java` on a jar that the other has removed, and on
one that the other is still writing. -/
theorem two_calls_start_incomplete_jars :
    (∃ w, Reaches sampleTool [] Anytime (.start emptyDisk 2) w ∧ w.phase? 0 = some .ready ∧
      w.disk.leads [] sampleTool.jar = false ∧ ¬w.IsComplete [] sampleTool.jar) ∧
    ∃ w, Reaches sampleTool [] Anytime (.start emptyDisk 2) w ∧ w.phase? 1 = some .ready ∧
      w.phase? 0 = some .writing ∧ ¬w.IsComplete [] sampleTool.jar := by
  obtain ⟨w, hw, hready, hgone⟩ := reaches_removed isFree_sampleTool 0
  obtain ⟨w', hw', hready', hwriting⟩ := reaches_written isFree_sampleTool 0
  refine ⟨⟨w, hw, hready, hgone, fun hc => ?_⟩, w', hw', hready', hwriting, fun hc => ?_⟩
  · have hleads := hc.leads
    rw [hgone] at hleads
    cases hleads
  · exact hc.written 0 hwriting

/-- On an empty disk a call that waits for the download of another starts `java` on a complete jar,
and calls that do not wait need not. -/
theorem waiting_call_starts_complete_jar :
    (∃ y, Reaches sampleTool [] OneAtATime (.start emptyDisk 2)
        ⟨y, [.ready, .ready], some 0, false⟩ ∧
      Calls.IsComplete ⟨y, [.ready, .ready], some 0, false⟩ [] sampleTool.jar) ∧
    ¬∀ w i, Reaches sampleTool [] Anytime (.start emptyDisk 2) w → w.phase? i = some .ready →
      w.IsComplete [] sampleTool.jar := by
  obtain ⟨hserial, hiff, -⟩ := jar_complete_unless_downloads_overlap sampleTool isFree_sampleTool
  refine ⟨?_, fun hall => absurd ((hiff 2).mp hall) (by decide)⟩
  have hd := isFree_sampleTool
  obtain ⟨y, hy, hholds⟩ := hd.write_of_lacks (fun _ => rfl) ByteArray.empty
  have hreach : Reaches sampleTool [] OneAtATime (.start emptyDisk 2)
      ⟨y, [.ready, .ready], some 0, false⟩ := by
    have hmissed : Reaches sampleTool [] OneAtATime (.start emptyDisk 2)
        ⟨emptyDisk, [.missing, .asking], none, false⟩ :=
      .tail .refl (.of_forall (by decide)) (.missed (i := 0) rfl hd.leads_eq_false)
    have hroomy := hmissed.tail (fun hask => by cases hask) (.roomy (i := 0) rfl hd.room)
    have hopened := hroomy.tail (fun hask => by cases hask) (.opened (i := 0) rfl hy)
    have hcompleted : Reaches sampleTool [] OneAtATime (.start emptyDisk 2)
        ⟨y, [.ready, .asking], some 0, false⟩ :=
      hopened.tail (fun hask => by cases hask) (.completed (i := 0) rfl)
    exact hcompleted.tail (.of_forall (by simp [Phase.isBusy]))
      (.found (i := 1) rfl (hd.leads_of_holds hholds))
  exact ⟨y, hreach, hserial 2 _ 0 hreach rfl⟩

end ClassViewer.JarTool
