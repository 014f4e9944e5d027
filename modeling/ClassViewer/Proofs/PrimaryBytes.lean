import ClassViewer.Proofs.Disk.Direct
import ClassViewer.Proofs.FreshScratch
import ClassViewer.Proofs.JarDownloads

/-!
# The class file that CFR is given

CFR is started on the file that the class was written to, with the classes around it written beside
it (`Cfr.Prepared`). These are told apart by the text of their paths, but a path may be spelled in
several ways (`ClassId.SamePlace`). A class that is written to the same place replaces the one
before (`Cfr.exists_answers`), and so the file holds the bytes of the last class that is listed for
the place and has some, or the given ones if there is none (`Cfr.tool_given_last_class_of_place`).
-/

namespace ClassViewer

open Disk (steps Fresh Filled)

/-! ## Classes of the same place -/

/-- The class paths differ in empty segments and dots only, so that they lead to the same place. -/
def ClassId.SamePlace (n id : ClassId) : Prop :=
  Path.trail ⟨n.classPath⟩ = Path.trail ⟨id.classPath⟩

instance (n id : ClassId) : Decidable (n.SamePlace id) :=
  inferInstanceAs (Decidable (Path.trail ⟨n.classPath⟩ = Path.trail ⟨id.classPath⟩))

theorem ClassId.classPath_injective {n id : ClassId} (h : n.classPath = id.classPath) : n = id := by
  have htext := congrArg (Text.dropTail classSuffix) h
  rw [classPath, classPath, Text.dropTail_append, Text.dropTail_append] at htext
  exact ClassId.ext htext

namespace Cfr

variable {scope : Scope} {id : ClassId} {bytes b : ByteArray} {s : Scratch} {g g' h : Host}
  {root : Route} {ground : Disk} {p : Path}

/-- Where a class lies in the scratch directory. -/
theorem trail_inner (path : String) :
    (Scratch.inner (classpathName ++ "/" ++ path)).trail = classpathName :: Path.trail ⟨path⟩ := by
  have hinner : Scratch.inner (classpathName ++ "/" ++ path) = ⟨classpathName ++ "/" ++ path⟩ := by
    rw [Scratch.inner, Text.dropLeading_eq_self]
    simp [classpathName]
  have hsteps := Path.steps_append_slash classpathName path
  have hname : steps classpathName = [classpathName] := by decide
  have hdot : (classpathName != ".") = true := by decide
  rw [hinner, Path.trail_eq, Path.trail_eq, hsteps, hname]
  simp [hdot]

/-- The bytes of the last answer for the place of a class, or those given. -/
def lastBytes (id : ClassId) (bytes : ByteArray) (answers : List (ClassId × Option ByteArray)) :
    ByteArray :=
  ((answers.filter fun a => a.1.SamePlace id).filterMap Prod.snd).getLast?.getD bytes

theorem lastBytes_cons (id n : ClassId) (bytes : ByteArray) (content : Option ByteArray)
    (answers : List (ClassId × Option ByteArray)) :
    lastBytes id bytes ((n, content) :: answers) =
      lastBytes id (if n.SamePlace id then content.getD bytes else bytes) answers := by
  unfold lastBytes
  by_cases hn : n.SamePlace id
  · rw [List.filter_cons_of_pos (by simpa using hn), if_pos hn]
    cases content with
    | none => rfl
    | some b =>
      rw [List.filterMap_cons_some (f := Prod.snd) (b := b) rfl, getLast?_cons_or]
      cases ((answers.filter fun a => a.1.SamePlace id).filterMap Prod.snd).getLast? <;> rfl
  · rw [List.filter_cons_of_neg (by simpa using hn), if_neg hn]

theorem lastBytes_of_forall_not {answers : List (ClassId × Option ByteArray)}
    (h : ∀ a ∈ answers, ¬a.1.SamePlace id) : lastBytes id bytes answers = bytes := by
  have hnone : (answers.filter fun a => a.1.SamePlace id) = [] := by simpa using h
  rw [lastBytes, hnone]
  rfl

/-- The answers that a source gave while the classes around another were written. -/
structure Answers (scope : Scope) (id : ClassId) (root : Path) (h : Host) (ids : List ClassId)
    (answers : List (ClassId × Option ByteArray)) : Prop where
  asked : answers.map Prod.fst = ids.filter fun n => n ≠ id
  given : ∀ a ∈ answers, ∃ k, h.ChangedWithin root k ∧ a.2 = contentIn scope k a.1.classPath

theorem Answers.cons {ids : List ClassId} {answers : List (ClassId × Option ByteArray)}
    {n : ClassId} {path : Path} (hc : h.ChangedWithin path g) (hn : n ≠ id)
    (ha : Answers scope id path g ids answers) :
    Answers scope id path h (n :: ids) ((n, contentIn scope h n.classPath) :: answers) where
  asked := by simp [ha.asked, hn]
  given a hmem := by
    rcases List.mem_cons.1 hmem with rfl | hmem
    · exact ⟨h, .refl h path, rfl⟩
    · obtain ⟨k, hk, hgiven⟩ := ha.given a hmem
      exact ⟨k, hc.trans hk, hgiven⟩

theorem Answers.mem_ids {ids : List ClassId} {answers : List (ClassId × Option ByteArray)}
    {path : Path} (ha : Answers scope id path h ids answers) {a : ClassId × Option ByteArray}
    (hmem : a ∈ answers) : a.1 ∈ ids ∧ a.1 ≠ id := by
  have hasked := List.mem_map_of_mem (f := Prod.fst) hmem
  rw [ha.asked] at hasked
  simpa using hasked

/-- Writing the classes around another leaves its file with the last of those for its place. -/
theorem exists_answers (hr : g.Reaches s.root)
    (hroot : ground.lookup g.here true s.root = .ok (root, .directory)) (hfresh : Fresh root ground)
    (hd : Filled root ground g.disk)
    (hg : g.Gives p (root ++ (classpathName :: Path.trail ⟨id.classPath⟩)) b) {ids : List ClassId}
    (hrun : (writeOthers s (.ofScope scope) id.classPath (ids.map ClassId.classPath)).run g =
      (.ok (), g')) :
    ∃ answers, Answers scope id s.root g ids answers ∧
      g'.Gives p (root ++ (classpathName :: Path.trail ⟨id.classPath⟩))
        (lastBytes id b answers) := by
  induction ids generalizing g b with
  | nil =>
    obtain ⟨-, rfl⟩ := Prod.mk.inj hrun
    exact ⟨[], ⟨rfl, by simp⟩, hg⟩
  | cons n ids ih =>
    have hcontent : ((Source.ofScope scope).content n.classPath).run g =
        (contentIn scope g n.classPath, g) := rfl
    rw [List.map_cons] at hrun
    unfold writeOthers at hrun
    by_cases hn : n = id
    · subst hn
      rw [if_pos rfl] at hrun
      obtain ⟨answers, ha, hgives⟩ := ih hr hroot hd hg hrun
      exact ⟨answers, ⟨by simp [ha.asked], ha.given⟩, hgives⟩
    · rw [if_neg fun hc => hn (ClassId.classPath_injective hc), Host.run_bind, hcontent] at hrun
      cases hbytes : contentIn scope g n.classPath with
      | none =>
        rw [hbytes] at hrun
        obtain ⟨answers, ha, hgives⟩ := ih hr hroot hd hg hrun
        refine ⟨(n, none) :: answers, ?_, ?_⟩
        · rw [← hbytes]
          exact ha.cons (.refl g s.root) hn
        · rw [lastBytes_cons]
          simpa using hgives
      | some c =>
        rw [hbytes] at hrun
        simp only [Host.run_bind] at hrun
        have hwithin := (s.writes g (classpathName ++ "/" ++ n.classPath) c).within hr
        rcases hwritten : (s.write (classpathName ++ "/" ++ n.classPath) c).run g with
          ⟨f | q, g₁⟩
        · rw [hwritten] at hrun
          cases hrun
        · rw [hwritten] at hrun hwithin
          have htrail : (Scratch.inner (classpathName ++ "/" ++ n.classPath)).trail ≠ [] := by
            simp [trail_inner]
          have hwrote := Scratch.wrote_of_run hroot hfresh hd htrail hwritten
          have hg₁ := hwrote.gives_of_gives hg
          rw [← hwrote.here] at hroot
          obtain ⟨answers, ha, hgives⟩ := ih (hwithin.reaches hr) hroot hwrote.filled hg₁ hrun
          refine ⟨(n, some c) :: answers, ?_, ?_⟩
          · rw [← hbytes]
            exact ha.cons hwithin hn
          · rw [lastBytes_cons]
            simpa [trail_inner, ClassId.SamePlace, eq_comm] using hgives

/-! ## Up to the start of the tool -/

/-- What is done before the tool is run, and the arguments it is then run with. -/
def prepare (classPath : String) (source : Source) (options : Options) (scratch : Scratch) :
    HostM (Except Failure (List String)) := do
  match ← source.content classPath with
  | none => return .error (.ofMessage ("Could not load class: " ++ classPath))
  | some bytes =>
    match ← scratch.write (classpathName ++ "/" ++ classPath) bytes with
    | .error f => return .error f
    | .ok target =>
      match ← extraClasspath scratch source classPath with
      | .error f => return .error f
      | .ok extra => return .ok (arguments target extra options)

/-- The tool is run as soon as it is prepared. -/
theorem run_toolText_of_prepare {tool : JarTool} {classPath : String} {source : Source}
    {options : Options} {args : List String}
    (hp : (prepare classPath source options s).run g = (.ok args, g')) :
    (toolText tool classPath source options s).run g = (tool.runForText "CFR" args).run g' := by
  unfold prepare at hp
  unfold toolText
  simp only [Host.run_bind] at hp ⊢
  generalize (source.content classPath).run g = found at hp ⊢
  obtain ⟨_ | bytes, g₁⟩ := found
  · cases hp
  · simp only [Host.run_bind] at hp ⊢
    generalize (s.write (classpathName ++ "/" ++ classPath) bytes).run g₁ = written at hp ⊢
    obtain ⟨f | target, g₂⟩ := written
    · cases hp
    · simp only [Host.run_bind] at hp ⊢
      generalize (extraClasspath s source classPath).run g₂ = classes at hp ⊢
      obtain ⟨f | extra, g₃⟩ := classes
      · cases hp
      · obtain ⟨hargs, rfl⟩ := Prod.mk.inj hp
        rw [← Except.ok.inj hargs]

theorem contentIn_primaryFirst_self (id : ClassId) (bytes : ByteArray) (scope : Scope) (h : Host) :
    contentIn (scope.primaryFirst id bytes) h id.classPath = some bytes :=
  (contentIn_eq_some_iff _ h id.text bytes).2 (Scope.offers_primaryFirst_self id bytes scope h)

theorem contentIn_primaryFirst_of_ne {n : ClassId} (hn : n ≠ id) (bytes : ByteArray) (scope : Scope)
    (h : Host) : contentIn (scope.primaryFirst id bytes) h n.classPath =
      contentIn scope h n.classPath := by
  have hname : n.text ≠ id.text := fun hc => hn (ClassId.ext hc)
  ext b
  rw [ClassId.classPath, contentIn_eq_some_iff, contentIn_eq_some_iff,
    Scope.offers_primaryFirst_of_ne id bytes scope h hname]

/-- The class itself is listed, and all others as the scope lists them. -/
theorem filter_classNames_primaryFirst (id : ClassId) (bytes : ByteArray) (scope : Scope)
    (h : Host) : ((scope.primaryFirst id bytes).classNames h).filter (fun n => n ≠ id) =
      (scope.classNames h).filter fun n => n ≠ id := by
  unfold Scope.primaryFirst
  dsimp only
  split
  · rfl
  · simp

/-- A decompilation has come to the point where the tool is run with those arguments : its scratch
directory was made and nothing lay there, the class was written to it, and the classes around it,
which come from no archive. -/
structure Prepared (id : ClassId) (bytes : ByteArray) (scope : Scope) (h : Host) (s : Scratch)
    (g g' : Host) (args : List String) : Prop where
  made : (Scratch.create "cfr").run h = (.ok s, g)
  fresh : ∀ root, g.disk.lookup g.here true s.root = .ok (root, .directory) → Fresh root g.disk
  loose : scope.archivePath = none
  prepared : (prepare id.classPath (.ofScope (scope.primaryFirst id bytes)) options s).run g =
    (.ok args, g')

/-- Where the class is written. -/
def target (s : Scratch) (id : ClassId) : Path := s.target (classpathName ++ "/" ++ id.classPath)

/-- The class was written, and then those around it. -/
theorem Prepared.exists_written {args : List String} (hp : Prepared id bytes scope h s g g' args) :
    ∃ g₁ q extra, (s.write (classpathName ++ "/" ++ id.classPath) bytes).run g = (.ok q, g₁) ∧
      args = arguments q extra options ∧
      (writeOthers s (.ofScope (scope.primaryFirst id bytes)) id.classPath
        (((scope.primaryFirst id bytes).classNames g₁).map ClassId.classPath)).run g₁ =
          (.ok (), g') := by
  have hcontent : ((Source.ofScope (scope.primaryFirst id bytes)).content id.classPath).run g =
      (some bytes, g) := congrArg (·, g) (contentIn_primaryFirst_self id bytes scope g)
  have hprepared := hp.prepared
  unfold prepare at hprepared
  rw [Host.run_bind, hcontent] at hprepared
  simp only [Host.run_bind] at hprepared
  generalize (s.write (classpathName ++ "/" ++ id.classPath) bytes).run g = written at hprepared
  obtain ⟨f | q, g₁⟩ := written
  · cases hprepared
  · have harchive : (Source.ofScope (scope.primaryFirst id bytes)).archivePath = none := hp.loose
    have hknown : (Source.ofScope (scope.primaryFirst id bytes)).knownPaths.run g₁ =
        (((scope.primaryFirst id bytes).classNames g₁).map ClassId.classPath, g₁) := rfl
    unfold extraClasspath at hprepared
    simp only [harchive, Host.run_bind, hknown] at hprepared
    rcases hothers : (writeOthers s (.ofScope (scope.primaryFirst id bytes)) id.classPath
      (((scope.primaryFirst id bytes).classNames g₁).map ClassId.classPath)).run g₁ with ⟨f | _, g₂⟩
    · rw [hothers] at hprepared
      cases hprepared
    · rw [hothers] at hprepared
      obtain ⟨hargs, hlast⟩ := Prod.mk.inj hprepared
      obtain rfl : g₂ = g' := hlast
      exact ⟨g₁, q, _, rfl, (Except.ok.inj hargs).symm, hothers⟩

/-- What the tool is given on the machine it is run on. -/
structure GivenClass (tool : JarTool) (id : ClassId) (bytes : ByteArray) (scope : Scope) (h : Host)
    (s : Scratch) (g g' : Host) (args : List String) : Prop where
  /-- This is a decompilation by the engine, in the scratch directory. -/
  engine : ∀ preserve, IsScratchRun
    ((Cfr.engine (ofTool tool)).decompile id bytes scope preserve) descriptor "cfr"
    (toolText tool id.classPath (.ofScope (scope.primaryFirst id bytes)) options) h
  /-- The first argument is the file of the class. -/
  first : args.head? = some (target s id).text
  /-- Nothing is done before the tool is run on this machine; if its jar is there, `java` is
  started at once. -/
  runs : (toolText tool id.classPath (.ofScope (scope.primaryFirst id bytes)) options s).run g =
    (tool.runForText "CFR" args).run g'
  starts : g'.leads tool.jar = true → (tool.run args).run g' = (tool.launch args).run g'
  /-- The file holds what the last class of this place had when it was asked for. -/
  last : ∃ k answers, g.ChangedWithin s.root k ∧
    Answers scope id s.root g (scope.classNames k) answers ∧
    g'.read (target s id) = .ok (lastBytes id bytes answers)
  /-- If no other class of this place is listed, it holds the bytes that were given. -/
  kept : (∀ k, g.ChangedWithin s.root k → ∀ n ∈ scope.classNames k, n.SamePlace id → n = id) →
    g'.read (target s id) = .ok bytes
  /-- If the scope answers as before whatever is written to the scratch directory, it holds the
  bytes of the last class of this place that has some. -/
  steady : (∀ k, g.ChangedWithin s.root k → scope.classNames k = scope.classNames g ∧
      ∀ n, contentIn scope k (ClassId.classPath n) = contentIn scope g n.classPath) →
    g'.read (target s id) = .ok
      ((((scope.classNames g).filter fun n => n ≠ id ∧ n.SamePlace id).filterMap fun n =>
        contentIn scope g n.classPath).getLast?.getD bytes)

/-- The file of the class when the tool is run. -/
theorem Prepared.exists_last {args : List String} (hp : Prepared id bytes scope h s g g' args) :
    ∃ k answers, g.ChangedWithin s.root k ∧
      Answers scope id s.root g (scope.classNames k) answers ∧
      g'.read (target s id) = .ok (lastBytes id bytes answers) := by
  obtain ⟨g₁, q, extra, hwritten, -, hothers⟩ := hp.exists_written
  have hdir := Scratch.isDirectory_of_create hp.made
  have hr := Host.reaches_of_isDirectory hdir
  obtain ⟨root, hroot⟩ := Host.exists_lookup_of_isDirectory hdir
  have hfresh := hp.fresh root hroot
  have htrail : (Scratch.inner (classpathName ++ "/" ++ id.classPath)).trail ≠ [] := by
    simp [trail_inner]
  have hwrote := Scratch.wrote_of_run hroot hfresh hfresh.filled htrail hwritten
  have hwithin := (s.writes g (classpathName ++ "/" ++ id.classPath) bytes).within hr
  rw [hwritten] at hwithin
  have hgives := hwrote.gives
  rw [trail_inner] at hgives
  rw [← hwrote.here] at hroot
  obtain ⟨answers, ha, hlast⟩ := exists_answers (hwithin.reaches hr) hroot hfresh hwrote.filled
    hgives hothers
  refine ⟨g₁, answers, hwithin, ⟨?_, fun a hmem => ?_⟩, hlast.read⟩
  · rw [ha.asked, filter_classNames_primaryFirst]
  · obtain ⟨k, hk, hgiven⟩ := ha.given a hmem
    exact ⟨k, hwithin.trans hk,
      hgiven.trans (contentIn_primaryFirst_of_ne (ha.mem_ids hmem).2 bytes scope k)⟩

/-- Where the scope always answers the same, the last answer can be told beforehand. -/
theorem Answers.lastBytes_eq {ids : List ClassId} {answers : List (ClassId × Option ByteArray)}
    {path : Path} (ha : Answers scope id path h ids answers)
    (hsteady : ∀ k, h.ChangedWithin path k → ∀ n,
      contentIn scope k (ClassId.classPath n) = contentIn scope h n.classPath) :
    lastBytes id bytes answers = ((ids.filter fun n => n ≠ id ∧ n.SamePlace id).filterMap fun n =>
      contentIn scope h n.classPath).getLast?.getD bytes := by
  have hanswers : answers = (ids.filter fun n => n ≠ id).map fun n =>
      (n, contentIn scope h n.classPath) := by
    rw [← ha.asked, List.map_map]
    refine (List.map_id answers).symm.trans (List.map_congr_left fun a hmem => ?_)
    obtain ⟨k, hk, hgiven⟩ := ha.given a hmem
    exact Prod.ext rfl (hgiven.trans (hsteady k hk a.1))
  have hfilter : ((ids.filter fun n => n ≠ id).filter fun n => n.SamePlace id) =
      ids.filter fun n => n ≠ id ∧ n.SamePlace id := by
    rw [List.filter_filter]
    refine List.filter_congr fun n _ => ?_
    rw [Bool.and_comm, Bool.decide_and]
  rw [lastBytes, hanswers, List.filter_map, List.filterMap_map, ← hfilter]
  rfl

/-- CFR is run on the file of the class, which holds the bytes of the last class that is listed for
the same place and has some, and the bytes that were given if there is no such class. -/
theorem tool_given_last_class_of_place (tool : JarTool) {args : List String}
    (hp : Prepared id bytes scope h s g g' args) :
    GivenClass tool id bytes scope h s g g' args where
  engine preserve := isScratchRun tool bytes scope preserve h id
  first := by
    obtain ⟨g₁, q, extra, hwritten, rfl, -⟩ := hp.exists_written
    rw [Scratch.eq_target_of_run hwritten]
    rfl
  runs := run_toolText_of_prepare hp.prepared
  starts hjar := by
    have hensure : tool.ensure.run g' = (.ok (), g') := by
      unfold JarTool.ensure
      rw [Host.run_get_bind, if_pos hjar]
      rfl
    exact JarTool.run_of_ensure hensure
  last := hp.exists_last
  kept hkept := by
    obtain ⟨k, answers, hk, ha, hlast⟩ := hp.exists_last
    have hnone : lastBytes id bytes answers = bytes := by
      refine lastBytes_of_forall_not fun a hmem hsame => ?_
      obtain ⟨hlisted, hne⟩ := ha.mem_ids hmem
      exact hne (hkept k hk a.1 hlisted hsame)
    rw [hlast, hnone]
  steady hsteady := by
    obtain ⟨k, answers, hk, ha, hlast⟩ := hp.exists_last
    rw [hlast, ha.lastBytes_eq fun k' hk' => (hsteady k' hk').2, (hsteady k hk).1]

/-! ## A class that is listed under two names -/

/-- A scope that lists a class by a path with a dot. -/
def dottedScope : Scope where
  canLoad _ name := name == "./B"
  load _ name := if name = "./B" then .ok ⟨⟨"./B"⟩, "other".toUTF8⟩ else .error (.notFound ⟨name⟩)
  classNames _ := [⟨"./B"⟩]
  archivePath := none

/-- A machine with a directory for temporary files and the jar of the tool. -/
def jarHost : Host :=
  { (default : Host) with
    disk := ⟨[(["tmp"], .directory), (["cfr.jar"], .file "jar".toUTF8 .nobody)], []⟩ }

/-- The scratch directory of the first run on this machine. -/
def jarScratch : Scratch := ⟨⟨"/tmp/class-lens-cfr-0-0-0"⟩⟩

/-- The machine with the scratch directory. -/
def scratchHost : Host :=
  { jarHost with
    scratchCount := 1
    disk := jarHost.disk.put ["tmp", "class-lens-cfr-0-0-0"] .directory }

/-- The machine with the directory for classes. -/
def classpathHost : Host :=
  { scratchHost with
    disk := scratchHost.disk.put ["tmp", "class-lens-cfr-0-0-0", "classpath"] .directory }

/-- The machine with the class. -/
def primaryHost : Host :=
  { classpathHost with
    disk := classpathHost.disk.put ["tmp", "class-lens-cfr-0-0-0", "classpath", "B.class"]
      (.file "primary".toUTF8 .nobody) }

/-- The machine with the class that is listed. -/
def otherHost : Host :=
  { primaryHost with
    disk := primaryHost.disk.alter ["tmp", "class-lens-cfr-0-0-0", "classpath", "B.class"]
      (.file "other".toUTF8 .nobody) }

theorem run_create_jarHost :
    (Scratch.create "cfr").run jarHost = (.ok jarScratch, scratchHost) := by
  have hroot : Scratch.newRoot jarHost "cfr" = jarScratch.root := by decide +kernel
  have hfree : jarHost.disk.locate jarHost.here .entry (Scratch.newRoot jarHost "cfr") =
      .ok (.vacant ["tmp"] "class-lens-cfr-0-0-0") := by
    rw [hroot]
    exact Disk.locate_of_leadsDirectly (by decide +kernel) .entry
  rw [Scratch.run_create_of_vacant hfree, hroot]
  rfl

theorem run_write_primary :
    (jarScratch.write "classpath/B.class" "primary".toUTF8).run scratchHost =
      (.ok (jarScratch.target "classpath/B.class"), primaryHost) := by
  have hroom : scratchHost.disk.locate scratchHost.here .entry
      ⟨"/tmp/class-lens-cfr-0-0-0/classpath"⟩ =
        .ok (.vacant ["tmp", "class-lens-cfr-0-0-0"] "classpath") :=
    Disk.locate_of_leadsDirectly (by decide +kernel) .entry
  have hfree : ∀ ending, classpathHost.disk.locate classpathHost.here ending
      (jarScratch.target "classpath/B.class") =
        .ok (.vacant ["tmp", "class-lens-cfr-0-0-0", "classpath"] "B.class") :=
    Disk.locate_of_leadsDirectly (by decide +kernel)
  have hmade := Disk.makeDirectories_of_vacant (by decide) hroom
  exact Scratch.run_write_of_above (by decide +kernel) (by decide +kernel) hmade
    (Host.run_write_of_vacant hfree "primary".toUTF8)

theorem run_write_other : (jarScratch.write "classpath/./B.class" "other".toUTF8).run primaryHost =
    (.ok (jarScratch.target "classpath/./B.class"), otherHost) := by
  have hroom : primaryHost.disk.lookup primaryHost.here true
      ⟨"/tmp/class-lens-cfr-0-0-0/classpath"⟩ =
        .ok (["tmp", "class-lens-cfr-0-0-0", "classpath"], .directory) :=
    Disk.lookup_of_leadsDirectly (by decide +kernel)
  have hfound : ∀ ending, primaryHost.disk.locate primaryHost.here ending
      (jarScratch.target "classpath/./B.class") =
        .ok (.found ["tmp", "class-lens-cfr-0-0-0", "classpath", "B.class"]
          (.file "primary".toUTF8 .nobody)) :=
    Disk.locate_of_leadsDirectly (by decide +kernel)
  have hstands : primaryHost.disk.isDirectory primaryHost.here
      ⟨"/tmp/class-lens-cfr-0-0-0/classpath"⟩ = true := by
    rw [Disk.isDirectory, hroom]
  have hmade := Disk.makeDirectories_of_isDirectory hstands
  exact Scratch.run_write_of_above (by decide +kernel) (by decide +kernel) hmade
    (Host.run_write_of_found hfound "other".toUTF8)

theorem run_writeOthers_dotted : (writeOthers jarScratch
      (.ofScope (dottedScope.primaryFirst ⟨"B"⟩ "primary".toUTF8)) "B.class"
      ["./B.class", "B.class"]).run primaryHost = (.ok (), otherHost) := by
  have hcontent : ((Source.ofScope (dottedScope.primaryFirst ⟨"B"⟩ "primary".toUTF8)).content
      "./B.class").run primaryHost = (some "other".toUTF8, primaryHost) := by
    have hother : contentIn (dottedScope.primaryFirst ⟨"B"⟩ "primary".toUTF8) primaryHost
        "./B.class" = some "other".toUTF8 := by decide +kernel
    exact congrArg (·, primaryHost) hother
  have hpath : classpathName ++ "/" ++ "./B.class" = "classpath/./B.class" := by decide
  rw [writeOthers, if_neg (by decide), Host.run_bind, hcontent, hpath]
  simp only [Host.run_bind, run_write_other]
  rw [writeOthers, if_pos rfl]
  rfl

/-- Both classes are written before the tool is run. -/
theorem prepared_dotted : Prepared ⟨"B"⟩ "primary".toUTF8 dottedScope jarHost jarScratch scratchHost
    otherHost (arguments (target jarScratch ⟨"B"⟩) (jarScratch.root.join ⟨classpathName⟩)
      options) where
  made := run_create_jarHost
  fresh root hroot := by
    have hthere : scratchHost.disk.lookup scratchHost.here true jarScratch.root =
        .ok (["tmp", "class-lens-cfr-0-0-0"], .directory) :=
      Disk.lookup_of_leadsDirectly (by decide +kernel)
    obtain rfl := congrArg Prod.fst (Except.ok.inj (hthere.symm.trans hroot))
    refine ⟨?_, by
      simp [Disk.Unshared, scratchHost, Disk.put, Disk.erase, Disk.eraseWhere, jarHost]⟩
    rintro r ⟨⟨rest, rfl⟩, hne⟩
    rw [scratchHost, Disk.item?_put _ _ _ (by simp), if_neg hne]
    simp [Disk.item?, jarHost, List.lookup_cons]
  loose := rfl
  prepared := by
    have hcontent : ((Source.ofScope (dottedScope.primaryFirst ⟨"B"⟩ "primary".toUTF8)).content
        (ClassId.classPath ⟨"B"⟩)).run scratchHost = (some "primary".toUTF8, scratchHost) :=
      congrArg (·, scratchHost) (contentIn_primaryFirst_self _ _ _ _)
    have hknown : (Source.ofScope
        (dottedScope.primaryFirst ⟨"B"⟩ "primary".toUTF8)).knownPaths.run primaryHost =
          (["./B.class", "B.class"], primaryHost) := rfl
    have harchive : (Source.ofScope (dottedScope.primaryFirst ⟨"B"⟩ "primary".toUTF8)).archivePath =
        none := rfl
    have hpath : classpathName ++ "/" ++ ClassId.classPath ⟨"B"⟩ = "classpath/B.class" := by decide
    have hclass : ClassId.classPath ⟨"B"⟩ = "B.class" := by decide
    rw [prepare, Host.run_bind, hcontent, hpath]
    simp only [Host.run_bind, run_write_primary, extraClasspath, harchive, hknown, hclass,
      run_writeOthers_dotted]
    rfl

/-- The tool is given the class that is listed in place of the one that was given. -/
theorem class_replaced_by_dotted_name : ∃ args,
    Prepared ⟨"B"⟩ "primary".toUTF8 dottedScope jarHost jarScratch scratchHost otherHost args ∧
      args.head? = some "/tmp/class-lens-cfr-0-0-0/classpath/B.class" ∧
      otherHost.leads ⟨"cfr.jar"⟩ = true ∧
      otherHost.read ⟨"/tmp/class-lens-cfr-0-0-0/classpath/B.class"⟩ = .ok "other".toUTF8 ∧
      "other".toUTF8 ≠ "primary".toUTF8 := by
  have hjar : otherHost.disk.lookup otherHost.here true ⟨"cfr.jar"⟩ =
      .ok (["cfr.jar"], .file "jar".toUTF8 .nobody) :=
    Disk.lookup_of_leadsDirectly (by decide +kernel)
  have hclass : otherHost.disk.lookup otherHost.here true
      ⟨"/tmp/class-lens-cfr-0-0-0/classpath/B.class"⟩ =
        .ok (["tmp", "class-lens-cfr-0-0-0", "classpath", "B.class"],
          .file "other".toUTF8 .nobody) := Disk.lookup_of_leadsDirectly (by decide +kernel)
  exact ⟨_, prepared_dotted, by decide +kernel, by rw [Host.leads, Disk.leads, hjar],
    by rw [Host.read, Disk.read, hclass], by decide⟩

/-- On this machine the tool is given the last class of the place, which is the one that is
listed. -/
theorem dotted_class_given : Prepared ⟨"B"⟩ "primary".toUTF8 dottedScope jarHost jarScratch
      scratchHost otherHost (arguments (target jarScratch ⟨"B"⟩)
        (jarScratch.root.join ⟨classpathName⟩) options) ∧
    GivenClass ⟨⟨"java"⟩, ⟨"cfr.jar"⟩, none⟩ ⟨"B"⟩ "primary".toUTF8 dottedScope jarHost jarScratch
      scratchHost otherHost (arguments (target jarScratch ⟨"B"⟩)
        (jarScratch.root.join ⟨classpathName⟩) options) :=
  ⟨prepared_dotted, tool_given_last_class_of_place _ prepared_dotted⟩

end Cfr

end ClassViewer
