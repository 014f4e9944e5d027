import ClassViewer.CommandLine.Program
import ClassViewer.Proofs.Disk.Changes

/-!
# The guard of the output

Decompiled text is not to replace what it was decompiled from. The guard refuses an output path
before anything is done, and a run that is refused changes nothing. An output that is accepted is
written over the file of an input exactly if the path leads there once the directories above it have
been made (`Host.Overwrites`), and it leads there only in the ways that the guard does not see
(`Overlooked`). `refusal_and_overlooked_inputs` states both.
-/

namespace ClassViewer

/-- The file that holds the class at a location : the class file itself, or the archive. -/
def Location.container? : Location → Option Path
  | file path => some path
  | archived archive _ => archive

/-! ## The output -/

namespace Host

/-- Makes the directories above an output path : whether that succeeds, and the disk after it. -/
def prepared (h : Host) (p : Path) : Except IoError Unit × Disk :=
  match p.parent? with
  | some above => if above.text = "" then (.ok (), h.disk) else h.disk.makeDirectories h.here above
  | none => (.ok (), h.disk)

/-- An output path is written over the file at a route. -/
def Overwrites (h : Host) (p : Path) (r : Route) : Prop :=
  (h.prepared p).1 = .ok () ∧ r ∈ (h.prepared p).2.overwritten h.here p

theorem extends_prepared (h : Host) (p : Path) : h.disk.Extends (h.prepared p).2 := by
  unfold prepared
  split
  · split
    · exact Disk.Extends.refl _
    · exact Disk.extends_makeDirectories _ _ _
  · exact Disk.Extends.refl _

/-- Writing a file does to the disk what the disk says, also if the file is a stream. -/
theorem disk_write (h : Host) (p : Path) (bytes : ByteArray) :
    ((Host.write p bytes).run h).2.disk = (h.disk.write h.here p bytes).toOption.getD h.disk := by
  unfold Host.write
  simp only [StateT.run_bind, StateT.run_get, pure_bind]
  split
  · rename_i r n hl
    exact (Disk.write_of_stream hl bytes).symm
  · unfold change
    simp only [StateT.run_bind, StateT.run_get, pure_bind]
    cases h.disk.write h.here p bytes with
    | ok d => rfl
    | error e => rfl

variable {h : Host} {p : Path} {r : Route} {b : ByteArray}

/-- What is only computed from an outcome leaves the machine as it is. -/
theorem run_bind_snd {α β : Type} {x : HostM α} {f : α → HostM β}
    (hf : ∀ a g, ((f a).run g).2 = g) (h : Host) : ((x >>= f).run h).2 = (x.run h).2 := by
  rw [StateT.run_bind]
  exact hf _ _

/-- An output is written once the directories above it have been made. -/
theorem run_writeOutput_of_ok {d : Disk} (hp : h.prepared p = (.ok (), d)) (content : String) :
    ((writeOutput p content).run h).2 =
      ((Host.write p content.toUTF8).run { h with disk := d }).2 := by
  unfold prepared at hp
  unfold writeOutput
  cases hpar : p.parent? with
  | none =>
    rw [hpar] at hp
    obtain rfl : h.disk = d := (Prod.mk.inj hp).2
    simp only [pure_bind]
    refine run_bind_snd (fun outcome g => ?_) h
    cases outcome <;> rfl
  | some above =>
    simp only [hpar] at hp
    by_cases ha : above.text = ""
    · rw [if_pos ha] at hp
      obtain rfl : h.disk = d := (Prod.mk.inj hp).2
      simp only [ha, if_true, pure_bind]
      refine run_bind_snd (fun outcome g => ?_) h
      cases outcome <;> rfl
    · rw [if_neg ha] at hp
      simp only [ha, if_false, Host.makeDirectories, StateT.run_bind, StateT.run_get, pure_bind, hp]
      refine run_bind_snd (fun outcome g => ?_) { h with disk := d }
      cases outcome <;> rfl

/-- If they cannot be made, nothing is written. -/
theorem run_writeOutput_of_error {e : IoError} {d : Disk} (hp : h.prepared p = (.error e, d))
    (content : String) : ((writeOutput p content).run h).2 = { h with disk := d } := by
  unfold prepared at hp
  unfold writeOutput
  cases hpar : p.parent? with
  | none =>
    rw [hpar] at hp
    cases hp
  | some above =>
    simp only [hpar] at hp
    by_cases ha : above.text = ""
    · rw [if_pos ha] at hp
      cases hp
    · rw [if_neg ha] at hp
      simp only [ha, if_false, Host.makeDirectories, StateT.run_bind, StateT.run_get, pure_bind, hp]
      rfl

/-- A file that the output is not written over keeps its bytes, whatever is written. -/
theorem bytesAt?_writeOutput_of_not (hn : ¬h.Overwrites p r) (hb : h.disk.bytesAt? r = some b)
    (content : String) :
    ((writeOutput p content).run h).2.disk.bytesAt? r = some b := by
  have hprep := (h.extends_prepared p).bytesAt? hb
  unfold Overwrites at hn
  rcases hp : h.prepared p with ⟨e | _, d⟩
  · rw [hp] at hprep
    rw [run_writeOutput_of_error hp]
    exact hprep
  · rw [hp] at hprep hn
    rw [run_writeOutput_of_ok hp, disk_write]
    cases hw : d.write h.here p content.toUTF8 with
    | error e => exact hprep
    | ok d' => exact Disk.bytesAt?_write_of_not_mem hw (fun hr => hn ⟨rfl, hr⟩) hprep

/-- A file that the output is written over has lost its bytes, unless they are what is written. -/
theorem bytesAt?_writeOutput_of (ho : h.Overwrites p r) (hb : h.disk.bytesAt? r = some b)
    {content : String} (hc : content.toUTF8 ≠ b) :
    ((writeOutput p content).run h).2.disk.bytesAt? r ≠ some b := by
  obtain ⟨hok, hr⟩ := ho
  have hp : h.prepared p = (.ok (), (h.prepared p).2) := Prod.ext hok rfl
  obtain ⟨d', hw, hbytes⟩ :=
    Disk.bytesAt?_write_of_mem content.toUTF8 hr (Disk.ne_nil_of_bytesAt? hb)
  rw [run_writeOutput_of_ok hp, disk_write, hw]
  exact fun he => hc (hbytes b he).symm

end Host

/-! ## The guard -/

theorem guardOutput_eq_ok_iff (h : Host) (output : Path) {locations : List Location}
    (hne : locations ≠ []) : guardOutput h output locations = .ok () ↔
      namesClassFile output = false ∧ ∀ q, .file q ∈ locations → sameFile h q output = false := by
  have hany : locations.any (replaces h output) = false ↔
      ∀ q, .file q ∈ locations → sameFile h q output = false := by
    rw [List.any_eq_false]
    constructor
    · exact fun hall q hq => by simpa [replaces] using hall _ hq
    · intro hall l hl
      cases l with
      | file q => simpa [replaces] using hall q hl
      | archived archive entry => simp [replaces]
  rw [← hany, ← Bool.or_eq_false_iff]
  unfold guardOutput
  split
  · rename_i htrue
    cases locations with
    | nil => exact absurd rfl hne
    | cons l rest =>
      rw [htrue]
      constructor
      · intro hok
        cases hok
      · intro hfalse
        cases hfalse
  · rename_i hfalse
    simpa using hfalse

/-- The ways in which an output path can lead to the file of a location, at a route of the disk it
is written to, and the guard does not see it : archives are not looked at, a path whose route is
unknown is only compared as it is written, and a file may have several routes. -/
inductive Overlooked (h : Host) (d : Disk) (output : Path) (r : Route) : Location → Prop
  | archived (archive : Option Path) (entry : String) :
      Overlooked h d output r (.archived archive entry)
  | output {q : Path} {e : IoError} : h.canonical output = .error e → q.same output = false →
      Overlooked h d output r (.file q)
  | input {q : Path} {e : IoError} : h.canonical q = .error e → q.same output = false →
      Overlooked h d output r (.file q)
  | shared {q : Path} {s : Route} : h.canonical output = .ok s → s ≠ r → r ∈ d.routesOf s →
      Overlooked h d output r (.file q)

/-- Where the guard lets an output pass that is written over the file of an input, it has overlooked
the file. -/
theorem overlooked_of_overwrites {h h' : Host} {output q : Path} {locations : List Location}
    {l : Location} {r : Route} {b : ByteArray} {x : Runners}
    (hg : guardOutput h output locations = .ok ()) (hl : l ∈ locations)
    (hq : l.container? = some q) (hr : h.disk.lookup h.here true q = .ok (r, .file b x))
    (hhere : h'.here = h.here) (hk : h.disk.Keeps h'.disk) (ho : h'.Overwrites output r) :
    Overlooked h (h'.prepared output).2 output r l := by
  cases l with
  | archived archive entry => exact .archived archive entry
  | file q' =>
    obtain rfl : q' = q := Option.some.inj hq
    have hsame := ((guardOutput_eq_ok_iff h output (List.ne_nil_of_mem hl)).mp hg).2 q' hl
    unfold sameFile at hsame
    cases hcq : h.canonical q' with
    | error e =>
      rw [hcq] at hsame
      exact .input hcq hsame
    | ok r' =>
      rw [hcq] at hsame
      cases hco : h.canonical output with
      | error e =>
        rw [hco] at hsame
        exact .output hco hsame
      | ok s =>
        rw [hco] at hsame
        obtain ⟨i, hfq⟩ := Disk.follow_of_canonical hcq
        rw [(Disk.locate_eq_ok_iff.mp (Disk.lookup_eq_ok_iff.mp hr)).2] at hfq
        obtain ⟨rfl, -⟩ := Disk.Spot.found.inj (Except.ok.inj hfq)
        obtain ⟨j, hfo⟩ := Disk.follow_of_canonical hco
        obtain ⟨j', hfo'⟩ :=
          Disk.follow_of_keeps (hk.trans (h'.extends_prepared output).keeps) hfo
        refine .shared hco ?_ (Disk.mem_routesOf_of_overwritten ho.2 (hhere ▸ hfo'))
        rintro rfl
        simp at hsame

/-! ## Runs -/

namespace CommandLine

/-- A run whose request is refused reports that, and does nothing else. -/
theorem run_of_refused {library : Database.Library} {args : List String} {i : Invocation}
    {h : Host} {f : Failure} (hp : parse (withSubcommand args) = .ok i)
    (hc : checkRequest h i.request = .error f) :
    (runProgramWith library args).run h =
      (1, { h with stderr := h.stderr ++ (failureReport f).toUTF8 }) := by
  have hinv : (runInvocation library i).run h = (.error f, h) := by
    unfold runInvocation
    simp only [StateT.run_bind, StateT.run_get, pure_bind]
    split
    · rename_i hreset
      rw [hreset] at hc
      cases hc
    · rw [hc]
      rfl
  unfold runProgramWith
  simp only [hp, StateT.run_bind, hinv]
  rfl

end CommandLine

open CommandLine

/-- A run whose output path is refused writes a report to the standard error and changes nothing
else. An output path that was accepted is written over the file of an input, whatever the machine is
by then, exactly if it leads there once the directories above it have been made; and where nothing
was removed from the disk since the guard looked, it leads there only if the guard has overlooked
the file. -/
theorem refusal_and_overlooked_inputs (h : Host) (output : Path) :
    (∀ {args globals locations engine noRealign format f},
      parse (withSubcommand args) =
        .ok ⟨globals, .decompile locations engine noRealign format (some output)⟩ →
      guardOutput h output (locations.map Location.parse) = .error f →
      (runProgram args).run h =
        (1, { h with stderr := h.stderr ++ (failureReport f).toUTF8 })) ∧
    (∀ {locations l q r b x}, guardOutput h output locations = .ok () → l ∈ locations →
      l.container? = some q → h.disk.lookup h.here true q = .ok (r, .file b x) →
      ∀ (h' : Host) (b' : ByteArray), h'.disk.bytesAt? r = some b' →
        (¬h'.Overwrites output r → ∀ content,
          ((writeOutput output content).run h').2.disk.bytesAt? r = some b') ∧
        (h'.Overwrites output r → ∀ content, content.toUTF8 ≠ b' →
          ((writeOutput output content).run h').2.disk.bytesAt? r ≠ some b') ∧
        (h'.here = h.here → h.disk.Keeps h'.disk → h'.Overwrites output r →
          Overlooked h (h'.prepared output).2 output r l)) := by
  refine ⟨fun hp hg => run_of_refused hp hg, ?_⟩
  intro locations l q r b x hg hl hq hr h' b' hb'
  refine ⟨fun hn => Host.bytesAt?_writeOutput_of_not hn hb', ?_, ?_⟩
  · exact fun ho content hc => Host.bytesAt?_writeOutput_of ho hb' hc
  · exact fun hhere hk ho => overlooked_of_overwrites hg hl hq hr hhere hk ho

/-! ## Inputs that are lost and inputs that are kept -/

open Disk

/-- A machine with one class file, in the directory it works in. -/
def widgetHost : Host :=
  { (default : Host) with disk := holding "Widget.bin" "class".toUTF8 }

/-- A machine with one archive, in the directory it works in. -/
def libraryHost : Host :=
  { (default : Host) with disk := holding "lib.jar" "archive".toUTF8 }

/-- The class file by a way through a directory that is not there. -/
def detour : Path := ⟨"new/../Widget.bin"⟩

theorem detour_form : steps detour.text = ["new", "..", "Widget.bin"] ∧
    detour.isAbsolute = false ∧ asksDirectory detour = false ∧
    Text.holds (Char.ofNat 0) detour.text = false ∧ detour.text ≠ "" ∧
    detour.text.utf8ByteSize < pathLimit ∧ "new".utf8ByteSize = 3 ∧
    "Widget.bin".utf8ByteSize = 10 := by
  decide

/-- When the guard looks, the way leads nowhere. -/
theorem canonical_detour : widgetHost.canonical detour = .error (.os .noEntry) := by
  have hroot : widgetHost.disk.item? [] = some .directory := rfl
  have hfree : widgetHost.disk.item? ["new"] = none := rfl
  have hhere : widgetHost.here = [] := rfl
  simp [Host.canonical, canonical, follow, resolve, nameLimit, detour_form, hhere, hroot, hfree]

/-- The directory on the way is made before the output is written. -/
theorem prepared_detour :
    widgetHost.prepared detour = (.ok (), widgetHost.disk.put ["new"] .directory) := by
  have hparents : detour.parent? = some ⟨"new/.."⟩ ∧ Path.parent? ⟨"new/.."⟩ = some ⟨"new"⟩ ∧
      (Path.components ⟨"new/.."⟩).length = 2 := by decide
  have hsteps : steps "new/.." = ["new", ".."] ∧ steps "new" = ["new"] := by decide
  have hforms : Path.isAbsolute ⟨"new/.."⟩ = false ∧ asksDirectory ⟨"new/.."⟩ = false ∧
      asksDirectory ⟨"new"⟩ = false ∧ Text.holds (Char.ofNat 0) "new/.." = false ∧
      Text.holds (Char.ofNat 0) "new" = false ∧ "new/..".utf8ByteSize = 6 ∧
      "new".utf8ByteSize = 3 := by decide
  have hhere : widgetHost.here = [] := rfl
  have hfree : widgetHost.disk.item? ["new"] = none ∧ widgetHost.disk.takesNames [] = true := by
    decide
  have hmade : (widgetHost.disk.put ["new"] .directory).item? ["new"] = some .directory := rfl
  have hroot : ∀ d : Disk, d.item? [] = some .directory := fun _ => rfl
  simp [Host.prepared, makeDirectories, makeDirectoriesUpTo, makeDirectory, isDirectory, lookup,
    locate, follow, resolve, IoError.isNotFound, nameLimit, pathLimit, hparents, hsteps, hforms,
    hhere, hfree, hmade, hroot]

/-- Then the way leads to the class file. -/
theorem overwrites_detour : widgetHost.Overwrites detour ["Widget.bin"] := by
  have hhere : widgetHost.here = [] := rfl
  have hmade : (widgetHost.disk.put ["new"] .directory).item? ["new"] = some .directory := rfl
  have hfile : (widgetHost.disk.put ["new"] .directory).item? ["Widget.bin"] =
      some (.file "class".toUTF8 .nobody) := rfl
  have hroutes : ["Widget.bin"] ∈
      (widgetHost.disk.put ["new"] .directory).routesOf ["Widget.bin"] := by decide
  have hlong : ¬pathLimit ≤ detour.text.utf8ByteSize := Nat.not_le.mpr detour_form.2.2.2.2.2.1
  rw [Host.Overwrites, prepared_detour]
  simp [overwritten, locate, follow, resolve, nameLimit, detour_form, hhere, hmade, hfile, hroutes,
    hlong]

theorem guardOutput_detour : guardOutput widgetHost detour [.file ⟨"Widget.bin"⟩] = .ok () := by
  refine (guardOutput_eq_ok_iff _ _ (by simp)).mpr ⟨by decide, ?_⟩
  intro q hq
  obtain rfl : q = ⟨"Widget.bin"⟩ := by simpa using hq
  have hdiff : Path.same ⟨"Widget.bin"⟩ detour = false := by decide
  simp [sameFile, canonical_detour, hdiff]

/-- The archive itself is overwritten if it is named as the output. -/
theorem overwrites_library : libraryHost.Overwrites ⟨"lib.jar"⟩ ["lib.jar"] := by
  have hprep : libraryHost.prepared ⟨"lib.jar"⟩ = (.ok (), libraryHost.disk) := by
    have hparent : Path.parent? ⟨"lib.jar"⟩ = some ⟨""⟩ := by decide
    simp [Host.prepared, hparent]
  rw [Host.Overwrites, hprep]
  have hplain : isPlain "lib.jar" = true := by decide
  have hloc : libraryHost.disk.locate libraryHost.here .writing ⟨"lib.jar"⟩ =
      .ok (.found ["lib.jar"] (.file "archive".toUTF8 .nobody)) := locate_holding hplain _ .writing
  refine ⟨rfl, ?_⟩
  unfold overwritten
  rw [hloc]
  decide

/-- The guard accepts an output that leads to the input once a directory has been made, and an
output that is the archive of the input; both inputs are lost. -/
theorem accepted_outputs_replace_inputs :
    (guardOutput widgetHost detour [.file ⟨"Widget.bin"⟩] = .ok () ∧
      widgetHost.disk.bytesAt? ["Widget.bin"] = some "class".toUTF8 ∧
      ((writeOutput detour "text").run widgetHost).2.disk.bytesAt? ["Widget.bin"] ≠
        some "class".toUTF8) ∧
    (guardOutput libraryHost ⟨"lib.jar"⟩ [.archived (some ⟨"lib.jar"⟩) "a/B.class"] = .ok () ∧
      libraryHost.disk.bytesAt? ["lib.jar"] = some "archive".toUTF8 ∧
      ((writeOutput ⟨"lib.jar"⟩ "text").run libraryHost).2.disk.bytesAt? ["lib.jar"] ≠
        some "archive".toUTF8) := by
  refine ⟨⟨guardOutput_detour, rfl, ?_⟩, ?_, rfl, ?_⟩
  · exact Host.bytesAt?_writeOutput_of overwrites_detour rfl (by decide +kernel)
  · exact (guardOutput_eq_ok_iff _ _ (by simp)).mpr ⟨by decide +kernel, by simp⟩
  · exact Host.bytesAt?_writeOutput_of overwrites_library rfl (by decide +kernel)

theorem sameFile_self (h : Host) (p : Path) : sameFile h p p = true := by
  unfold sameFile
  split
  · simp_all
  · simp [Path.same]

theorem parse_widget : parse (withSubcommand ["decompile", "Widget.bin", "-o", "Widget.bin"]) =
    .ok ⟨⟨none, none, none, none, none, false⟩,
      .decompile ["Widget.bin"] none false .text (some ⟨"Widget.bin"⟩)⟩ := by
  have hsome : (parse (withSubcommand ["decompile", "Widget.bin", "-o", "Widget.bin"])).toOption =
      some ⟨⟨none, none, none, none, none, false⟩,
        .decompile ["Widget.bin"] none false .text (some ⟨"Widget.bin"⟩)⟩ := by decide
  generalize parse (withSubcommand ["decompile", "Widget.bin", "-o", "Widget.bin"]) = read at hsome
  cases read with
  | error e => cases hsome
  | ok i => exact congrArg _ (Option.some.inj hsome)

/-- A new file beside the class file. -/
def sourceFile : Path := ⟨"Widget.java"⟩

theorem sourceFile_form : steps sourceFile.text = ["Widget.java"] ∧
    sourceFile.isAbsolute = false ∧ asksDirectory sourceFile = false ∧
    Text.holds (Char.ofNat 0) sourceFile.text = false ∧ sourceFile.text ≠ "" ∧
    sourceFile.text.utf8ByteSize = 11 ∧ "Widget.java".utf8ByteSize = 11 ∧
    sourceFile.parent? = some ⟨""⟩ := by
  decide

theorem follow_sourceFile (ending : Ending) :
    widgetHost.disk.follow widgetHost.here ending sourceFile = .ok (.vacant [] "Widget.java") := by
  have hhere : widgetHost.here = [] := rfl
  have hfree : widgetHost.disk.item? ["Widget.java"] = none ∧
      widgetHost.disk.takesNames [] = true := by decide
  simp [follow, resolve, nameLimit, sourceFile_form, hhere, hfree]

theorem guardOutput_sourceFile :
    guardOutput widgetHost sourceFile [.file ⟨"Widget.bin"⟩] = .ok () := by
  refine (guardOutput_eq_ok_iff _ _ (by simp)).mpr ⟨by decide, ?_⟩
  intro q hq
  obtain rfl : q = ⟨"Widget.bin"⟩ := by simpa using hq
  have hdiff : Path.same ⟨"Widget.bin"⟩ sourceFile = false := by decide
  have hcan : widgetHost.canonical sourceFile = .error (.os .noEntry) := by
    have hhere : widgetHost.disk.item? widgetHost.here = some .directory := rfl
    simp [Host.canonical, canonical, follow_sourceFile, hhere]
  simp [sameFile, hcan, hdiff]

theorem not_overwrites_sourceFile (r : Route) : ¬widgetHost.Overwrites sourceFile r := by
  have hprep : widgetHost.prepared sourceFile = (.ok (), widgetHost.disk) := by
    simp [Host.prepared, sourceFile_form]
  simp [Host.Overwrites, hprep, overwritten, locate, follow_sourceFile, sourceFile_form, pathLimit]

/-- The class file itself is refused as the output, a new file is accepted and leaves the class file
alone, and the detour is overlooked. -/
theorem refused_kept_and_overlooked_widget :
    (runProgram ["decompile", "Widget.bin", "-o", "Widget.bin"]).run widgetHost =
      (1, { widgetHost with stderr := widgetHost.stderr ++ (failureReport
        ⟨"Refusing to write to Widget.bin", ["Decompiled source is read-only"]⟩).toUTF8 }) ∧
    ((writeOutput sourceFile "text").run widgetHost).2.disk.bytesAt? ["Widget.bin"] =
      some "class".toUTF8 ∧
    Overlooked widgetHost (widgetHost.prepared detour).2 detour ["Widget.bin"]
      (.file ⟨"Widget.bin"⟩) := by
  have hplain : isPlain "Widget.bin" = true := by decide +kernel
  have hlookup : widgetHost.disk.lookup widgetHost.here true ⟨"Widget.bin"⟩ =
      .ok (["Widget.bin"], .file "class".toUTF8 .nobody) := lookup_holding hplain _
  have hsame : guardOutput widgetHost ⟨"Widget.bin"⟩ (["Widget.bin"].map Location.parse) =
      .error ⟨"Refusing to write to Widget.bin", ["Decompiled source is read-only"]⟩ := by
    have hparse : ["Widget.bin"].map Location.parse = [.file ⟨"Widget.bin"⟩] := by decide +kernel
    simp [guardOutput, hparse, replaces, sameFile_self]
    rfl
  refine ⟨?_, ?_, ?_⟩
  · exact (refusal_and_overlooked_inputs widgetHost ⟨"Widget.bin"⟩).1 parse_widget hsame
  · exact ((refusal_and_overlooked_inputs widgetHost sourceFile).2 guardOutput_sourceFile
      List.mem_cons_self rfl hlookup widgetHost _ rfl).1 (not_overwrites_sourceFile _) "text"
  · exact ((refusal_and_overlooked_inputs widgetHost detour).2 guardOutput_detour
      List.mem_cons_self rfl hlookup widgetHost _ rfl).2.2 rfl (Keeps.refl _) overwrites_detour

end ClassViewer
