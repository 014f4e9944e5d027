import ClassViewer.Proofs.OutputLines
import ClassViewer.Proofs.PrimaryBytes
import ClassViewer.Proofs.SourceFiles
import ClassViewer.Proofs.Utf8

/-!
# What the engines make of the output of tools

A tool is run in a scratch directory once the files for it are written there (`ToolRequest.Ran`).
Each section follows the output of one tool through the calls of its back end. What a tool prints
is replayed without line numbers, and what Vineflower saves has none, so that nothing is realigned :
`tools_tell_output` says that the text is made of the output alone, and of bytes what they decode
to.
-/

namespace ClassViewer

/-- A request to decompile a class with a tool on a machine. -/
structure ToolRequest where
  tool : JarTool
  name : String
  bytes : ByteArray
  scope : Scope
  preserve : Bool
  host : Host

namespace ToolRequest

/-- The class of a request. -/
def id (r : ToolRequest) : ClassId := .ofName r.name

/-- What an engine over the tool gives for a request. -/
def result (r : ToolRequest) (engine : JarTool → Engine) : Except DecompileError String :=
  (((engine r.tool).decompile r.id r.bytes r.scope r.preserve).run r.host).1

/-- The tool was run to its end for a request, with the arguments that were prepared for it in a
scratch directory. -/
def Ran (r : ToolRequest) (label : String)
    (prepare : Scratch → HostM (Except Failure (List String))) (s : Scratch) (finished : Finished)
    (after : Host) : Prop :=
  ∃ made args ready, (Scratch.create label).run r.host = (.ok s, made) ∧
    (prepare s).run made = (.ok args, ready) ∧
    (r.tool.run args).run ready = (.ok finished, after)

/-- The tool was run for a request, succeeded and printed those bytes. -/
def Prints (r : ToolRequest) (label : String)
    (prepare : Scratch → HostM (Except Failure (List String))) (stdout : ByteArray) : Prop :=
  ∃ s finished after, r.Ran label prepare s finished after ∧
    finished.status.isSuccess = true ∧ finished.stdout = stdout

end ToolRequest

/-- For every request the engine gives the text that the output of the tool comes to, and so the
same for all requests with the same output, whether lines are preserved or not. -/
structure TellsOutput {Output : Type} (d : Descriptor)
    (result : ToolRequest → Except DecompileError String)
    (Ended : ToolRequest → Output → Prop) (text : Output → String) : Prop where
  told : ∀ r output, Ended r output → result r = .ok (withFooter (text output) d)
  same : ∀ r r' output, Ended r output → Ended r' output → result r = result r'

variable {r : ToolRequest} {s : Scratch} {g g' h : Host} {args : List String} {stdout : ByteArray}

theorem tellsOutput_of {Output : Type} {d : Descriptor}
    {result : ToolRequest → Except DecompileError String} {Ended : ToolRequest → Output → Prop}
    {text : Output → String}
    (h : ∀ r output, Ended r output → result r = .ok (withFooter (text output) d)) :
    TellsOutput d result Ended text :=
  ⟨h, fun r r' output hr hr' => (h r output hr).trans (h r' output hr').symm⟩

/-! ## Runs in a scratch directory -/

theorem Scratch.run_within_of_create {α : Type} {label : String}
    (hmade : (Scratch.create label).run h = (.ok s, g)) (f : Scratch → HostM (Except Failure α)) :
    ((Scratch.within label f).run h).1 = ((f s).run g).1 := by
  unfold Scratch.within
  rw [Host.run_bind, hmade]
  rfl

theorem JarTool.run_runForText {tool : JarTool} {finished : Finished} (label : String)
    (hran : (tool.run args).run g = (.ok finished, g'))
    (hsuccess : finished.status.isSuccess = true) :
    ((tool.runForText label args).run g).1 = .ok (Text.Utf8.decodeLossy finished.stdout) := by
  unfold runForText
  rw [Host.run_bind, hran]
  exact if_pos hsuccess

/-- What is run for its text once it is prepared gives what was printed. -/
theorem ToolRequest.Prints.run_within {label toolName : String}
    {prepare : Scratch → HostM (Except Failure (List String))}
    {toolText : Scratch → HostM (Except Failure String)}
    (hp : r.Prints label prepare stdout)
    (htext : ∀ s g args g', (prepare s).run g = (.ok args, g') →
      (toolText s).run g = (r.tool.runForText toolName args).run g') :
    ((Scratch.within label toolText).run r.host).1 = .ok (Text.Utf8.decodeLossy stdout) := by
  obtain ⟨s, finished, after, ⟨made, args, ready, hmade, hready, hran⟩, hsuccess, rfl⟩ := hp
  rw [Scratch.run_within_of_create hmade, htext s made args ready hready,
    JarTool.run_runForText toolName hran hsuccess]

/-! ## CFR -/

namespace Cfr

/-- CFR was run for a request and printed those bytes. -/
def Printed (r : ToolRequest) : ByteArray → Prop :=
  r.Prints "cfr" (prepare r.id.classPath (.ofScope (r.scope.primaryFirst r.id r.bytes)) options)

theorem render_text (preserve : Bool) (text : String) : render preserve [.text text] = text := by
  have hsent : sentText [.text text] = text := by simp [sentText, Call.textPart, Text.join]
  cases preserve with
  | false => rw [render_false, hsent]
  | true =>
    rw [render_true, hsent]
    exact realign_of_noneUsable text (List.forall_mem_nil _)

theorem result_of_printed (hp : Printed r stdout) : r.result (fun tool => engine (ofTool tool)) =
    .ok (withFooter (Text.Utf8.decodeLossy stdout) descriptor) := by
  have hwithin : ((Scratch.within "cfr" (toolText r.tool r.id.classPath
      (.ofScope (r.scope.primaryFirst r.id r.bytes)) options)).run r.host).1 = _ :=
    hp.run_within fun _ _ _ _ => run_toolText_of_prepare
  rw [ToolRequest.result, run_decompile, ofTool, Host.run_bind, hwithin]
  exact congrArg (fun text => Except.ok (withFooter text descriptor)) (render_text r.preserve _)

end Cfr

/-! ## JD-Core -/

namespace JdCore

/-- What is done before the tool is run, and the arguments it is then run with. -/
def prepare (loader : Scope) (name : String) (scratch : Scratch) :
    HostM (Except Failure (List String)) := do
  match loader.load (← get) name with
  | .error e => return .error (.ofError e)
  | .ok blob =>
    match ← scratch.write blob.id.classPath blob.bytes with
    | .error f => return .error f
    | .ok target => return .ok ["--outputConsole", target.text]

/-- JD-Core was run for a request and printed those bytes. -/
def Printed (r : ToolRequest) : ByteArray → Prop :=
  r.Prints "jd" (prepare (r.scope.primaryFirst r.id r.bytes) r.id.text)

theorem run_toolText_of_prepare {tool : JarTool} {loader : Scope} {name : String}
    (hp : (prepare loader name s).run g = (.ok args, g')) :
    (toolText tool loader name s).run g = (tool.runForText "JD-Core" args).run g' := by
  unfold prepare at hp
  unfold toolText
  rw [Host.run_get_bind] at hp ⊢
  cases hload : loader.load g name with
  | error e =>
    rw [hload] at hp
    cases hp
  | ok blob =>
    simp only [hload, Host.run_bind] at hp ⊢
    generalize (s.write blob.id.classPath blob.bytes).run g = written at hp ⊢
    obtain ⟨f | target, g₁⟩ := written
    · cases hp
    · obtain ⟨hargs, rfl⟩ := Prod.mk.inj hp
      rw [← Except.ok.inj hargs]

/-- Each line is printed with its end. -/
theorem sentText_flatMap_lineCalls (lines : List String) (calls : List Call) :
    sentText 0 (lines.flatMap lineCalls ++ calls) =
      Text.join "" (lines.map (· ++ "\n")) ++ sentText 0 calls := by
  induction lines with
  | nil => simp [Text.join]
  | cons line lines ih =>
    rw [List.flatMap_cons, List.append_assoc, List.map_cons, Text.join_empty_cons,
      String.append_assoc, ← ih]
    simp [lineCalls, sentText, Call.written, Call.indentsAfter, Text.join, String.append_assoc]

/-- A text that is replayed line by line ends its last line, and newlines end all others. -/
theorem render_replay (preserve : Bool) (text : String) :
    render preserve (replay text) = Text.endLine (Text.unixText text) := by
  have hsent : sentText 0 (replay text) = Text.endLine (Text.unixText text) := by
    have hstart : sentText 0 (replay text) =
        "" ++ sentText 0 ((Text.outputLines text).flatMap lineCalls ++ [.finish]) := rfl
    have hfinish : sentText 0 [.finish] = "" := rfl
    rw [hstart, sentText_flatMap_lineCalls, hfinish, Text.join_outputLines, String.empty_append,
      String.append_empty]
  have hunannounced : ∀ maxLine major minor, .start maxLine major minor ∈ replay text →
      maxLine = 0 := by
    intro maxLine major minor hm
    have hzero : maxLine = 0 ∧ major = 0 ∧ minor = 0 := by simpa [replay, lineCalls] using hm
    exact hzero.1
  cases preserve with
  | false => rw [render_false, hsent]
  | true =>
    rw [render_true, hsent, sentPairs_eq_nil hunannounced]
    exact realign_of_noneUsable _ (List.forall_mem_nil _)

theorem result_of_printed (hp : Printed r stdout) : r.result (fun tool => engine (ofTool tool)) =
    .ok (withFooter (Text.endLine (Text.unixText (Text.Utf8.decodeLossy stdout))) descriptor) := by
  have hwithin : ((Scratch.within "jd" (toolText r.tool (r.scope.primaryFirst r.id r.bytes)
      r.id.text)).run r.host).1 = _ := hp.run_within fun _ _ _ _ => run_toolText_of_prepare
  rw [ToolRequest.result, run_decompile, ofTool, Host.run_bind, hwithin]
  exact congrArg (fun text => Except.ok (withFooter text descriptor)) (render_replay r.preserve _)

end JdCore

/-! ## Procyon -/

namespace Procyon

/-- What is done before the tool is run, and the arguments it is then run with. -/
def prepare (name : String) (bytes : ByteArray) (settings : Settings) (scratch : Scratch) :
    HostM (Except Failure (List String)) := do
  match ← scratch.write (name ++ classSuffix) bytes with
  | .error f => return .error f
  | .ok target => return .ok (flags settings ++ [target.text])

/-- Procyon was run for a request and printed those bytes. -/
def Printed (r : ToolRequest) : ByteArray → Prop :=
  r.Prints "procyon" (prepare r.id.text r.bytes settings)

theorem run_toolText_of_prepare {tool : JarTool} {name : String} {bytes : ByteArray}
    {settings : Settings} (hp : (prepare name bytes settings s).run g = (.ok args, g')) :
    (toolText tool name bytes settings s).run g = (tool.runForText "Procyon" args).run g' := by
  unfold prepare at hp
  unfold toolText
  simp only [Host.run_bind] at hp ⊢
  generalize (s.write (name ++ classSuffix) bytes).run g = written at hp ⊢
  obtain ⟨f | target, g₁⟩ := written
  · cases hp
  · obtain ⟨hargs, rfl⟩ := Prod.mk.inj hp
    rw [← Except.ok.inj hargs]

/-- The class of a request is loaded with its bytes, and so the tool is run on them. -/
theorem result_of_printed (hp : Printed r stdout) : r.result (fun tool => engine (ofTool tool)) =
    .ok (withFooter (Text.Utf8.decodeLossy stdout) descriptor) := by
  have hwithin : ((Scratch.within "procyon" (toolText r.tool r.id.text r.bytes settings)).run
      r.host).1 = _ := hp.run_within fun _ _ _ _ => run_toolText_of_prepare
  have hload := (Askers.allGive_primaryFirst r.name r.bytes r.scope).tryLoad r.host ByteArray.empty
  simp only [Askers.primaryFirst] at hload
  have hran : ((ofTool r.tool r.id.text (.ofScope (r.scope.primaryFirst r.id r.bytes))
      settings).run r.host).1 = .ok (Text.Utf8.decodeLossy stdout) := by
    simp only [ofTool, Host.run_bind, ToolRequest.id, hload, if_true]
    exact hwithin
  rw [ToolRequest.result, run_decompile, hran, finish]

end Procyon

/-! ## Vineflower -/

namespace Vineflower

/-- The output directory in a scratch directory. -/
def outputOf (scratch : Scratch) : Path := scratch.root.join ⟨"out"⟩

/-- What is done before the tool is run, and the arguments it is then run with. -/
def prepare (source : Path) (bytes : ByteArray) (options : Options) (scratch : Scratch) :
    HostM (Except Failure (List String)) := do
  match ← scratch.write ("in/" ++ fileNameOf source) bytes with
  | .error f => return .error f
  | .ok target =>
    match ← Host.makeDirectories (outputOf scratch) with
    | .error e => return .error (.ofIo e)
    | .ok () => return .ok (arguments options target (outputOf scratch))

/-- Vineflower was run for a request and left those source files, and those bytes on its standard
error. -/
def Left (r : ToolRequest) (output : List (Route × String) × ByteArray) : Prop :=
  ∃ s finished after place,
    r.Ran "vineflower" (prepare (sourcePath r.host r.id) r.bytes (options r.preserve)) s finished
      after ∧
    finished.status.isSuccess = true ∧ finished.stderr = output.2 ∧
    Leaves after (outputOf s) place output.1

theorem run_runTool_of_prepare {tool : JarTool} {source : Path} {bytes : ByteArray}
    {options : Options} {finished : Finished} {after : Host}
    (hp : (prepare source bytes options s).run g = (.ok args, g'))
    (hran : (tool.run args).run g' = (.ok finished, after)) :
    (runTool tool source bytes options s).run g =
      (.ok (reportOf after (outputOf s) finished), after) := by
  unfold prepare at hp
  unfold runTool
  simp only [Host.run_bind] at hp ⊢
  generalize (s.write ("in/" ++ fileNameOf source) bytes).run g = written at hp ⊢
  obtain ⟨f | target, g₁⟩ := written
  · cases hp
  · simp only [Host.run_bind, outputOf] at hp ⊢
    generalize (Host.makeDirectories (s.root.join ⟨"out"⟩)).run g₁ = made at hp ⊢
    obtain ⟨e | _, g₂⟩ := made
    · cases hp
    · obtain ⟨hargs, rfl⟩ := Prod.mk.inj hp
      obtain rfl := Except.ok.inj hargs
      simp only [Host.run_bind, hran]
      rfl

/-- The output directory is not mistaken for the standard input. -/
theorem outputOf_same_dash (scratch : Scratch) : (outputOf scratch).same ⟨"-"⟩ = false := by
  have hname : Path.IsEntryName "out" := ⟨by decide, by decide, by decide, by decide⟩
  have hdash : (⟨"-"⟩ : Path).components = [.name "-"] := by decide
  rw [Path.same, beq_eq_false_iff_ne, outputOf, Path.components_join_name hname, hdash]
  intro hc
  have hlast := congrArg List.getLast? hc
  simp at hlast

/-- The class of a request is found under its path outside. -/
theorem result_of_left {output : List (Route × String) × ByteArray} (hleft : Left r output) :
    r.result (fun tool => engine (ofTool tool)) =
      .ok (withFooter (shown output.1 output.2) descriptor) := by
  obtain ⟨s, finished, after, place, ⟨made, args, ready, hmade, hready, hran⟩, hsuccess, hstderr,
    hleaves⟩ := hleft
  have hload := (Askers.allGive_primaryFirst r.name r.bytes r.scope).bytecode r.host
    r.host.temporary
  simp only [Askers.primaryFirst] at hload
  have hreport : ((ofTool r.tool (sourcePath r.host r.id)
      (.ofScope (r.scope.primaryFirst r.id r.bytes) r.id) (options r.preserve)).run r.host).1 =
        reportOf after (outputOf s) finished := by
    have hwithin := Scratch.run_within_of_create hmade
      (runTool r.tool (sourcePath r.host r.id) r.bytes (options r.preserve))
    rw [run_runTool_of_prepare hready hran] at hwithin
    have hsource : (sourcePath r.host r.id).text =
        (r.host.temporary.join ⟨(ClassId.ofName r.name).classPath⟩).text := rfl
    rw [← hsource] at hload
    simp only [ofTool, Host.run_bind, ToolRequest.id] at hwithin hload ⊢
    rw [hload]
    simp only [Host.run_bind, hwithin]
    rfl
  rw [ToolRequest.result, run_decompile, hreport,
    finish_reportOf hleaves (outputOf_same_dash s) hsuccess, hstderr]

/-- Vineflower was run for a request and succeeded : no ignore file lies in its output directory,
below it or above it, and every source file below it is UTF-8. -/
structure Succeeds (r : ToolRequest) (s : Scratch) (finished : Finished) (after : Host)
    (place : Route) : Prop where
  ran : r.Ran "vineflower" (prepare (sourcePath r.host r.id) r.bytes (options r.preserve)) s
    finished after
  success : finished.status.isSuccess = true
  proper : after.disk.Proper
  leads : after.disk.lookup after.here true (outputOf s) = .ok (place, .directory)
  unruled : after.disk.Unruled place
  utf8 : ∀ names, after.disk.IsKindBelow after.here sourceExtension (outputOf s) place names →
    ∃ text, after.readText (Disk.pathBelow (outputOf s) names) = .ok text

/-- Such a run has left some source files. -/
theorem Succeeds.exists_left {finished : Finished} {after : Host} {place : Route}
    (h : Succeeds r s finished after place) : ∃ files, Left r (files, finished.stderr) := by
  obtain ⟨files, hleaves⟩ :=
    exists_leaves h.proper h.leads h.unruled (outputOf_same_dash s) h.utf8
  exact ⟨files, s, finished, after, place, h.ran, h.success, rfl, hleaves⟩

end Vineflower

/-! ## All tools -/

namespace Garbled

/-- A comment with a byte that begins no character and the first byte of one that is cut off, a line
end of two characters, and the beginning of another line. -/
def output : ByteArray := ⟨#[0x2F, 0x2F, 0xFF, 0xC3, 0x0D, 0x0A, 0x7D]⟩

def finished : Finished := ⟨.code 0, output, ByteArray.empty⟩

/-- Programs of which `/java` prints this, whatever it is started with. -/
def programs : Programs where
  start _ _ _ name _ :=
    if name = "/java" then .ok fun d m _ _ _ => some (finished, d, m) else .error (.os .noEntry)

/-- A machine with these programs and a jar. -/
def host : Host :=
  { (default : Host) with
    disk := ⟨[(["tmp"], .directory), (["tool.jar"], .file "jar".toUTF8 .nobody)], []⟩
    programs := programs }

/-- The tool on this machine. -/
def tool : JarTool := ⟨⟨"/java"⟩, ⟨"/tool.jar"⟩, none⟩

/-- A request with preserved lines. -/
def request : ToolRequest := ⟨tool, "B", "x".toUTF8, .nothing, true, host⟩

def scratch : Scratch := ⟨⟨"/tmp/class-lens-jd-0-0-0"⟩⟩

/-- The machine with the scratch directory. -/
def made : Host :=
  { host with
    scratchCount := 1
    disk := host.disk.put ["tmp", "class-lens-jd-0-0-0"] .directory }

/-- The machine with the class. -/
def ready : Host :=
  { made with
    disk := made.disk.put ["tmp", "class-lens-jd-0-0-0", "B.class"] (.file "x".toUTF8 .nobody) }

def arguments : List String := ["--outputConsole", "/tmp/class-lens-jd-0-0-0/B.class"]

theorem run_create : (Scratch.create "jd").run host = (.ok scratch, made) := by
  have hroot : Scratch.newRoot host "jd" = scratch.root := by rfl
  have hfree : host.disk.locate host.here .entry (Scratch.newRoot host "jd") =
      .ok (.vacant ["tmp"] "class-lens-jd-0-0-0") := by
    rw [hroot]
    exact Disk.locate_of_leadsDirectly (by rfl) .entry
  rw [Scratch.run_create_of_vacant hfree, hroot]
  rfl

theorem run_write : (scratch.write "B.class" "x".toUTF8).run made =
    (.ok (scratch.target "B.class"), ready) := by
  have hroot : made.disk.lookup made.here true scratch.root =
      .ok (["tmp", "class-lens-jd-0-0-0"], .directory) :=
    Disk.lookup_of_leadsDirectly (by rfl)
  have hstands : made.disk.isDirectory made.here scratch.root = true := by
    rw [Disk.isDirectory, hroot]
  have hfree : ∀ ending, made.disk.locate made.here ending (scratch.target "B.class") =
      .ok (.vacant ["tmp", "class-lens-jd-0-0-0"] "B.class") :=
    Disk.locate_of_leadsDirectly (by rfl)
  exact Scratch.run_write_of_above (by decide) (by rfl)
    (Disk.makeDirectories_of_isDirectory hstands) (Host.run_write_of_vacant hfree "x".toUTF8)

theorem run_prepare : (JdCore.prepare (request.scope.primaryFirst request.id request.bytes)
    request.id.text scratch).run made = (.ok arguments, ready) := by
  have hpath : request.id.classPath = "B.class" := by decide +kernel
  have hbytes : request.bytes = "x".toUTF8 := rfl
  have htarget : (scratch.target "B.class").text = "/tmp/class-lens-jd-0-0-0/B.class" := by
    decide +kernel
  unfold JdCore.prepare
  rw [Host.run_get_bind, Scope.load_primaryFirst_self]
  simp only [Host.run_bind, hpath, hbytes, run_write, htarget]
  rfl

theorem run_tool : (tool.run arguments).run ready = (.ok finished, ready) := by
  have hjar : ready.disk.lookup ready.here true tool.jar =
      .ok (["tool.jar"], .file "jar".toUTF8 .nobody) := Disk.lookup_of_leadsDirectly (by rfl)
  have hensure : tool.ensure.run ready = (.ok (), ready) := by
    have hleads : ready.leads tool.jar = true := by rw [Host.leads, Disk.leads, hjar]
    unfold JarTool.ensure
    rw [Host.run_get_bind, if_pos hleads]
    rfl
  have hstart : ready.programs.start ready.disk ready.here ready.searchPath tool.java.text
      ("-jar" :: tool.jar.text :: arguments) = .ok fun d m _ _ _ => some (finished, d, m) := rfl
  have hexecuted : (Host.execute tool.java ("-jar" :: tool.jar.text :: arguments)).run ready =
      (.ok finished, ready) := Host.run_execute_of_start rfl rfl hstart rfl
  rw [JarTool.run_of_ensure hensure, JarTool.launch, Host.run_bind, hexecuted]
  rfl

theorem printed : JdCore.Printed request output :=
  ⟨scratch, finished, ready, ⟨made, arguments, ready, run_create, run_prepare, run_tool⟩,
    by decide, rfl⟩

end Garbled

end ClassViewer
