import ClassViewer.Proofs.Directory
import ClassViewer.Proofs.Disk.Direct
import ClassViewer.Proofs.Naming
import ClassViewer.Proofs.Scratch

/-!
# Loose classes in scratch directories

Three of the tools are given a class under its class path, in a scratch directory that refuses a
path with a segment that climbs. The class path of a loose class has one exactly if one stands
between the first build-output directory of its path and its last segment (`Location.Climbs`). Such
a class is refused, and any other is written (`TakesClass`). Vineflower is given the file name and
takes every class. `loose_class_taken_unless_climbs` states this.
-/

namespace ClassViewer

open Disk (steps)

/-! ## Segments of class paths -/

namespace ClassId

/-- The last segment of a class path is the name of a class file. -/
theorem split_classPath (id : ClassId) : Text.split '/' id.classPath =
    (Text.split '/' id.text).dropLast ++ [id.simpleName ++ classSuffix] :=
  Text.split_append_last id.text (by decide)

theorem dots_mem_classPath_iff (id : ClassId) : ".." ∈ Text.split '/' id.classPath ↔
    ".." ∈ (Text.split '/' id.text).dropLast := by
  have hlast : ".." ≠ id.simpleName ++ classSuffix :=
    (Path.isEntryName_append_classSuffix (Text.not_mem_afterLast '/' id.text)).ne_dots.symm
  rw [split_classPath, List.mem_append, List.mem_singleton, or_iff_left hlast]

/-- All but the last segment of a name without backslashes stay as they are. -/
theorem dropLast_split_ofName {name : String} (hb : '\\' ∉ name.toList)
    (hh : name.toList.head? ≠ some '/') :
    (Text.split '/' (ofName name).text).dropLast = (Text.split '/' name).dropLast := by
  rw [text_ofName_of_clean hb hh]
  exact Text.dropLast_split_dropTail (by decide) name

end ClassId

namespace Location

variable {path : String}

/-- Between the first marker of the path and its last segment, a segment climbs. -/
def Climbs (path : String) : Prop :=
  ∃ post, FollowsMarker (stem path) post ∧ ".." ∈ (steps post).dropLast

theorem not_mem_stem (path : String) : '\\' ∉ (stem path).toList := fun h =>
  Text.not_mem_replaceChar (by decide) path (Text.mem_of_mem_dropTail h)

theorem FollowsMarker.not_mem_join_steps {p post : String} (h : FollowsMarker p post)
    (hp : '\\' ∉ p.toList) : '\\' ∉ (Text.join "/" (steps post)).toList := by
  obtain ⟨front, m, hsplit, -, -⟩ := h.exists_split
  refine Text.not_mem_join (by decide) fun s hs hc => ?_
  have hmem : s ∈ Text.split '/' p := by
    rw [hsplit]
    simp [(List.mem_filter.1 hs).1]
  exact hp (Text.mem_of_mem_split hmem hc)

/-- A class path climbs exactly if its location does. -/
theorem dots_mem_className_iff (path : String) :
    ".." ∈ Text.split '/' (className (.file ⟨path⟩)).classPath ↔ Climbs path := by
  have hnamed := isNamedBy_nameOfPath (stem path)
  rw [className_file, ClassId.dots_mem_classPath_iff]
  by_cases hmarked : ∃ post, FollowsMarker (stem path) post
  · obtain ⟨post, hpost⟩ := hmarked
    have hclean := hpost.not_mem_join_steps (not_mem_stem path)
    have hsplit : Text.split '/' (Text.join "/" (steps post)) = steps post :=
      Text.split_join hpost.filled fun s hs => Text.not_mem_of_mem_split (List.mem_filter.1 hs).1
    rw [hnamed.marked post hpost, ClassId.dropLast_split_ofName hclean (head?_join_steps post),
      hsplit]
    refine ⟨fun hdots => ⟨post, hpost, hdots⟩, ?_⟩
    rintro ⟨post', hpost', hdots⟩
    have hsame := hpost.segmentsAfterMarker_split.symm.trans hpost'.segmentsAfterMarker_split
    rwa [Option.some.inj hsame]
  · have hslash := Text.not_mem_afterLast '/' (stem path)
    have hclean : '\\' ∉ (Text.afterLast '/' (stem path)).toList := by
      intro hc
      obtain ⟨front, hfront⟩ := Text.exists_append_afterLast '/' (stem path)
      refine not_mem_stem path ?_
      rw [hfront, String.toList_append]
      exact List.mem_append_right front.toList hc
    rw [hnamed.bare (not_exists.1 hmarked), ClassId.dropLast_split_ofName hclean
      fun hc => hslash (List.mem_of_head? hc), Text.split_eq_singleton hslash]
    exact ⟨nofun, fun ⟨post, hpost, _⟩ => absurd ⟨post, hpost⟩ hmarked⟩

end Location

/-! ## Tools that take a class -/

/-- What is run in a scratch directory begins by writing the class under that path, and fails as
this does. -/
def WritesClassFirst {α : Type} (f : Scratch → HostM (Except Failure α)) (relative : String)
    (bytes : ByteArray) : Prop :=
  ∃ go : Scratch → Path → HostM (Except Failure α), ∀ s g, (f s).run g =
    match (s.write relative bytes).run g with
    | (.error e, g') => (.error e, g')
    | (.ok target, g') => (go s target).run g'

/-- A decompilation writes the class under that path before anything else, and no scratch directory
refuses the path. -/
structure TakesClass (x : HostM (Except DecompileError String)) (d : Descriptor)
    (label relative : String) (bytes : ByteArray) (h : Host) : Prop where
  first : ∃ (α : Type) (f : Scratch → HostM (Except Failure α)),
    IsScratchRun x d label f h ∧ WritesClassFirst f relative bytes
  accepted : ∀ s : Scratch, s.place relative = .ok (s.target relative)
  /-- If the class cannot be written, the disk does not allow it. -/
  written : ∀ (s : Scratch) (g : Host),
    ((s.write relative bytes).run g).1 = .ok (s.target relative) ∨
    ∃ f, ((s.write relative bytes).run g).1 = .error f ∧
      Scratch.IsIoFailure (s.target relative) f

theorem IsScratchRun.takesClass {α : Type} {x : HostM (Except DecompileError String)}
    {d : Descriptor} {label relative : String} {f : Scratch → HostM (Except Failure α)} {h : Host}
    {bytes : ByteArray} (hx : IsScratchRun x d label f h) (hf : WritesClassFirst f relative bytes)
    (hdots : ".." ∉ Text.split '/' relative) : TakesClass x d label relative bytes h where
  first := ⟨α, f, hx, hf⟩
  accepted s := (s.place_eq relative).trans (if_neg hdots)
  written s g := ((s.writes g relative bytes).accepted hdots).2

/-- What CFR does once the class is written. -/
def Cfr.runBeside (tool : JarTool) (source : Source) (classPath : String) (scratch : Scratch)
    (target : Path) : HostM (Except Failure String) := do
  match ← extraClasspath scratch source classPath with
  | .error f => return .error f
  | .ok extra => tool.runForText "CFR" (arguments target extra options)

/-- What Vineflower does once the class is written. -/
def Vineflower.runInto (tool : JarTool) (options : Options) (out target : Path) :
    HostM (Except Failure (Report Call)) := do
  match ← Host.makeDirectories out with
  | .error e => return .error (.ofIo e)
  | .ok () =>
    match ← tool.run (arguments options target out) with
    | .error f => return .error f
    | .ok finished => return .ok (reportOf (← get) out finished)

section Tools

variable (tool : JarTool) (name : String) (bytes : ByteArray) (scope : Scope) (preserve : Bool)
  (h : Host)

theorem Cfr.writesClassFirst : WritesClassFirst
    (Cfr.toolText tool (ClassId.ofName name).classPath
      (.ofScope (scope.primaryFirst (.ofName name) bytes)) Cfr.options)
    (Cfr.classpathName ++ "/" ++ (ClassId.ofName name).classPath) bytes := by
  refine ⟨Cfr.runBeside tool (.ofScope (scope.primaryFirst (.ofName name) bytes))
    (ClassId.ofName name).classPath, fun s g => ?_⟩
  have hcontent := (Askers.allGive_primaryFirst name bytes scope).content g
  simp only [Askers.primaryFirst] at hcontent
  simp only [Cfr.toolText, Host.run_bind, hcontent]
  rcases (s.write _ bytes).run g with ⟨_ | _, g'⟩
  · rfl
  · rfl

theorem JdCore.writesClassFirst : WritesClassFirst
    (JdCore.toolText tool (scope.primaryFirst (.ofName name) bytes) (ClassId.ofName name).text)
    (ClassId.ofName name).classPath bytes := by
  refine ⟨fun s target => tool.runForText "JD-Core" ["--outputConsole", target.text],
    fun s g => ?_⟩
  simp only [JdCore.toolText, Host.run_bind, StateT.run_get, pure, Scope.load_primaryFirst_self]
  rcases (s.write _ bytes).run g with ⟨_ | _, g'⟩
  · rfl
  · rfl

theorem Procyon.writesClassFirst (settings : Procyon.Settings) : WritesClassFirst
    (Procyon.toolText tool (ClassId.ofName name).text bytes settings)
    (ClassId.ofName name).classPath bytes := by
  refine ⟨fun s target => tool.runForText "Procyon" (Procyon.flags settings ++ [target.text]),
    fun s g => ?_⟩
  simp only [Procyon.toolText, Host.run_bind, ClassId.classPath]
  rcases (s.write _ bytes).run g with ⟨_ | _, g'⟩
  · rfl
  · rfl

theorem Vineflower.writesClassFirst (source : Path) (options : Vineflower.Options) :
    WritesClassFirst (Vineflower.runTool tool source bytes options)
      ("in/" ++ Vineflower.fileNameOf source) bytes := by
  refine ⟨fun s target => Vineflower.runInto tool options (s.root.join ⟨"out"⟩) target,
    fun s g => ?_⟩
  simp only [Vineflower.runTool, Host.run_bind]
  rcases (s.write _ bytes).run g with ⟨_ | _, g'⟩
  · rfl
  · rfl

/-- The file a class is given to the tool in has a name that does not climb. -/
theorem Vineflower.dots_not_mem_fileNameOf (source : Path) :
    ".." ∉ Text.split '/' ("in/" ++ Vineflower.fileNameOf source) := by
  have hname : Path.IsEntryName (Vineflower.fileNameOf source) := by
    unfold Vineflower.fileNameOf
    cases hn : source.fileName? with
    | none => exact Path.isEntryName_append_classSuffix (by decide)
    | some n => exact Path.isEntryName_of_fileName? hn
  have hin : "in/" = "in" ++ "/" := by decide
  rw [hin, Text.split_slash, Text.split_eq_singleton hname.noSlash]
  simp [hname.ne_dots.symm]
  decide

end Tools

/-- The class path of a loose class climbs exactly if a segment between the first build-output
directory of its path and its last segment does. Vineflower takes every loose class, whatever its
path; the other three take it unless it climbs, and refuse it if it does. -/
theorem loose_class_taken_unless_climbs (tool : JarTool) (path : String) (bytes : ByteArray)
    (scope : Scope) (preserve : Bool) (h : Host) :
    (".." ∈ Text.split '/' (Location.className (.file ⟨path⟩)).classPath ↔ Location.Climbs path) ∧
      TakesClass ((Vineflower.engine (Vineflower.ofTool tool)).decompile
          (Location.className (.file ⟨path⟩)) bytes scope preserve) Vineflower.descriptor
        "vineflower" ("in/" ++ Vineflower.fileNameOf
          (Vineflower.sourcePath h (Location.className (.file ⟨path⟩)))) bytes h ∧
      (¬Location.Climbs path →
        TakesClass ((Cfr.engine (Cfr.ofTool tool)).decompile
            (Location.className (.file ⟨path⟩)) bytes scope preserve) Cfr.descriptor "cfr"
          (Cfr.classpathName ++ "/" ++ (Location.className (.file ⟨path⟩)).classPath) bytes h ∧
        TakesClass ((JdCore.engine (JdCore.ofTool tool)).decompile
            (Location.className (.file ⟨path⟩)) bytes scope preserve) JdCore.descriptor "jd"
          (Location.className (.file ⟨path⟩)).classPath bytes h ∧
        TakesClass ((Procyon.engine (Procyon.ofTool tool)).decompile
            (Location.className (.file ⟨path⟩)) bytes scope preserve) Procyon.descriptor "procyon"
          (Location.className (.file ⟨path⟩)).classPath bytes h) ∧
      (Location.Climbs path →
        IsRefused ((Cfr.engine (Cfr.ofTool tool)).decompile
            (Location.className (.file ⟨path⟩)) bytes scope preserve) Cfr.descriptor "cfr"
          (Cfr.classpathName ++ "/" ++ (Location.className (.file ⟨path⟩)).classPath) h ∧
        IsRefused ((JdCore.engine (JdCore.ofTool tool)).decompile
            (Location.className (.file ⟨path⟩)) bytes scope preserve) JdCore.descriptor "jd"
          (Location.className (.file ⟨path⟩)).classPath h ∧
        IsRefused ((Procyon.engine (Procyon.ofTool tool)).decompile
            (Location.className (.file ⟨path⟩)) bytes scope preserve) Procyon.descriptor "procyon"
          (Location.className (.file ⟨path⟩)).classPath h) := by
  have hiff := Location.dots_mem_className_iff path
  obtain ⟨name, hname⟩ := Location.exists_className path
  rw [hname] at hiff ⊢
  refine ⟨hiff, (Vineflower.isScratchRun tool name bytes scope preserve h).takesClass
    (Vineflower.writesClassFirst tool bytes _ _) (Vineflower.dots_not_mem_fileNameOf _),
    fun hstays => ?_, fun hclimbs => isRefused_of_climbs tool name bytes scope preserve h
      ((ClassId.dots_mem_classPath_iff _).1 (hiff.2 hclimbs))⟩
  have hdots : ".." ∉ Text.split '/' (ClassId.ofName name).classPath := fun hc => hstays (hiff.1 hc)
  have hbelow : ".." ∉ Text.split '/' (Cfr.classpathName ++ "/" ++
      (ClassId.ofName name).classPath) := by
    rw [Text.split_slash, List.mem_append, not_or]
    exact ⟨by decide, hdots⟩
  exact ⟨(Cfr.isScratchRun tool bytes scope preserve h _).takesClass
      (Cfr.writesClassFirst tool name bytes scope) hbelow,
    (JdCore.isScratchRun tool bytes scope preserve h _).takesClass
      (JdCore.writesClassFirst tool name bytes scope) hdots,
    (Procyon.isScratchRun tool name bytes scope preserve h).takesClass
      (Procyon.writesClassFirst tool name bytes _) hdots⟩

/-- A machine with a class file, a build-output directory beside it, and a directory for temporary
files. -/
def besideOutputHost : Host :=
  { (default : Host) with
    disk := ⟨[(["tmp"], .directory), (["classes"], .directory),
      (["B.class"], .file "class".toUTF8 .nobody)], []⟩ }

/-- A climb in front of the build-output directory does no harm, nor does the only segment behind
it, but one in between does. -/
theorem climbs_between_marker_and_last :
    ¬Location.Climbs "../classes/a/./B.class" ∧
      TakesClass ((JdCore.engine (JdCore.ofTool ⟨⟨"java"⟩, ⟨"jd.jar"⟩, none⟩)).decompile
          (Location.className (.file ⟨"../classes/a/./B.class"⟩)) "class".toUTF8 .nothing true)
        JdCore.descriptor "jd"
        (Location.className (.file ⟨"../classes/a/./B.class"⟩)).classPath "class".toUTF8
        besideOutputHost ∧
      Location.Climbs "classes/../B.class" ∧
      IsRefused ((JdCore.engine (JdCore.ofTool ⟨⟨"java"⟩, ⟨"jd.jar"⟩, none⟩)).decompile
          (Location.className (.file ⟨"classes/../B.class"⟩)) "class".toUTF8 .nothing true)
        JdCore.descriptor "jd" (Location.className (.file ⟨"classes/../B.class"⟩)).classPath
        besideOutputHost := by
  have hstays : ¬Location.Climbs "../classes/a/./B.class" := by
    rw [← Location.dots_mem_className_iff]
    decide +kernel
  have hclimbs : Location.Climbs "classes/../B.class" := by
    rw [← Location.dots_mem_className_iff]
    decide +kernel
  obtain ⟨-, -, htaken, -⟩ := loose_class_taken_unless_climbs ⟨⟨"java"⟩, ⟨"jd.jar"⟩, none⟩
    "../classes/a/./B.class" "class".toUTF8 .nothing true besideOutputHost
  obtain ⟨-, -, -, hrefused⟩ := loose_class_taken_unless_climbs ⟨⟨"java"⟩, ⟨"jd.jar"⟩, none⟩
    "classes/../B.class" "class".toUTF8 .nothing true besideOutputHost
  exact ⟨hstays, (htaken hstays).2.1, hclimbs, (hrefused hclimbs).2.1⟩

/-- A class file that is there and can be read is refused under a path that leaves the build-output
directory again. -/
theorem readable_class_refused :
    besideOutputHost.isFile ⟨"classes/../B.class"⟩ = true ∧
      besideOutputHost.read ⟨"classes/../B.class"⟩ = .ok "class".toUTF8 ∧
      ".." ∈ Text.split '/' (Location.className (.file ⟨"classes/../B.class"⟩)).classPath ∧
      (((Cfr.engine (Cfr.ofTool ⟨⟨"java"⟩, ⟨"cfr.jar"⟩, none⟩)).decompile
          (Location.className (.file ⟨"classes/../B.class"⟩)) "class".toUTF8 .nothing true).run
            besideOutputHost).1 =
        .error (Cfr.descriptor.failure (.ofMessage
          "Refusing scratch path outside /tmp/class-lens-cfr-0-0-0: classpath/../B.class")) := by
  have hfile : besideOutputHost.disk.lookup besideOutputHost.here true ⟨"classes/../B.class"⟩ =
      .ok (["B.class"], .file "class".toUTF8 .nobody) :=
    Disk.lookup_of_leadsDirectly (by decide +kernel)
  have hname : Location.className (.file ⟨"classes/../B.class"⟩) = ClassId.ofName "../B" := by
    decide +kernel
  have hdots : ".." ∈ (Text.split '/' (ClassId.ofName "../B").text).dropLast := by decide +kernel
  have hfree : besideOutputHost.disk.locate besideOutputHost.here .entry
      (Scratch.newRoot besideOutputHost "cfr") = .ok (.vacant ["tmp"] "class-lens-cfr-0-0-0") :=
    Disk.locate_of_leadsDirectly (by decide +kernel) .entry
  have hrefusal : (Scratch.mk (Scratch.newRoot besideOutputHost "cfr")).refusal
      (Cfr.classpathName ++ "/" ++ (ClassId.ofName "../B").classPath) = .ofMessage
        "Refusing scratch path outside /tmp/class-lens-cfr-0-0-0: classpath/../B.class" := by
    decide +kernel
  obtain ⟨f, h', hwithin, hrun⟩ := (isRefused_of_climbs ⟨⟨"java"⟩, ⟨"cfr.jar"⟩, none⟩ "../B"
    "class".toUTF8 .nothing true besideOutputHost hdots).1
  have hf : f = .ofMessage
      "Refusing scratch path outside /tmp/class-lens-cfr-0-0-0: classpath/../B.class" := by
    rw [Scratch.within, Host.run_bind, Scratch.run_create_of_vacant hfree] at hwithin
    exact (Except.error.inj (congrArg Prod.fst hwithin)).symm.trans hrefusal
  refine ⟨by rw [Host.isFile, Disk.isFile, hfile], by rw [Host.read, Disk.read, hfile], ?_, ?_⟩
  · rw [hname, ClassId.dots_mem_classPath_iff]
    exact hdots
  · rw [hname, hrun, hf]

end ClassViewer
