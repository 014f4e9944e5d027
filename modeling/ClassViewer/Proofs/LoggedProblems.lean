import ClassViewer.Proofs.EngineOutcome
import ClassViewer.Proofs.Lines.Comments
import ClassViewer.Proofs.Host
import ClassViewer.Tool.Vineflower

/-!
# Problems in place of text

When Vineflower has saved nothing, its engine shows the problems it has logged. `render_of_unsaved`
says what is shown : a note, and below it one entry for each problem in the order logged. An entry
is a comment as far as its first line goes, and the message is put in as it is, so that the text is
free of code exactly if every later line of every problem is blank or a comment
(`withoutCode_unsaved_iff`). The tool logs its complaints line by line (`logsLines_ofTool`), which
is enough.
-/

namespace ClassViewer

/-- What is given with a scratch directory is given by a run in some directory. -/
theorem Scratch.exists_run_of_within {α : Type} {label : String}
    {f : Scratch → HostM (Except Failure α)} {h : Host} {a : α}
    (ha : ((Scratch.within label f).run h).1 = .ok a) : ∃ s g, ((f s).run g).1 = .ok a := by
  unfold Scratch.within at ha
  rw [Host.run_bind] at ha
  split at ha
  · cases ha
  · exact ⟨_, _, ha⟩

namespace Vineflower

/-! ## Problems -/

/-- A message that is logged as a problem. -/
def Call.problem? : Call → Option (Severity × String)
  | save _ => none
  | log severity message =>
    if severity = .warn ∨ severity = .error then some (severity, message) else none

/-- The problems some calls log, in their order. -/
def problems (calls : List Call) : List (Severity × String) := calls.filterMap Call.problem?

/-- What stands in front of a problem of a severity. -/
def mark (severity : Severity) : String := "// " ++ severity.label ++ ": "

/-- The entry for a problem. -/
def entry (p : Severity × String) : String := mark p.1 ++ p.2 ++ "\n"

theorem join_problem (calls : List Call) :
    Text.join "" (calls.map Call.problem) = Text.join "" ((problems calls).map entry) := by
  induction calls with
  | nil => rfl
  | cons c calls ih =>
    rw [List.map_cons, Text.join_empty_cons, ih]
    cases hc : c.problem? with
    | none =>
      have hquiet : c.problem = "" := by
        cases c with
        | save s => rfl
        | log severity message => cases severity <;> first | rfl | cases hc
      have hskip : problems (c :: calls) = problems calls := List.filterMap_cons_none hc
      rw [hskip, hquiet, String.empty_append]
    | some p =>
      have hentry : c.problem = entry p := by
        cases c with
        | save s => cases hc
        | log severity message => cases severity <;> cases hc <;> rfl
      have hshow : problems (c :: calls) = p :: problems calls := List.filterMap_cons_some hc
      rw [hshow, hentry, List.map_cons, Text.join_empty_cons]

/-- The note in place of text. -/
def note : String := "// Decompilation produced no output"

theorem note_newline : "// Decompilation produced no output\n" = note ++ "\n" := by decide +kernel

/-- What is shown when nothing was saved : a note and the problems. -/
def unsaved (calls : List Call) : String :=
  note ++ "\n" ++ Text.join "" ((problems calls).map entry)

theorem render_of_unsaved {calls : List Call} (h : ∀ t ∈ contents calls, t = "")
    (preserve : Bool) : render preserve calls = unsaved calls := by
  have hnone : (calls.filterMap Call.saved?).filter (·.content ≠ "") = [] := by
    rw [List.filter_eq_nil_iff]
    intro s hs
    simpa using h _ (List.mem_map_of_mem hs)
  have hproblems : noOutput calls = "// Decompilation produced no output\n" ++
      Text.join "" ((problems calls).map entry) :=
    congrArg ("// Decompilation produced no output\n" ++ ·) (join_problem calls)
  calc render preserve calls = noOutput calls := by rw [render_eq_body, body, if_pos hnone]
    _ = _ := hproblems
    _ = unsaved calls := congrArg (· ++ Text.join "" ((problems calls).map entry)) note_newline

/-! ## Entries as comments -/

theorem isComment_mark (severity : Severity) : IsComment (mark severity) := by
  cases severity <;> decide

theorem newline_not_mem_mark (severity : Severity) : '\n' ∉ (mark severity).toList := by
  cases severity <;> decide

/-- Whether a message stays in the comment its first line stands in. -/
def StaysComment (message : String) : Prop :=
  ∀ l ∈ (Text.newlineSplit message).tail, l ≠ "" → IsComment l

instance : DecidablePred StaysComment := fun message =>
  List.decidableBAll _ (Text.newlineSplit message).tail

/-- A message of one line has none to leave the comment with. -/
theorem staysComment_of_line {message : String} (h : '\n' ∉ message.toList) :
    StaysComment message := by
  rw [StaysComment, Text.newlineSplit, Text.split_eq_singleton h]
  exact List.forall_mem_nil _

theorem withoutCode_entries_iff (ps : List (Severity × String)) (rest : String) :
    WithoutCode (Text.join "" (ps.map entry) ++ rest) ↔
      (∀ p ∈ ps, StaysComment p.2) ∧ WithoutCode rest := by
  induction ps with
  | nil => simp [Text.join]
  | cons p ps ih =>
    have hentry := withoutCode_comment_iff (newline_not_mem_mark p.1) (isComment_mark p.1) p.2
    rw [List.map_cons, Text.join_empty_cons, String.append_assoc, entry,
      withoutCode_append_newline_iff, ih, hentry, List.forall_mem_cons, and_assoc]
    rfl

/-- The footer of Vineflower, behind the line it is put after. -/
theorem withoutCode_footer : WithoutCode ("\n\n" ++ attribution descriptor ++ "\n") := by
  decide +kernel

theorem withoutCode_unsaved_iff (calls : List Call) :
    WithoutCode (withFooter (unsaved calls) descriptor) ↔
      ∀ p ∈ problems calls, StaysComment p.2 := by
  have hnote : WithoutCode note := by decide +kernel
  have htext : withFooter (unsaved calls) descriptor = note ++ "\n" ++
      (Text.join "" ((problems calls).map entry) ++
        ("\n\n" ++ attribution descriptor ++ "\n")) := by
    simp only [withFooter, unsaved, String.append_assoc]
  rw [htext, withoutCode_append_newline_iff, withoutCode_entries_iff]
  exact ⟨fun h => h.2.1, fun h => ⟨hnote, h, withoutCode_footer⟩⟩

/-! ## The complaints of the tool -/

/-- Every problem that is logged is one line. -/
def LogsLines (calls : List Call) : Prop := ∀ p ∈ problems calls, '\n' ∉ p.2.toList

theorem LogsLines.append {calls later : List Call} (h : LogsLines calls) (h' : LogsLines later) :
    LogsLines (calls ++ later) := by
  rw [LogsLines, problems, List.filterMap_append]
  exact List.forall_mem_append.2 ⟨h, h'⟩

theorem logsLines_warnings (stderr : ByteArray) : LogsLines (warnings stderr) := by
  intro p hp
  obtain ⟨c, hc, hproblem⟩ := List.mem_filterMap.1 hp
  obtain ⟨line, hline, hlogged⟩ := List.mem_filterMap.1 hc
  obtain ⟨raw, hraw, rfl⟩ := List.mem_map.1 hline
  split at hlogged
  · cases hlogged
  · obtain rfl := Option.some.inj hlogged
    obtain rfl := Option.some.inj hproblem
    exact fun hm => Text.not_mem_of_mem_outputLines hraw (Text.mem_of_mem_trim hm)

theorem problems_readOutput (h : Host) (out : Path) (files : List Path) :
    problems (readOutput h out files).calls = [] := by
  induction files with
  | nil => rfl
  | cons p files ih =>
    unfold readOutput
    split
    · rfl
    · exact ih

theorem logsLines_reportOf (h : Host) (out : Path) (finished : Finished) :
    LogsLines (reportOf h out finished).calls := by
  have hsaved : problems (collectOutput h out).calls = [] := by
    unfold collectOutput
    split
    · split
      · rfl
      · exact problems_readOutput h out _
    · rfl
  unfold reportOf
  split
  · refine (logsLines_warnings finished.stderr).append ?_
    rw [LogsLines, hsaved]
    exact List.forall_mem_nil _
  · exact logsLines_warnings finished.stderr

theorem logsLines_nil : LogsLines [] := List.forall_mem_nil _

theorem logsLines_runTool (tool : JarTool) (source : Path) (bytes : ByteArray) (options : Options)
    (scratch : Scratch) (h : Host) {report : Report Call}
    (hrun : ((runTool tool source bytes options scratch).run h).1 = .ok report) :
    LogsLines report.calls := by
  simp only [runTool, Host.run_bind] at hrun
  split at hrun
  · cases hrun
  · rw [Host.run_bind] at hrun
    split at hrun
    · cases hrun
    · rw [Host.run_bind] at hrun
      split at hrun
      · cases hrun
      · obtain rfl := Except.ok.inj hrun
        exact logsLines_reportOf _ _ _

/-- The tool logs its complaints line by line, whatever it has written. -/
theorem logsLines_ofTool (tool : JarTool) (source : Path) (provider : Provider)
    (options : Options) (h : Host) :
    LogsLines (((ofTool tool source provider options).run h).1).calls := by
  simp only [ofTool, Host.run_bind]
  split
  · exact logsLines_nil
  · exact logsLines_nil
  · rw [Host.run_bind]
    split
    · rename_i report hreport
      obtain ⟨scratch, g, hran⟩ := Scratch.exists_run_of_within hreport
      exact logsLines_runTool tool source _ options scratch g hran
    · exact logsLines_nil

/-! ## What the engine shows -/

/-- When a back end succeeds and has saved no text, its engine shows the note and every problem
logged in order, and nothing else of what was logged, under the footer. No line of that is code
exactly if every problem stays in the comment it is put in, and so it is when the back end runs the
tool. -/
theorem problems_shown_when_nothing_saved (backend : Backend) (id : ClassId) (bytes : ByteArray)
    (scope : Scope) (preserve : Bool) (h : Host) (calls : List Call)
    (hrun : ((backend (sourcePath h id) (Provider.ofScope (scope.primaryFirst id bytes) id)
      (options preserve)).run h).1 = ⟨calls, .ok ()⟩)
    (hempty : ∀ t ∈ contents calls, t = "") :
    ∃ text, (((engine backend).decompile id bytes scope preserve).run h).1 = .ok text ∧
      text = "// Decompilation produced no output\n" ++
        Text.join "" ((problems calls).map entry) ++
        "\n\n// Decompiled with Fernflower (Vineflower)\n" ∧
      (WithoutCode text ↔ ∀ p ∈ problems calls, StaysComment p.2) ∧
      ((∃ tool, backend = ofTool tool) → WithoutCode text) := by
  have hresult : (((engine backend).decompile id bytes scope preserve).run h).1 =
      .ok (withFooter (unsaved calls) descriptor) := by
    rw [run_decompile, hrun]
    exact congrArg (fun text => Except.ok (withFooter text descriptor))
      (render_of_unsaved hempty preserve)
  have htext : withFooter (unsaved calls) descriptor = "// Decompilation produced no output\n" ++
      Text.join "" ((problems calls).map entry) ++
      "\n\n// Decompiled with Fernflower (Vineflower)\n" := by
    have hfooter : "\n\n" ++ attribution descriptor ++ "\n" =
        "\n\n// Decompiled with Fernflower (Vineflower)\n" := by decide +kernel
    rw [← hfooter, note_newline]
    simp only [withFooter, unsaved, String.append_assoc]
  refine ⟨_, hresult, htext, withoutCode_unsaved_iff calls, ?_⟩
  rintro ⟨tool, rfl⟩
  have hlines := logsLines_ofTool tool (sourcePath h id)
    (Provider.ofScope (scope.primaryFirst id bytes) id) (options preserve) h
  rw [hrun] at hlines
  exact (withoutCode_unsaved_iff calls).2 fun p hp => staysComment_of_line (hlines p hp)

/-- A back end that makes these calls and succeeds. -/
def sending (calls : List Call) : Backend := fun _ _ _ => pure ⟨calls, .ok ()⟩

/-- Saved classes without text and chatter are not shown, and an error of two lines is. -/
theorem marked_error_shown :
    let calls : List Call := [.log .info "chatty\nand more",
      .save ⟨"", "a.B", "a/B.java", "", none⟩,
      .log .error "skipped lambda\n// in a.B", .log .trace "", .log .warn ""]
    ∃ text, (((engine (sending calls)).decompile ⟨"a/B"⟩ "primary".toUTF8 .nothing true).run
        default).1 = .ok text ∧
      Text.newlineSplit text = ["// Decompilation produced no output",
        "// ERROR: skipped lambda", "// in a.B", "// WARN: ", "", "",
        "// Decompiled with Fernflower (Vineflower)", ""] ∧
      WithoutCode text := by
  intro calls
  obtain ⟨text, hresult, htext, hcode, -⟩ := problems_shown_when_nothing_saved (sending calls)
    ⟨"a/B"⟩ "primary".toUTF8 .nothing true default calls rfl (by decide)
  refine ⟨text, hresult, ?_, hcode.2 (by decide +kernel)⟩
  rw [htext]
  decide +kernel

/-- The second line of a problem is shown as it is. -/
theorem second_line_of_problem_is_code :
    ∃ text, (((engine (sending [.log .warn "bad\nconstant pool"])).decompile ⟨"a/B"⟩
        "primary".toUTF8 .nothing true).run default).1 = .ok text ∧
      "constant pool" ∈ Text.newlineSplit text ∧ ¬IsComment "constant pool" :=
  ⟨_, rfl, by decide +kernel, by decide⟩

end Vineflower

end ClassViewer
