import ClassViewer.Proofs.BlankLines
import ClassViewer.Proofs.Footers

/-!
# What leaves an engine

A back end makes its calls and then either fails or is done. `Concludes` says what an engine makes
of that: a failure leaves it as an error of the engine with the whole chain of texts, an error of a
scope that the back end passed on included, and no part of the text sent before; otherwise the body
leaves it, already laid out, with the footer behind its last line. Each engine has a definition of
its body by what was sent, and `engines_conclude` holds of all four over every back end.
-/

namespace ClassViewer

/-! ## Footers -/

/-- A name that stands on one line and does not end in white space. -/
def Legible (name : String) : Prop :=
  '\n' ∉ name.toList ∧ name.toList.getLast?.any (!Text.isBlank ·) = true

instance (name : String) : Decidable (Legible name) := inferInstanceAs (Decidable (_ ∧ _))

/-- The footer of an engine is found again at the end of a text. -/
theorem hasFooter_withFooter (text : String) {d : Descriptor} (h : Legible d.displayName) :
    hasFooter (withFooter text d) d = true := by
  obtain ⟨c, hlast, hink⟩ := (Option.any_eq_true _ _).1 h.2
  exact (hasFooter_withFooter_iff text d).2 ⟨c, hlast, by simpa using hink⟩

/-- A footer is three more lines. -/
theorem newlineSplit_withFooter (text : String) {d : Descriptor} (h : Legible d.displayName) :
    Text.newlineSplit (withFooter text d) =
      Text.newlineSplit text ++ ["", "// Decompiled with " ++ d.displayName, ""] := by
  have hname : '\n' ∉ (attribution d).toList := by
    have hfixed : '\n' ∉ "// Decompiled with ".toList := by simp
    rw [attribution_eq, String.toList_append, List.mem_append, not_or]
    exact ⟨hfixed, h.1⟩
  have hlines : withFooter text d =
      text ++ "\n" ++ ("" ++ "\n" ++ (attribution d ++ "\n" ++ "")) := by
    have hnewlines : "\n\n" = "\n" ++ "\n" := by decide
    simp only [withFooter, hnewlines, String.append_assoc, String.append_empty, String.empty_append]
  have hempty : Text.newlineSplit "" = [""] := by decide
  have hattribution : Text.newlineSplit (attribution d) = [attribution d] :=
    Text.split_eq_singleton hname
  rw [hlines, newlineSplit_append_newline, newlineSplit_append_newline,
    newlineSplit_append_newline, hempty, hattribution]
  rfl

/-! ## Chains of contexts -/

/-- The texts of a failure, outermost first. -/
def Failure.chain (f : Failure) : List String := f.outermost :: f.causes

theorem Failure.chain_inContexts (f : Failure) (contexts : List String) :
    (contexts.foldl Failure.inContext f).chain = contexts.reverse ++ f.chain := by
  induction contexts generalizing f with
  | nil => rfl
  | cons c contexts ih =>
    have hc : (f.inContext c).chain = c :: f.chain := rfl
    rw [List.foldl_cons, ih, hc, List.reverse_cons, List.append_assoc, List.singleton_append]

/-! ## Outcomes -/

/-- What an engine makes of its back end, which failed or gave a body. -/
structure Concludes (d : Descriptor) (outcome : Except Failure String)
    (result : Except DecompileError String) : Prop where
  /-- A failure leaves as the engine's own error. -/
  failed : ∀ f, outcome = .error f →
    result = .error (.engine d.displayName (Text.join ": " (f.outermost :: f.causes)))
  /-- So does an error of a scope, inside the contexts it was given on its way. -/
  passed_on : ∀ (e : DecompileError) (contexts : List String),
    outcome = .error (contexts.foldl Failure.inContext (.ofError e)) →
    result = .error
      (.engine d.displayName (Text.join ": " (contexts.reverse ++ e.message :: e.causes)))
  /-- A body leaves with the footer. -/
  succeeded : ∀ body, outcome = .ok body →
    result = .ok (body ++ ("\n\n// Decompiled with " ++ d.displayName ++ "\n"))
  /-- The footer stands behind the body and moves no line of it. -/
  lines : ∀ body text, outcome = .ok body → result = .ok text →
    Text.newlineSplit text =
      Text.newlineSplit body ++ ["", "// Decompiled with " ++ d.displayName, ""]
  footed : ∀ text, result = .ok text → hasFooter text d = true
  kind : ∀ e, result = .error e → e.kind = "DecompilationError"

theorem concludes_of {d : Descriptor} (hd : Legible d.displayName)
    {outcome : Except Failure String} {result : Except DecompileError String}
    (hok : ∀ body, outcome = .ok body → result = .ok (withFooter body d))
    (herror : ∀ f, outcome = .error f → result = .error (d.failure f)) :
    Concludes d outcome result where
  failed := herror
  passed_on e contexts h := by
    have hmessage : (contexts.foldl Failure.inContext (.ofError e)).message =
        Text.join ": " (contexts.reverse ++ e.message :: e.causes) :=
      congrArg (Text.join ": ") (Failure.chain_inContexts (.ofError e) contexts)
    rw [herror _ h, Descriptor.failure, hmessage]
  succeeded body h := by
    have htext : "\n\n// Decompiled with " = "\n\n" ++ "// Decompiled with " := by simp
    rw [hok body h, withFooter, attribution_eq, htext]
    simp only [String.append_assoc]
  lines body text h htext := by
    obtain rfl := Except.ok.inj ((hok body h).symm.trans htext)
    exact newlineSplit_withFooter body hd
  footed text htext := by
    cases outcome with
    | error f => cases (herror f rfl).symm.trans htext
    | ok body =>
      obtain rfl := Except.ok.inj ((hok body rfl).symm.trans htext)
      exact hasFooter_withFooter body hd
  kind e he := by
    cases outcome with
    | error f =>
      obtain rfl := Except.error.inj ((herror f rfl).symm.trans he)
      rfl
    | ok body => cases (hok body rfl).symm.trans he

/-! ## Bodies -/

/-- A text, realigned if lines are preserved. -/
def laidOut (preserve : Bool) (m : LineMapping) (text : String) : String :=
  if preserve then realign text m else text

/-- What a report comes to, by the body its calls make. -/
def Report.outcomeWith {Call : Type} (r : Report Call) (body : List Call → String) :
    Except Failure String :=
  r.outcome.map fun _ => body r.calls

theorem concludes_of_report {Call : Type} {r : Report Call} {body : List Call → String}
    {d : Descriptor} (hd : Legible d.displayName) {result : Except DecompileError String}
    (hok : r.outcome = .ok () → result = .ok (withFooter (body r.calls) d))
    (herror : ∀ f, r.outcome = .error f → result = .error (d.failure f)) :
    Concludes d (r.outcomeWith body) result := by
  obtain ⟨calls, outcome⟩ := r
  cases outcome with
  | ok _ =>
    refine concludes_of hd ?_ nofun
    intro text htext
    cases htext
    exact hok rfl
  | error f =>
    refine concludes_of hd nofun ?_
    intro g hg
    cases hg
    exact herror f rfl

/-- All pieces, laid out by all line numbers sent. -/
def Cfr.body (preserve : Bool) (calls : List Cfr.Call) : String :=
  laidOut preserve (.ofPairs (sentPairs calls)) (sentText calls)

theorem Cfr.render_eq_body (preserve : Bool) (calls : List Cfr.Call) :
    render preserve calls = body preserve calls := by
  cases preserve with
  | false => exact render_false calls
  | true => exact render_true calls

/-- All that was printed, laid out by the numbers of its lines. -/
def JdCore.body (preserve : Bool) (calls : List JdCore.Call) : String :=
  laidOut preserve (.ofPairs (sentPairs false 0 calls)) (sentText 0 calls)

theorem JdCore.render_eq_body (preserve : Bool) (calls : List JdCore.Call) :
    render preserve calls = body preserve calls := by
  cases preserve with
  | false => exact render_false calls
  | true => exact render_true calls

namespace Vineflower

/-- Every saved text, laid out by its own line numbers; the problems logged if nothing was saved. -/
def body (preserve : Bool) (calls : List Call) : String :=
  let saved := (calls.filterMap Call.saved?).filter (·.content ≠ "")
  if saved = [] then noOutput calls
  else Text.join "" (saved.map fun s => laidOut preserve (.ofFlat (s.lines.getD [])) s.content)

theorem savedText_eq_laidOut (preserve : Bool) {s : Saved} (h : s.content ≠ "") :
    savedText preserve s = laidOut preserve (.ofFlat (s.lines.getD [])) s.content := by
  cases preserve with
  | false => exact savedText_false s
  | true =>
    rw [savedText, if_neg h, laidOut, if_pos rfl]
    cases s.lines with
    | none => rfl
    | some flat =>
      cases flat with
      | nil => rfl
      | cons n flat => rfl

theorem savedText_ne_empty (preserve : Bool) {s : Saved} (h : s.content ≠ "") :
    savedText preserve s ≠ "" := by
  cases preserve with
  | false => rwa [savedText_false]
  | true => exact mt (savedText_true_eq_empty_iff s).1 h

/-- Saved classes without text add nothing. -/
theorem join_savedText_filter (preserve : Bool) (saved : List Saved) :
    Text.join "" (saved.map (savedText preserve)) =
      Text.join "" ((saved.filter (·.content ≠ "")).map (savedText preserve)) := by
  induction saved with
  | nil => rfl
  | cons s saved ih =>
    rw [List.map_cons, Text.join_empty_cons]
    by_cases hs : s.content = ""
    · have hempty : savedText preserve s = "" := if_pos hs
      rw [List.filter_cons_of_neg (by simpa using hs), hempty, String.empty_append, ih]
    · rw [List.filter_cons_of_pos (by simpa using hs), List.map_cons, Text.join_empty_cons, ih]

theorem render_eq_body (preserve : Bool) (calls : List Call) :
    render preserve calls = body preserve calls := by
  have htexts : savedTexts preserve calls = Text.join "" (((calls.filterMap Call.saved?).filter
      (·.content ≠ "")).map (savedText preserve)) := by
    rw [savedTexts_eq, join_savedText_filter]
  unfold render body
  generalize hsaved : (calls.filterMap Call.saved?).filter (·.content ≠ "") = saved at htexts
  have hcontent : ∀ s ∈ saved, s.content ≠ "" := by
    intro s hs
    rw [← hsaved] at hs
    simpa using (List.mem_filter.1 hs).2
  cases saved with
  | nil => exact if_pos htexts
  | cons s saved =>
    have hne : savedTexts preserve calls ≠ "" := by
      rw [htexts, Ne, join_eq_empty_iff]
      intro hall
      exact savedText_ne_empty preserve (hcontent s List.mem_cons_self) (hall _ (by simp))
    simp only [hne, if_false, reduceCtorEq]
    rw [htexts, List.map_congr_left fun t ht => savedText_eq_laidOut preserve (hcontent t ht)]

end Vineflower

/-! ## All engines -/

/-- Whatever calls a back end makes before, and whatever it finds in the scope and on the host : if
it fails, its engine gives an error of its own name with every text of the failure and nothing of
the calls; if not, the engine gives the body of the calls with its footer. -/
theorem engines_conclude (id : ClassId) (bytes : ByteArray) (scope : Scope) (preserve : Bool)
    (h : Host) :
    (∀ backend : Cfr.Backend,
      Concludes Cfr.descriptor
        (((backend id.classPath (Cfr.Source.ofScope (scope.primaryFirst id bytes)) preserve
          Cfr.options).run h).1.outcomeWith (Cfr.body preserve))
        (((Cfr.engine backend).decompile id bytes scope preserve).run h).1) ∧
    (∀ backend : JdCore.Backend,
      Concludes JdCore.descriptor
        (((backend (scope.primaryFirst id bytes) id.text).run h).1.outcomeWith
          (JdCore.body preserve))
        (((JdCore.engine backend).decompile id bytes scope preserve).run h).1) ∧
    (∀ backend : Procyon.Backend,
      Concludes Procyon.descriptor
        ((backend id.text (Procyon.Loader.ofScope (scope.primaryFirst id bytes))
          Procyon.settings).run h).1
        (((Procyon.engine backend).decompile id bytes scope preserve).run h).1) ∧
    (∀ backend : Vineflower.Backend,
      Concludes Vineflower.descriptor
        (((backend (Vineflower.sourcePath h id)
          (Vineflower.Provider.ofScope (scope.primaryFirst id bytes) id)
          (Vineflower.options preserve)).run h).1.outcomeWith (Vineflower.body preserve))
        (((Vineflower.engine backend).decompile id bytes scope preserve).run h).1) := by
  refine ⟨fun backend => ?_, fun backend => ?_, fun backend => ?_, fun backend => ?_⟩
  · rw [Cfr.run_decompile]
    generalize ((backend id.classPath _ preserve Cfr.options).run h).1 = r
    refine concludes_of_report (by decide) (fun hr => ?_) fun f hf => ?_
    · rw [Cfr.finish, hr, Cfr.render_eq_body]
    · rw [Cfr.finish, hf]
  · rw [JdCore.run_decompile]
    generalize ((backend (scope.primaryFirst id bytes) id.text).run h).1 = r
    refine concludes_of_report (by decide) (fun hr => ?_) fun f hf => ?_
    · rw [JdCore.finish, hr, JdCore.render_eq_body]
    · rw [JdCore.finish, hf]
  · rw [Procyon.run_decompile]
    generalize ((backend id.text _ Procyon.settings).run h).1 = r
    refine concludes_of (by decide) (fun body hbody => ?_) fun f hf => ?_
    · rw [hbody, Procyon.finish]
    · rw [hf, Procyon.finish]
  · rw [Vineflower.run_decompile]
    generalize ((backend (Vineflower.sourcePath h id) _ (Vineflower.options preserve)).run h).1 = r
    refine concludes_of_report (by decide) (fun hr => ?_) fun f hf => ?_
    · rw [Vineflower.finish, hr, Vineflower.render_eq_body]
    · rw [Vineflower.finish, hf]

end ClassViewer
