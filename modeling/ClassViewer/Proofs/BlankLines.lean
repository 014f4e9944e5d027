import ClassViewer.Engine.JdCore
import ClassViewer.Engine.Procyon
import ClassViewer.Proofs.Convergence
import ClassViewer.Proofs.Lines.Spacing

/-!
# What preserving lines changes

An engine that is asked to preserve lines gives the text it gives otherwise, with blank lines put
in. Each section says for one engine what text a back end sends and which line pairs, how the engine
renders the calls of the back end with and without preserved lines, and that the one rendering
respaces the other. `preserving_lines_only_adds_blank_lines` compares the two runs of every engine
over one back end.
-/

namespace ClassViewer

/-! ## Two results of an engine -/

/-- No pair names both a decompiled and a source line. -/
def NoneUsable (pairs : List (LineNumber × LineNumber)) : Prop :=
  ∀ p ∈ pairs, ¬(0 < p.1 ∧ 0 < p.2)

instance (pairs : List (LineNumber × LineNumber)) : Decidable (NoneUsable pairs) :=
  List.decidableBAll _ pairs

theorem LineMapping.extend_of_noneUsable (m : LineMapping)
    {pairs : List (LineNumber × LineNumber)} (h : NoneUsable pairs) : m.extend pairs = m := by
  induction pairs with
  | nil => rfl
  | cons p pairs ih =>
    have hp : m.insert p.1 p.2 = m := dif_neg (h p List.mem_cons_self)
    have hstep : m.extend (p :: pairs) = (m.insert p.1 p.2).extend pairs := rfl
    rw [hstep, hp, ih fun q hq => h q (List.mem_cons_of_mem p hq)]

/-- Without a usable pair there is nothing to realign by. -/
theorem realign_of_noneUsable (text : String) {pairs : List (LineNumber × LineNumber)}
    (h : NoneUsable pairs) : realign text (LineMapping.ofPairs pairs) = text := by
  rw [LineMapping.ofPairs, LineMapping.extend_of_noneUsable _ h]
  rfl

/-- What an engine gives without and with preserved lines : a text under its footer, and that with
blank lines put in. -/
structure DiffersInBlanks (text : String) (d : Descriptor)
    (plain preserved : Except DecompileError String) : Prop where
  plain_eq : plain = .ok (withFooter text d)
  preserved_eq : ∃ t, preserved = .ok t ∧ Respaced (withFooter text d) t

/-- A footer stays as it is when the text above it is respaced. -/
theorem Respaced.withFooter {s t : String} (h : Respaced s t) (d : Descriptor) :
    Respaced (withFooter s d) (withFooter t d) := by
  have hfooter (u : String) :
      ClassViewer.withFooter u d = u ++ "\n" ++ ("\n" ++ attribution d ++ "\n") := by
    have hnewlines : "\n\n" = "\n" ++ "\n" := by decide
    simp only [ClassViewer.withFooter, hnewlines, String.append_assoc]
  rw [hfooter, hfooter]
  exact h.append_newline (Respaced.refl _)

theorem differsInBlanks {s t : String} (h : Respaced s t) (d : Descriptor) :
    DiffersInBlanks s d (.ok (withFooter s d)) (.ok (withFooter t d)) :=
  ⟨rfl, _, rfl, h.withFooter d⟩

/-! ## CFR -/

namespace Cfr

/-- The text of the pieces some calls send. -/
def sentText (calls : List Call) : String := Text.join "" (calls.map Call.textPart)

/-- The line pairs some calls send. -/
def sentPairs (calls : List Call) : List (LineNumber × LineNumber) := calls.flatMap Call.pairPart

theorem render_true (calls : List Call) :
    render true calls = realign (sentText calls) (LineMapping.ofPairs (sentPairs calls)) :=
  render_of_sends ⟨rfl, rfl⟩

theorem sentText_cons (c : Call) (calls : List Call) :
    sentText (c :: calls) = c.textPart ++ sentText calls := by
  rw [sentText, List.map_cons, Text.join_empty_cons, sentText]

theorem foldl_receive_false (s : Sink) (calls : List Call) :
    calls.foldl (Sink.receive false) s = ⟨s.text ++ sentText calls, s.mapping⟩ := by
  induction calls generalizing s with
  | nil => simp [sentText, Text.join]
  | cons c calls ih =>
    have hc : s.receive false c = ⟨s.text ++ c.textPart, s.mapping⟩ := by
      cases c with
      | text t => rfl
      | lineNumbers pairs => simp [Sink.receive, Call.textPart]
    rw [List.foldl_cons, ih, hc, sentText_cons, ← String.append_assoc]

/-- Line numbers that are sent although nobody wants them are ignored. -/
theorem render_false (calls : List Call) : render false calls = sentText calls := by
  unfold render collect
  rw [foldl_receive_false, String.empty_append]
  rfl

theorem run_decompile (backend : Backend) (id : ClassId) (bytes : ByteArray) (scope : Scope)
    (preserve : Bool) (h : Host) :
    (((engine backend).decompile id bytes scope preserve).run h).1 = finish preserve
      ((backend id.classPath (Source.ofScope (scope.primaryFirst id bytes)) preserve options).run
        h).1 :=
  rfl

end Cfr

/-! ## JD-Core -/

namespace JdCore

/-- What a call writes at a depth of indentation. -/
def Call.written (indents : Nat) : Call → String
  | text t => t
  | number t => t
  | string t _ => t
  | keyword t => t
  | declaration _ name => name
  | reference _ name => name
  | startLine _ => Text.join "" (List.replicate indents indentText)
  | endLine => "\n"
  | extraLine count => String.ofList (List.replicate count '\n')
  | start _ _ _ => ""
  | finish => ""
  | indent => ""
  | unindent => ""

/-- The depth of indentation after a call. -/
def Call.indentsAfter (indents : Nat) : Call → Nat
  | indent => indents + 1
  | unindent => indents - 1
  | _ => indents

/-- The number of the line after a call. -/
def Call.lineAfter (line : LineNumber) : Call → LineNumber
  | start _ _ _ => 1
  | endLine => line + 1
  | extraLine count => line + UInt32.ofNat count
  | _ => line

/-- Whether source lines are told of after a call : the last start has announced some. -/
def Call.toldAfter (told : Bool) : Call → Bool
  | start maxLine _ _ => decide (0 < maxLine)
  | _ => told

/-- The line pair in a call, if source lines are told of. -/
def Call.pairPart (told : Bool) (line : LineNumber) : Call → List (LineNumber × LineNumber)
  | startLine source => if told then [(line, source)] else []
  | _ => []

/-- The text some calls write, from a depth of indentation on. -/
def sentText (indents : Nat) : List Call → String
  | [] => ""
  | c :: calls => c.written indents ++ sentText (c.indentsAfter indents) calls

/-- The line pairs some calls send, from a line on. -/
def sentPairs (told : Bool) (line : LineNumber) : List Call → List (LineNumber × LineNumber)
  | [] => []
  | c :: calls => c.pairPart told line ++ sentPairs (c.toldAfter told) (c.lineAfter line) calls

/-- A printer that records lines exactly if they are preserved and told of. -/
def Printer.Follows (preserve told : Bool) (p : Printer) : Prop := p.recording = (preserve && told)

/-- One call writes its text, and adds its pair if lines are preserved. -/
theorem receive_eq {preserve told : Bool} {p : Printer} (hp : p.Follows preserve told) (c : Call) :
    p.receive preserve c = ⟨preserve && c.toldAfter told, c.indentsAfter p.indents,
      c.lineAfter p.line, p.text ++ c.written p.indents,
      if preserve then p.mapping.extend (c.pairPart told p.line) else p.mapping⟩ := by
  obtain ⟨recording, indents, line, text, mapping⟩ := p
  obtain rfl : recording = (preserve && told) := hp
  cases c with
  | startLine source =>
    cases preserve with
    | false => rfl
    | true =>
      cases told with
      | false => rfl
      | true =>
        by_cases hs : 0 < source
        · simp [Printer.receive, Printer.print, Call.toldAfter, Call.indentsAfter, Call.lineAfter,
            Call.written, Call.pairPart, LineMapping.extend, hs]
        · simp [Printer.receive, Printer.print, Call.toldAfter, Call.indentsAfter, Call.lineAfter,
            Call.written, Call.pairPart, LineMapping.extend, LineMapping.insert, hs]
  | start maxLine major minor =>
    simp [Printer.receive, Call.toldAfter, Call.indentsAfter, Call.lineAfter, Call.written,
      Call.pairPart, LineMapping.extend]
  | endLine =>
    simp [Printer.receive, Printer.newlines, Call.toldAfter, Call.indentsAfter, Call.lineAfter,
      Call.written, Call.pairPart, LineMapping.extend]
  | _ =>
    simp [Printer.receive, Printer.print, Printer.newlines, Call.toldAfter, Call.indentsAfter,
      Call.lineAfter, Call.written, Call.pairPart, LineMapping.extend]

/-- What calls leave : their text whatever the flag, and their pairs if lines are preserved. -/
theorem foldl_receive {preserve told : Bool} {p : Printer} (hp : p.Follows preserve told)
    (calls : List Call) :
    (calls.foldl (Printer.receive preserve) p).text = p.text ++ sentText p.indents calls ∧
      (calls.foldl (Printer.receive preserve) p).mapping =
        if preserve then p.mapping.extend (sentPairs told p.line calls) else p.mapping := by
  induction calls generalizing p told with
  | nil => simp [sentText, sentPairs, LineMapping.extend]
  | cons c calls ih =>
    rw [List.foldl_cons, receive_eq hp]
    have hnext := @ih (c.toldAfter told) ⟨preserve && c.toldAfter told,
      c.indentsAfter p.indents, c.lineAfter p.line, p.text ++ c.written p.indents,
      if preserve then p.mapping.extend (c.pairPart told p.line) else p.mapping⟩ rfl
    refine ⟨?_, ?_⟩
    · rw [hnext.1, sentText, String.append_assoc]
    · rw [hnext.2]
      cases preserve with
      | false => rfl
      | true => exact (LineMapping.extend_append _ _ _).symm

theorem render_false (calls : List Call) : render false calls = sentText 0 calls := by
  obtain ⟨htext, hmap⟩ :=
    foldl_receive (show Printer.blank.Follows false false from rfl) calls
  have hrender : render false calls =
      realign (collect false calls).text (collect false calls).mapping := rfl
  rw [hrender, collect, hmap, htext.trans String.empty_append]
  rfl

theorem render_true (calls : List Call) : render true calls =
    realign (sentText 0 calls) (LineMapping.ofPairs (sentPairs false 0 calls)) := by
  obtain ⟨htext, hmap⟩ :=
    foldl_receive (show Printer.blank.Follows true false from rfl) calls
  have hrender : render true calls =
      realign (collect true calls).text (collect true calls).mapping := rfl
  rw [hrender, collect, hmap, htext.trans String.empty_append]
  rfl

/-- A back end that announces no source lines sends no pairs. -/
theorem sentPairs_eq_nil {calls : List Call}
    (h : ∀ maxLine major minor, .start maxLine major minor ∈ calls → maxLine = 0)
    (line : LineNumber) : sentPairs false line calls = [] := by
  induction calls generalizing line with
  | nil => rfl
  | cons c calls ih =>
    have htold : c.toldAfter false = false := by
      cases c with
      | start maxLine major minor =>
        rw [h maxLine major minor List.mem_cons_self]
        rfl
      | _ => rfl
    have hpair : c.pairPart false line = [] := by
      cases c with
      | startLine source => rfl
      | _ => rfl
    rw [sentPairs, hpair, htold, List.nil_append]
    exact ih (fun maxLine major minor hm => h maxLine major minor (List.mem_cons_of_mem c hm)) _

theorem run_decompile (backend : Backend) (id : ClassId) (bytes : ByteArray) (scope : Scope)
    (preserve : Bool) (h : Host) :
    (((engine backend).decompile id bytes scope preserve).run h).1 =
      finish preserve ((backend (scope.primaryFirst id bytes) id.text).run h).1 :=
  rfl

end JdCore

/-! ## Procyon -/

namespace Procyon

theorem run_decompile (backend : Backend) (id : ClassId) (bytes : ByteArray) (scope : Scope)
    (preserve : Bool) (h : Host) :
    (((engine backend).decompile id bytes scope preserve).run h).1 = finish
      ((backend id.text (Loader.ofScope (scope.primaryFirst id bytes)) settings).run h).1 :=
  rfl

end Procyon

/-! ## Vineflower -/

namespace Vineflower

/-- The texts some calls save. -/
def contents (calls : List Call) : List String :=
  (calls.filterMap Call.saved?).map Saved.content

/-- Every saved text that is not empty ends its last line, except for the last such text. -/
def EndsLines (texts : List String) : Prop :=
  ∀ t ∈ (texts.filter (· != "")).dropLast, Text.endsWith "\n" t = true

instance (texts : List String) : Decidable (EndsLines texts) :=
  List.decidableBAll _ (texts.filter (· != "")).dropLast

/-- The saved texts put together, or a note that there are none. -/
def sentText (calls : List Call) : String :=
  if Text.join "" (contents calls) = "" then noOutput calls else Text.join "" (contents calls)

theorem savedText_false (s : Saved) : savedText false s = s.content := by
  unfold savedText
  split
  · rename_i h
    exact h.symm
  · split <;> rfl

/-- A saved text is realigned by its own pairs, or left alone. -/
theorem exists_savedText_true (s : Saved) : savedText true s = s.content ∨
    ∃ flat, s.lines = some flat ∧
      savedText true s = realign s.content (LineMapping.ofFlat flat) := by
  unfold savedText
  split
  · rename_i h
    exact .inl h.symm
  · split
    · rename_i flat hl
      split
      · exact .inr ⟨flat, hl, rfl⟩
      · exact .inl rfl
    · exact .inl rfl

theorem respaced_savedText (s : Saved) : Respaced s.content (savedText true s) := by
  rcases exists_savedText_true s with h | ⟨flat, -, h⟩
  · rw [h]
    exact Respaced.refl _
  · rw [h]
    exact respaced_realign _ _

theorem savedText_true_eq_empty_iff (s : Saved) : savedText true s = "" ↔ s.content = "" := by
  constructor
  · intro h
    rcases exists_savedText_true s with hs | ⟨flat, -, hs⟩
    · exact hs.symm.trans h
    · by_cases hc : s.content = ""
      · exact hc
      · exact absurd (hs.symm.trans h) (realign_ne_empty hc _)
  · intro h
    simp [savedText, h]

theorem savedTexts_false (calls : List Call) :
    savedTexts false calls = Text.join "" (contents calls) := by
  rw [savedTexts_eq, contents, List.map_congr_left fun s _ => savedText_false s]

theorem join_eq_empty_iff (texts : List String) :
    Text.join "" texts = "" ↔ ∀ t ∈ texts, t = "" := by
  induction texts with
  | nil => simp [Text.join]
  | cons t texts ih =>
    rw [Text.join_empty_cons, String.append_eq_empty_iff, ih, List.forall_mem_cons]

/-- There is a text to show with preserved lines exactly if there is one without. -/
theorem savedTexts_true_eq_empty_iff (calls : List Call) :
    savedTexts true calls = "" ↔ Text.join "" (contents calls) = "" := by
  rw [savedTexts_eq, contents, join_eq_empty_iff, join_eq_empty_iff, List.forall_mem_map,
    List.forall_mem_map]
  exact forall₂_congr fun s _ => savedText_true_eq_empty_iff s

/-- Texts that are realigned one by one and put together are respaced as a whole. -/
theorem respaced_join (saved : List Saved) (h : EndsLines (saved.map Saved.content)) :
    Respaced (Text.join "" (saved.map Saved.content))
      (Text.join "" (saved.map (savedText true))) := by
  induction saved with
  | nil => exact Respaced.refl _
  | cons s saved ih =>
    rw [List.map_cons, List.map_cons, Text.join_empty_cons, Text.join_empty_cons]
    rw [EndsLines, List.map_cons] at h
    by_cases hs : s.content = ""
    · rw [List.filter_cons_of_neg (by simpa using hs)] at h
      rw [hs, (savedText_true_eq_empty_iff s).mpr hs, String.empty_append, String.empty_append]
      exact ih h
    · rw [List.filter_cons_of_pos (by simpa using hs)] at h
      cases hrest : (saved.map Saved.content).filter (· != "") with
      | nil =>
        -- No text follows, so this one need not end its last line.
        have hnone : ∀ t ∈ saved.map Saved.content, t = "" := by simpa using hrest
        have hjoin : Text.join "" (saved.map Saved.content) = "" := (join_eq_empty_iff _).mpr hnone
        have hjoin' : Text.join "" (saved.map (savedText true)) = "" := by
          rw [join_eq_empty_iff, List.forall_mem_map]
          intro t ht
          exact (savedText_true_eq_empty_iff t).mpr (hnone _ (List.mem_map_of_mem ht))
        rw [hjoin, hjoin', String.append_empty, String.append_empty]
        exact respaced_savedText s
      | cons t rest =>
        rw [hrest, List.dropLast_cons_cons] at h
        refine (respaced_savedText s).append (h _ List.mem_cons_self) (ih ?_)
        rw [EndsLines, hrest]
        exact fun u hu => h u (List.mem_cons_of_mem _ hu)

theorem render_false (calls : List Call) : render false calls = sentText calls := by
  unfold render sentText
  rw [savedTexts_false]

theorem respaced_render (calls : List Call) (h : EndsLines (contents calls)) :
    Respaced (sentText calls) (render true calls) := by
  unfold render sentText
  by_cases he : Text.join "" (contents calls) = ""
  · simp only [he, (savedTexts_true_eq_empty_iff calls).mpr he, if_true]
    exact Respaced.refl _
  · simp only [he, mt (savedTexts_true_eq_empty_iff calls).mp he, if_false]
    rw [savedTexts_eq]
    exact respaced_join _ h

/-- Without a usable pair in any saved class, preserving lines changes nothing. -/
theorem render_true_of_noneUsable {calls : List Call}
    (h : ∀ s flat, .save s ∈ calls → s.lines = some flat →
      NoneUsable (LineMapping.linePairs flat)) :
    render true calls = render false calls := by
  have htext : ∀ c ∈ calls, Call.text true c = Call.text false c := by
    intro c hc
    cases c with
    | log severity message => rfl
    | save s =>
      rw [Call.text, Call.text, savedText_false]
      rcases exists_savedText_true s with hs | ⟨flat, hl, hs⟩
      · exact hs
      · rw [hs, LineMapping.ofFlat, realign_of_noneUsable _ (h s flat hc hl)]
  have hall : savedTexts true calls = savedTexts false calls := by
    rw [savedTexts, savedTexts, List.map_congr_left htext]
  unfold render
  rw [hall]

theorem run_decompile (backend : Backend) (id : ClassId) (bytes : ByteArray) (scope : Scope)
    (preserve : Bool) (h : Host) :
    (((engine backend).decompile id bytes scope preserve).run h).1 = finish preserve
      ((backend (sourcePath h id) (Provider.ofScope (scope.primaryFirst id bytes) id)
        (options preserve)).run h).1 :=
  rfl

end Vineflower

/-! ## All engines -/

/-- For each engine and every back end that makes the same calls whether lines are preserved or not
and succeeds : without preserved lines the engine gives the text that was sent under its footer,
and with preserved lines the same lines with blank ones put in. Nothing is put in by Procyon, by
JD-Core if no source lines were announced, and where no usable line pair was sent. -/
theorem preserving_lines_only_adds_blank_lines (id : ClassId) (bytes : ByteArray) (scope : Scope)
    (h : Host) :
    (∀ (backend : Cfr.Backend) (calls : List Cfr.Call),
      (∀ preserve, ((backend id.classPath (Cfr.Source.ofScope (scope.primaryFirst id bytes))
        preserve Cfr.options).run h).1 = ⟨calls, .ok ()⟩) →
      let result := fun preserve =>
        (((Cfr.engine backend).decompile id bytes scope preserve).run h).1
      DiffersInBlanks (Cfr.sentText calls) Cfr.descriptor (result false) (result true) ∧
        (NoneUsable (Cfr.sentPairs calls) → result true = result false)) ∧
    (∀ (backend : JdCore.Backend) (calls : List JdCore.Call),
      ((backend (scope.primaryFirst id bytes) id.text).run h).1 = ⟨calls, .ok ()⟩ →
      let result := fun preserve =>
        (((JdCore.engine backend).decompile id bytes scope preserve).run h).1
      DiffersInBlanks (JdCore.sentText 0 calls) JdCore.descriptor (result false) (result true) ∧
        ((∀ maxLine major minor, .start maxLine major minor ∈ calls → maxLine = 0) →
          result true = result false) ∧
        (NoneUsable (JdCore.sentPairs false 0 calls) → result true = result false)) ∧
    (∀ (backend : Procyon.Backend) (text : String),
      ((backend id.text (Procyon.Loader.ofScope (scope.primaryFirst id bytes))
        Procyon.settings).run h).1 = .ok text →
      let result := fun preserve =>
        (((Procyon.engine backend).decompile id bytes scope preserve).run h).1
      DiffersInBlanks text Procyon.descriptor (result false) (result true) ∧
        result true = result false) ∧
    (∀ (backend : Vineflower.Backend) (calls : List Vineflower.Call),
      (∀ preserve, ((backend (Vineflower.sourcePath h id)
        (Vineflower.Provider.ofScope (scope.primaryFirst id bytes) id)
        (Vineflower.options preserve)).run h).1 = ⟨calls, .ok ()⟩) →
      Vineflower.EndsLines (Vineflower.contents calls) →
      let result := fun preserve =>
        (((Vineflower.engine backend).decompile id bytes scope preserve).run h).1
      DiffersInBlanks (Vineflower.sentText calls) Vineflower.descriptor (result false)
          (result true) ∧
        ((∀ s flat, .save s ∈ calls → s.lines = some flat →
          NoneUsable (LineMapping.linePairs flat)) → result true = result false)) := by
  refine ⟨?_, ?_, ?_, ?_⟩
  · intro backend calls hrun
    have hresult : ∀ preserve, (((Cfr.engine backend).decompile id bytes scope preserve).run h).1 =
        .ok (withFooter (Cfr.render preserve calls) Cfr.descriptor) := by
      intro preserve
      rw [Cfr.run_decompile, hrun]
      rfl
    simp only [hresult, Cfr.render_false, Cfr.render_true]
    refine ⟨differsInBlanks (respaced_realign _ _) _, fun hnone => ?_⟩
    rw [realign_of_noneUsable _ hnone]
  · intro backend calls hrun
    have hresult : ∀ preserve,
        (((JdCore.engine backend).decompile id bytes scope preserve).run h).1 =
          .ok (withFooter (JdCore.render preserve calls) JdCore.descriptor) := by
      intro preserve
      rw [JdCore.run_decompile, hrun]
      rfl
    simp only [hresult, JdCore.render_false, JdCore.render_true]
    refine ⟨differsInBlanks (respaced_realign _ _) _, fun hzero => ?_, fun hnone => ?_⟩
    · rw [JdCore.sentPairs_eq_nil hzero]
      rfl
    · rw [realign_of_noneUsable _ hnone]
  · intro backend text hrun
    have hresult : ∀ preserve,
        (((Procyon.engine backend).decompile id bytes scope preserve).run h).1 =
          .ok (withFooter text Procyon.descriptor) := by
      intro preserve
      rw [Procyon.run_decompile, hrun]
      rfl
    simp only [hresult]
    exact ⟨differsInBlanks (Respaced.refl text) _, trivial⟩
  · intro backend calls hrun hends
    have hresult : ∀ preserve,
        (((Vineflower.engine backend).decompile id bytes scope preserve).run h).1 =
          .ok (withFooter (Vineflower.render preserve calls) Vineflower.descriptor) := by
      intro preserve
      rw [Vineflower.run_decompile, hrun]
      rfl
    simp only [hresult]
    refine ⟨?_, fun hnone => by rw [Vineflower.render_true_of_noneUsable hnone]⟩
    rw [Vineflower.render_false]
    exact differsInBlanks (Vineflower.respaced_render calls hends) _

/-- A class sent by CFR with a line number, and one with numbers that say nothing. -/
def numberedPieces : List Cfr.Call := [.text "a\n", .lineNumbers [(2, 4)], .text "b\n"]

def unnumberedPieces : List Cfr.Call := [.text "a\nb\n", .lineNumbers [(0, 4), (2, 0)]]

/-- A class printed by JD-Core with a line number, and one whose number was not announced. -/
def numberedPrint : List JdCore.Call :=
  [.start 9 52 0, .startLine 0, .text "a", .endLine, .indent, .startLine 4, .text "b", .endLine]

def unannouncedPrint : List JdCore.Call := [.start 0 52 0, .startLine 4, .text "a", .endLine]

/-- Two classes saved by Vineflower with line numbers, the second of which does not end its last
line, and one without numbers. -/
def numberedClasses : List Vineflower.Call :=
  [.save ⟨"", "a.B", "a/B.java", "a\nb\n", some [2, 4]⟩, .log .warn "slow",
    .save ⟨"", "a.C", "a/C.java", "c\nd", some [1, 2, 2, 3]⟩]

def unnumberedClass : List Vineflower.Call := [.save ⟨"", "a.B", "a/B.java", "a\nb", none⟩]

theorem sample_calls_differ_in_blanks :
    let cfr := fun calls preserve => (((Cfr.engine fun _ _ _ _ => pure ⟨calls, .ok ()⟩).decompile
      ⟨"a/B"⟩ ByteArray.empty Scope.nothing preserve).run default).1
    let jdCore := fun calls preserve => (((JdCore.engine fun _ _ => pure ⟨calls, .ok ()⟩).decompile
      ⟨"a/B"⟩ ByteArray.empty Scope.nothing preserve).run default).1
    let procyon := fun preserve => (((Procyon.engine fun _ _ _ => pure (.ok "a\nb")).decompile
      ⟨"a/B"⟩ ByteArray.empty Scope.nothing preserve).run default).1
    let vineflower := fun calls preserve =>
      (((Vineflower.engine fun _ _ _ => pure ⟨calls, .ok ()⟩).decompile
        ⟨"a/B"⟩ ByteArray.empty Scope.nothing preserve).run default).1
    DiffersInBlanks "a\nb\n" Cfr.descriptor (cfr numberedPieces false) (cfr numberedPieces true) ∧
      cfr unnumberedPieces true = cfr unnumberedPieces false ∧
      DiffersInBlanks "a\n    b\n" JdCore.descriptor (jdCore numberedPrint false)
        (jdCore numberedPrint true) ∧
      jdCore unannouncedPrint true = jdCore unannouncedPrint false ∧
      DiffersInBlanks "a\nb" Procyon.descriptor (procyon false) (procyon true) ∧
      DiffersInBlanks "a\nb\nc\nd" Vineflower.descriptor (vineflower numberedClasses false)
        (vineflower numberedClasses true) ∧
      vineflower unnumberedClass true = vineflower unnumberedClass false := by
  obtain ⟨hcfr, hjd, hprocyon, hvine⟩ :=
    preserving_lines_only_adds_blank_lines ⟨"a/B"⟩ ByteArray.empty Scope.nothing default
  have htexts : Cfr.sentText numberedPieces = "a\nb\n" ∧
      JdCore.sentText 0 numberedPrint = "a\n    b\n" ∧
      Vineflower.sentText numberedClasses = "a\nb\nc\nd" := by decide
  have hends : Vineflower.EndsLines (Vineflower.contents numberedClasses) ∧
      Vineflower.EndsLines (Vineflower.contents unnumberedClass) := by decide
  refine ⟨?_, ?_, ?_, ?_, ?_, ?_, ?_⟩
  · exact htexts.1 ▸ (hcfr _ numberedPieces fun _ => rfl).1
  · exact (hcfr _ unnumberedPieces fun _ => rfl).2 (by decide)
  · exact htexts.2.1 ▸ (hjd _ numberedPrint rfl).1
  · refine (hjd _ unannouncedPrint rfl).2.1 fun maxLine major minor hm => ?_
    simp only [unannouncedPrint, List.mem_cons, JdCore.Call.start.injEq, reduceCtorEq,
      List.not_mem_nil, or_false] at hm
    exact hm.1
  · exact (hprocyon _ "a\nb" rfl).1
  · exact htexts.2.2 ▸ (hvine _ numberedClasses (fun _ => rfl) hends.1).1
  · refine (hvine _ unnumberedClass (fun _ => rfl) hends.2).2 fun s flat hm hl => ?_
    obtain rfl : s = ⟨"", "a.B", "a/B.java", "a\nb", none⟩ := by simpa [unnumberedClass] using hm
    cases hl

end ClassViewer
