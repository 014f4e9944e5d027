import ClassViewer.Engine.Cfr
import ClassViewer.Engine.Vineflower
import ClassViewer.Proofs.Lines.Mapping
import ClassViewer.Proofs.Lines.Realign

/-!
# Two shapes of line information

CFR sends pieces of text and batches of line pairs in turn, Vineflower a whole text with one flat
list. What CFR leaves depends only on the text and the pairs put together, not on how they were
split and mixed (`Cfr.collect_eq`), and a flat list holds the same pairs
(`Vineflower.render_of_savesOnce`). So both engines realign the same text by the same mapping, and
differ in their footers alone (`line_shapes_converge`).
-/

namespace ClassViewer

/-! ## Pieces and batches -/

namespace Cfr

/-- The text in a call. -/
def Call.textPart : Call → String
  | text t => t
  | lineNumbers _ => ""

/-- The line pairs in a call. -/
def Call.pairPart : Call → List (LineNumber × LineNumber)
  | text _ => []
  | lineNumbers pairs => pairs

/-- The calls send a text in pieces and some line pairs in batches, each in their order. -/
def Sends (calls : List Call) (text : String) (pairs : List (LineNumber × LineNumber)) : Prop :=
  Text.join "" (calls.map Call.textPart) = text ∧ calls.flatMap Call.pairPart = pairs

/-- One call adds its text and its pairs. -/
theorem receive_eq (s : Sink) (c : Call) :
    s.receive true c = ⟨s.text ++ c.textPart, s.mapping.extend c.pairPart⟩ := by
  cases c with
  | text t => rfl
  | lineNumbers pairs => simp [Sink.receive, Call.textPart, Call.pairPart]

theorem foldl_receive (s : Sink) (calls : List Call) :
    calls.foldl (Sink.receive true) s =
      ⟨s.text ++ Text.join "" (calls.map Call.textPart),
        s.mapping.extend (calls.flatMap Call.pairPart)⟩ := by
  induction calls generalizing s with
  | nil => simp [Text.join, LineMapping.extend]
  | cons c calls ih =>
    rw [List.foldl_cons, ih, receive_eq, List.map_cons, Text.join_empty_cons, List.flatMap_cons,
      LineMapping.extend_append, String.append_assoc]

/-- What calls leave depends only on the text and the pairs they send. -/
theorem collect_eq {calls : List Call} {text : String} {pairs : List (LineNumber × LineNumber)}
    (hs : Sends calls text pairs) : collect true calls = ⟨text, LineMapping.ofPairs pairs⟩ := by
  obtain ⟨rfl, rfl⟩ := hs
  rw [collect, foldl_receive, String.empty_append]
  rfl

/-- The text is realigned also where the mapping is empty and the engine does not try. -/
theorem render_of_sends {calls : List Call} {text : String}
    {pairs : List (LineNumber × LineNumber)} (hs : Sends calls text pairs) :
    render true calls = realign text (LineMapping.ofPairs pairs) := by
  unfold render
  rw [collect_eq hs]
  cases he : (LineMapping.ofPairs pairs).isEmpty with
  | false => simp [he]
  | true => simp [he, realign]

end Cfr

/-! ## A text with a flat list -/

namespace Vineflower

/-- The class a call saves. -/
def Call.saved? : Call → Option Saved
  | save s => some s
  | log _ _ => none

/-- The calls save one class, a text with the flat list of some line pairs and at most one odd
number behind them. Anything may be logged before and after it. -/
def SavesOnce (calls : List Call) (text : String) (pairs : List (LineNumber × LineNumber)) : Prop :=
  ∃ (s : Saved) (odd : List Int), calls.filterMap Call.saved? = [s] ∧ odd.length ≤ 1 ∧
    s.content = text ∧ s.lines = some (LineMapping.flat pairs ++ odd)

theorem savedTexts_eq (preserve : Bool) (calls : List Call) :
    savedTexts preserve calls =
      Text.join "" ((calls.filterMap Call.saved?).map (savedText preserve)) := by
  induction calls with
  | nil => rfl
  | cons c calls ih =>
    have hc : savedTexts preserve (c :: calls) = c.text preserve ++ savedTexts preserve calls := by
      rw [savedTexts, List.map_cons, Text.join_empty_cons]
      rfl
    rw [hc, ih]
    cases c with
    | save s =>
      have hs : (Call.save s).saved? = some s := rfl
      rw [List.filterMap_cons_some hs, List.map_cons, Text.join_empty_cons]
      rfl
    | log severity message =>
      have hs : (Call.log severity message).saved? = none := rfl
      rw [List.filterMap_cons_none hs]
      exact String.empty_append

/-- A saved text is realigned by the pairs of its flat list, also where the list is empty. -/
theorem savedText_of_flat {s : Saved} {pairs : List (LineNumber × LineNumber)} {odd : List Int}
    (ho : odd.length ≤ 1) (hl : s.lines = some (LineMapping.flat pairs ++ odd))
    (hc : s.content ≠ "") : savedText true s = realign s.content (LineMapping.ofPairs pairs) := by
  have hp : LineMapping.ofFlat (LineMapping.flat pairs ++ odd) = LineMapping.ofPairs pairs := by
    rw [LineMapping.ofFlat, LineMapping.linePairs_flat_append pairs ho]
  unfold savedText
  rw [if_neg hc, hl]
  cases he : (LineMapping.flat pairs ++ odd).isEmpty with
  | false => simp [he, hp]
  | true =>
    rw [List.isEmpty_iff.1 he] at hp
    simp [he, ← hp, LineMapping.ofFlat, LineMapping.linePairs, LineMapping.pairUp]
    rfl

theorem render_of_savesOnce {calls : List Call} {text : String}
    {pairs : List (LineNumber × LineNumber)} (hs : SavesOnce calls text pairs) (ht : text ≠ "") :
    render true calls = realign text (LineMapping.ofPairs pairs) := by
  obtain ⟨s, odd, hsave, hodd, rfl, hlines⟩ := hs
  unfold render
  rw [savedTexts_eq, hsave, List.map_singleton, savedText_of_flat hodd hlines ht, Text.join,
    String.intercalate_singleton]
  exact if_neg (realign_ne_empty ht _)

end Vineflower

/-! ## Both engines -/

/-- Over any back end that sends a text in pieces and line pairs in batches, and over any that saves
the text once with the flat list of the pairs, the engines give the same text before their footers :
the text realigned by the mapping from each line to the source line in the last pair that says
something about it. -/
theorem line_shapes_converge (text : String) (ht : text ≠ "")
    (pairs : List (LineNumber × LineNumber)) (id : ClassId) (bytes : ByteArray) (scope : Scope) :
    ∃ m : LineMapping, (∀ d, m.get? d = lastSource pairs d) ∧
      (∀ (backend : Cfr.Backend) (h h' : Host) (calls : List Cfr.Call),
        (backend id.classPath (Cfr.Source.ofScope (scope.primaryFirst id bytes)) true
          Cfr.options).run h = (⟨calls, .ok ()⟩, h') →
        Cfr.Sends calls text pairs →
        ((Cfr.engine backend).decompile id bytes scope true).run h =
          (.ok (withFooter (realign text m) Cfr.descriptor), h')) ∧
      ∀ (backend : Vineflower.Backend) (h h' : Host) (calls : List Vineflower.Call),
        (backend (Vineflower.sourcePath h id)
          (Vineflower.Provider.ofScope (scope.primaryFirst id bytes) id)
          (Vineflower.options true)).run h = (⟨calls, .ok ()⟩, h') →
        Vineflower.SavesOnce calls text pairs →
        ((Vineflower.engine backend).decompile id bytes scope true).run h =
          (.ok (withFooter (realign text m) Vineflower.descriptor), h') := by
  refine ⟨LineMapping.ofPairs pairs, LineMapping.get?_ofPairs pairs, ?_, ?_⟩
  · intro backend h h' calls hrun hs
    have hfin : Cfr.finish true ⟨calls, .ok ()⟩ =
        .ok (withFooter (realign text (LineMapping.ofPairs pairs)) Cfr.descriptor) := by
      rw [← Cfr.render_of_sends hs]
      rfl
    rw [← hfin]
    simp only [Cfr.engine, StateT.run_bind, hrun]
    rfl
  · intro backend h h' calls hrun hs
    have hfin : Vineflower.finish true ⟨calls, .ok ()⟩ =
        .ok (withFooter (realign text (LineMapping.ofPairs pairs)) Vineflower.descriptor) := by
      rw [← Vineflower.render_of_savesOnce hs ht]
      rfl
    rw [← hfin]
    simp only [Vineflower.engine, StateT.run_bind, StateT.run_get, pure_bind, hrun]
    rfl

/-- Calls with a batch before the first text, a line told twice, an unknown line, and a batch after
the last text. -/
def mixedCalls : List Cfr.Call :=
  [.lineNumbers [(2, 4)], .text "a\n", .lineNumbers [(0, 9), (2, 3)], .text "b\nc",
    .lineNumbers [(3, 7)]]

/-- The same text and pairs saved at once, between two messages and with an odd number. -/
def savedCalls : List Vineflower.Call :=
  [.log .warn "slow", .save ⟨"", "a.B", "a/B.java", "a\nb\nc", some [2, 4, 0, 9, 2, 3, 3, 7, -1]⟩,
    .log .info "done"]

theorem mixed_and_saved_calls_converge :
    ∃ m : LineMapping, m.get? 2 = some 3 ∧ m.get? 0 = none ∧
      ((Cfr.engine fun _ _ _ _ => pure ⟨mixedCalls, .ok ()⟩).decompile ⟨"a/B"⟩ ByteArray.empty
        Scope.nothing true).run default =
        (.ok (withFooter (realign "a\nb\nc" m) Cfr.descriptor), default) ∧
      ((Vineflower.engine fun _ _ _ => pure ⟨savedCalls, .ok ()⟩).decompile ⟨"a/B"⟩
        ByteArray.empty Scope.nothing true).run default =
        (.ok (withFooter (realign "a\nb\nc" m) Vineflower.descriptor), default) := by
  obtain ⟨m, hm, hcfr, hvine⟩ := line_shapes_converge "a\nb\nc" (by decide)
    [(2, 4), (0, 9), (2, 3), (3, 7)] ⟨"a/B"⟩ ByteArray.empty Scope.nothing
  refine ⟨m, hm 2, hm 0, hcfr _ default default mixedCalls rfl ⟨by decide +kernel, rfl⟩,
    hvine _ default default savedCalls rfl ⟨_, [-1], rfl, by decide, rfl, by decide⟩⟩

end ClassViewer
