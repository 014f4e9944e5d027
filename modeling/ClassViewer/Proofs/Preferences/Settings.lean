import ClassViewer.CommandLine.Program
import ClassViewer.Proofs.Stores

/-!
# Settings

Requests that follow on one another leave settings (`settingsAfter`) : what was selected and asked
for last since the preferences were reset. A table of preferences tells them (`Table.Tells`) if its
entries are what was said last; a request that says something writes it to the table
(`Request.written?`), and then the table tells the settings after the request (`Table.Tells.said`).
What says nothing leaves them as they are (`Table.Tells.unsaid`).
-/

namespace ClassViewer

open CommandLine

/-! ## Settings after requests -/

/-- The engines of the program, in the order they are presented in. -/
def presented : List Descriptor :=
  [Cfr.descriptor, JdCore.descriptor, Procyon.descriptor, Vineflower.descriptor]

/-- The engine that a request selects; an unknown one is not selected. -/
def CommandLine.Request.chosen? : Request → Option String
  | .select id => if id ∈ presented.map (·.id) then some id else none
  | _ => none

/-- Whether lines are to be preserved from a request on, if it says so. -/
def CommandLine.Request.realigned? : Request → Option Bool
  | .realign enabled => some enabled
  | _ => none

/-- The requests since the last reset, the last one first. -/
def sinceReset (requests : List Request) : List Request :=
  requests.reverse.takeWhile fun r => decide (r ≠ .reset)

/-- What is selected, and whether lines are preserved. -/
structure Settings where
  selected : String
  preserveLines : Bool
  deriving DecidableEq, Repr

/-- The settings after requests : what was said last since the last reset, or the defaults. -/
def settingsAfter (requests : List Request) : Settings where
  selected := ((sinceReset requests).findSome? (·.chosen?)).getD "cfr"
  preserveLines := ((sinceReset requests).findSome? (·.realigned?)).getD true

/-- How settings are shown. -/
def Settings.shown (s : Settings) (db : Path) : String :=
  (Json.obj [("selected", .str s.selected), ("preserve_line_numbers", .bool s.preserveLines),
    ("db_path", .str db.text)]).pretty ++ "\n"

/-- How the engines are listed. -/
def Settings.listed (s : Settings) : String :=
  (Json.arr (presented.map (engineRow s.selected))).pretty ++ "\n"

/-- What a request prints if the settings are those after it. What is decompiled is printed by
requests that say nothing about settings. -/
def Settings.answer? (s : Settings) (db : Path) : Request → Option String
  | .showSettings => some (s.shown db)
  | .select _ => some (s.shown db)
  | .realign _ => some (s.shown db)
  | .engines => some s.listed
  | .reset => some ""
  | .decompile .. => none
  | .directory .. => none

theorem sinceReset_concat (requests : List Request) (r : Request) :
    sinceReset (requests ++ [r]) = if r = .reset then [] else r :: sinceReset requests := by
  rw [sinceReset, List.reverse_append, List.reverse_singleton, List.singleton_append,
    List.takeWhile_cons]
  by_cases h : r = .reset
  · simp [h]
  · simp [h, sinceReset]

/-- What says nothing about settings does not change them. -/
theorem settingsAfter_concat_of_unsaid {r : Request} (hr : r ≠ .reset) (hchosen : r.chosen? = none)
    (hrealigned : r.realigned? = none) (requests : List Request) :
    settingsAfter (requests ++ [r]) = settingsAfter requests := by
  unfold settingsAfter
  rw [sinceReset_concat, if_neg hr, List.findSome?_cons, List.findSome?_cons, hchosen, hrealigned]

theorem selected_settingsAfter_mem (requests : List Request) :
    (settingsAfter requests).selected ∈ presented.map (·.id) := by
  unfold settingsAfter
  cases h : (sinceReset requests).findSome? (·.chosen?) with
  | none => exact List.mem_cons_self
  | some id =>
    obtain ⟨r, -, hr⟩ := List.exists_of_findSome?_eq_some h
    unfold Request.chosen? at hr
    split at hr
    · split at hr
      · obtain rfl := Option.some.inj hr
        assumption
      · cases hr
    · cases hr

/-- Exactly one of the engines that are listed is selected. -/
theorem filter_presented_selected (requests : List Request) :
    (presented.map (·.id)).filter (· == (settingsAfter requests).selected) =
      [(settingsAfter requests).selected] := by
  have hone : ∀ id ∈ presented.map (·.id), (presented.map (·.id)).filter (· == id) = [id] := by
    decide
  exact hone _ (selected_settingsAfter_mem requests)

/-! ## Tables that tell them -/

/-- The keys of the preferences. -/
def preferenceKeys : List String := [selectedKey, preserveLinesKey]

/-- The key and the value that a request writes, if it says something about settings. -/
def CommandLine.Request.written? (r : Request) : Option (String × String) :=
  (r.chosen?.map fun id => (selectedKey, id)).or
    (r.realigned?.map fun enabled => (preserveLinesKey, Store.boolText enabled))

/-- A table that tells the settings after requests. -/
structure Table.Tells (t : Table) (requests : List Request) : Prop where
  chosen : t.lookup selectedKey = (sinceReset requests).findSome? (·.chosen?)
  realigned : t.lookup preserveLinesKey =
    ((sinceReset requests).findSome? (·.realigned?)).map Store.boolText

theorem selectedKey_ne_preserveLinesKey : selectedKey ≠ preserveLinesKey := by decide

/-- A request writes short values under the keys of the preferences. -/
theorem CommandLine.Request.written?_short {r : Request} {key value : String}
    (h : r.written? = some (key, value)) :
    key ∈ preferenceKeys ∧ value.utf8ByteSize ≤ 32 := by
  have hids : ∀ id ∈ presented.map (·.id), id.utf8ByteSize ≤ 32 := by decide
  have hflags : ∀ b, (Store.boolText b).utf8ByteSize ≤ 32 := by decide
  cases r with
  | select id =>
    by_cases hid : id ∈ presented.map (·.id)
    · simp only [written?, chosen?, if_pos hid, Option.map_some, Option.some_or] at h
      obtain ⟨rfl, rfl⟩ := Prod.mk.inj (Option.some.inj h)
      exact ⟨List.mem_cons_self, hids _ hid⟩
    · simp only [written?, chosen?, if_neg hid, realigned?] at h
      cases h
  | realign enabled =>
    obtain ⟨rfl, rfl⟩ := Prod.mk.inj (Option.some.inj h)
    exact ⟨List.mem_cons_of_mem _ List.mem_cons_self, hflags enabled⟩
  | _ => cases h

namespace Table.Tells

variable {t : Table} {requests : List Request} {r : Request}

/-- Without requests, and after a reset, a table without entries tells the settings. -/
theorem nil (h : sinceReset requests = []) : Tells [] requests := by
  constructor <;> rw [h] <;> rfl

/-- What says nothing leaves a table that tells the settings after it. -/
theorem unsaid (h : t.Tells requests) (hr : r ≠ .reset) (hwritten : r.written? = none) :
    t.Tells (requests ++ [r]) := by
  obtain ⟨hchosen, hrealigned⟩ := Option.or_eq_none_iff.1 hwritten
  constructor
  · rw [sinceReset_concat, if_neg hr, List.findSome?_cons, Option.map_eq_none_iff.1 hchosen]
    exact h.chosen
  · rw [sinceReset_concat, if_neg hr, List.findSome?_cons, Option.map_eq_none_iff.1 hrealigned]
    exact h.realigned

/-- Once what a request says is written, the table tells the settings after it. -/
theorem said (h : t.Tells requests) {key value : String} (hr : r.written? = some (key, value)) :
    (t.put key value).Tells (requests ++ [r]) := by
  cases r with
  | select id =>
    by_cases hid : id ∈ presented.map (·.id)
    · have hchosen : (Request.select id).chosen? = some id := if_pos hid
      simp only [Request.written?, hchosen, Option.map_some, Option.some_or] at hr
      obtain ⟨rfl, rfl⟩ := Prod.mk.inj (Option.some.inj hr)
      constructor
      · rw [Table.lookup_put_self, sinceReset_concat, if_neg (by simp), List.findSome?_cons,
          hchosen]
      · rw [Table.lookup_put_of_ne selectedKey_ne_preserveLinesKey.symm, h.realigned,
          sinceReset_concat, if_neg (by simp)]
        rfl
    · simp only [Request.written?, Request.chosen?, if_neg hid, Request.realigned?] at hr
      cases hr
  | realign enabled =>
    obtain ⟨rfl, rfl⟩ := Prod.mk.inj (Option.some.inj hr)
    constructor
    · rw [Table.lookup_put_of_ne selectedKey_ne_preserveLinesKey, h.chosen, sinceReset_concat,
        if_neg (by simp)]
      rfl
    · rw [Table.lookup_put_self, sinceReset_concat, if_neg (by simp)]
      rfl
  | _ => cases hr

end Table.Tells

end ClassViewer
