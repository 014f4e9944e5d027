import ClassViewer.Decompiler
import ClassViewer.Proofs.Lines.Comments
import ClassViewer.Proofs.SharedStore

/-!
# Diagnostics

The text shown in place of source. Whatever lines a message has, every line of the text is a comment
(`commentOnly_diagnostic`). If an engine failed, the text offers the other engines : the ids that
stand for an engine of another display name, in the order they were first registered
(`alternatives_eq`). The first of them, once it is selected, is what the registry answers as long as
the store remembers it (`selected_of_remembers`).
-/

namespace ClassViewer

/-! ## Comments -/

/-- A message behind the beginning of a comment stays one. -/
theorem commentOnly_commentSafe {head : String} (hhead : '\n' ∉ head.toList) (hh : IsComment head)
    (message : String) : CommentOnly (head ++ Registry.commentSafe message ++ "\n") := by
  have hmark : "\n// " = "\n" ++ "// " := by decide
  rw [commentOnly_newline_iff, Registry.commentSafe, hmark]
  exact isComment_of_mem_marked hhead hh (by decide) (by decide) _

/-- A word behind the beginning of a comment, on the same line. -/
theorem commentOnly_word {head word : String} (hhead : '\n' ∉ head.toList) (hh : IsComment head)
    (hword : '\n' ∉ word.toList) : CommentOnly (head ++ word ++ "\n") := by
  refine commentOnly_line ?_ (hh.append word)
  rw [String.toList_append, List.mem_append, not_or]
  exact ⟨hhead, hword⟩

namespace Registry

theorem hint_nil : hint [] = "// Try selecting a different decompiler" ++ "\n" := by
  have hend : "// Try selecting a different decompiler\n" =
      "// Try selecting a different decompiler" ++ "\n" := by decide +kernel
  exact hend

theorem hint_cons (id : String) (rest : List String) : hint (id :: rest) =
    "// Try selecting a different decompiler with `class-lens select " ++ id ++
      "` (available: " ++ Text.join ", " (id :: rest) ++ ")\n" :=
  rfl

theorem diagnostic_engine (r : Registry) (name message : String) :
    r.diagnostic (.engine name message) = "// Decompilation failed with " ++ name ++
      "\n// Error: " ++ commentSafe message ++ "\n" ++ hint (r.alternatives name) :=
  rfl

end Registry

theorem commentOnly_hint {others : List String} (h : ∀ id ∈ others, '\n' ∉ id.toList) :
    CommentOnly (Registry.hint others) := by
  cases others with
  | nil =>
    rw [Registry.hint_nil]
    exact commentOnly_line (by decide +kernel) (by decide +kernel)
  | cons id rest =>
    have hids : '\n' ∉ (Text.join ", " (id :: rest)).toList := Text.not_mem_join (by decide) h
    have hend : ")\n" = ")" ++ "\n" := by decide
    rw [Registry.hint_cons, hend, ← String.append_assoc]
    refine commentOnly_line ?_
      ((((IsComment.append (by decide +kernel) _).append _).append _).append _)
    simp only [String.toList_append, List.mem_append, not_or]
    exact ⟨⟨⟨⟨by decide +kernel, h id List.mem_cons_self⟩, by decide⟩, hids⟩, by decide⟩

theorem DecompileError.not_mem_kind (e : DecompileError) : '\n' ∉ e.kind.toList := by
  cases e <;> simp [kind]

/-- What is said of an engine that failed. -/
theorem commentOnly_engine {r : Registry} (hids : ∀ d ∈ r.descriptors, '\n' ∉ d.id.toList)
    {name : String} (hname : '\n' ∉ name.toList) (message : String) :
    CommentOnly (r.diagnostic (.engine name message)) := by
  have hfirst : CommentOnly ("// Decompilation failed with " ++ name ++ "\n") :=
    commentOnly_word (by decide +kernel) (by decide +kernel) hname
  have hmessage : CommentOnly ("// Error: " ++ Registry.commentSafe message ++ "\n") :=
    commentOnly_commentSafe (by decide) (by decide) message
  have hhint : CommentOnly (Registry.hint (r.alternatives name)) := by
    refine commentOnly_hint fun id hid => ?_
    obtain ⟨d, hd, rfl⟩ := List.mem_map.1 hid
    exact hids d (List.mem_filter.1 hd).1
  have hsplit : "\n// Error: " = "\n" ++ "// Error: " := by decide
  have hall := (hfirst.append hmessage).append hhint
  simp only [String.append_assoc] at hall
  rw [Registry.diagnostic_engine, hsplit]
  simp only [String.append_assoc, -String.reduceAppend]
  exact hall

/-- What is said of any other error. -/
theorem commentOnly_other (e : DecompileError) :
    CommentOnly ("// Error during decompilation: " ++ Registry.commentSafe e.message ++ "\n// " ++
      e.kind ++ "\n") := by
  have hmessage : CommentOnly ("// Error during decompilation: " ++
      Registry.commentSafe e.message ++ "\n") :=
    commentOnly_commentSafe (by decide +kernel) (by decide +kernel) e.message
  have hkind : CommentOnly ("// " ++ e.kind ++ "\n") :=
    commentOnly_word (by decide) (by decide) e.not_mem_kind
  have hsplit : "\n// " = "\n" ++ "// " := by decide
  have hboth := hmessage.append hkind
  simp only [String.append_assoc] at hboth
  rw [hsplit]
  simp only [String.append_assoc, -String.reduceAppend]
  exact hboth

/-- Every line of a diagnostic is a comment. -/
theorem commentOnly_diagnostic {r : Registry} (hids : ∀ d ∈ r.descriptors, '\n' ∉ d.id.toList)
    {e : DecompileError} (he : ∀ name message, e = .engine name message → '\n' ∉ name.toList) :
    CommentOnly (r.diagnostic e) := by
  cases e with
  | engine name message => exact commentOnly_engine hids (he name message rfl) message
  | notFound id => exact commentOnly_other (.notFound id)
  | containerUnresolvable detail => exact commentOnly_other (.containerUnresolvable detail)
  | readOnly text => exact commentOnly_other (.readOnly text)
  | io e => exact commentOnly_other (.io e)
  | archive e => exact commentOnly_other (.archive e)
  | store text => exact commentOnly_other (.store text)

/-! ## The engines that are offered -/

namespace Registry

variable {r : Registry} {registered : List Engine}

/-- An engine that is presented is found under its id. -/
theorem engine?_of_mem {r : Registry} (hr : (engineIds r.engines).Nodup) {e : Engine}
    (he : e ∈ r.engines) : r.engine? e.descriptor.id = some e := by
  unfold engine?
  generalize r.engines = engines at hr he
  induction engines with
  | nil => cases he
  | cons old engines ih =>
    have hr' : (old.descriptor.id :: engineIds engines).Nodup := hr
    rw [List.nodup_cons] at hr'
    rw [findEngine_cons]
    rcases List.mem_cons.1 he with rfl | he
    · exact if_pos rfl
    · have hne : e.descriptor.id ≠ old.descriptor.id := by
        intro h
        exact hr'.1 (h ▸ List.mem_map_of_mem he)
      rw [if_neg hne, ih hr'.2 he]

end Registry

/-- The engine that an id stands for : the one registered last under it. -/
def lastRegistered? (registered : List Engine) (id : String) : Option Engine :=
  (registered.filter fun e => e.descriptor.id == id).getLast?

/-- The ids that stand for an engine of another display name, in the order of their first
registration. -/
def idsBeside (name : String) (registered : List Engine) : List String :=
  (engineIds registered).eraseDups.filter fun id =>
    (lastRegistered? registered id).any fun e => e.descriptor.displayName != name

/-- The ids in the hint are those of the engines that go by another name. -/
theorem alternatives_eq {r : Registry} {registered : List Engine} (hr : r.Presents registered)
    (name : String) : r.alternatives name = idsBeside name registered := by
  have hfound : ∀ e ∈ r.engines, lastRegistered? registered e.descriptor.id = some e := by
    intro e he
    exact (hr.latest e.descriptor.id).symm.trans (Registry.engine?_of_mem hr.distinct he)
  rw [idsBeside, ← hr.ordered, engineIds, List.filter_map, Registry.alternatives,
    Registry.descriptors, List.filter_map, List.map_map]
  refine congrArg (List.map _) (List.filter_congr fun e he => ?_)
  rw [Function.comp_apply, Function.comp_apply, hfound e he]
  rfl

theorem exists_of_mem_idsBeside {name id : String} {registered : List Engine}
    (h : id ∈ idsBeside name registered) :
    ∃ e, lastRegistered? registered id = some e ∧ e.descriptor.displayName ≠ name := by
  obtain ⟨-, hany⟩ := List.mem_filter.1 h
  obtain ⟨e, he, hname⟩ := (Option.any_eq_true _ _).1 hany
  exact ⟨e, he, bne_iff_ne.1 hname⟩

/-! ## The engine that is proposed -/

/-- An id that is registered and that the store remembers is what the registry answers. -/
theorem selected_of_remembers {r : Registry} {id : String} {e : Engine}
    (he : r.engine? id = some e) {h : Host} (hs : r.store.Remembers h selectedKey id) :
    ((r.select id).run h).1 = .ok () ∧ (r.selected.run ((r.select id).run h).2).1 = e := by
  have hselect : (r.select id).run h = (r.store.put selectedKey id).run h := by
    rw [run_select, he]
    rfl
  rw [hselect, Registry.run_selected, hs.given]
  refine ⟨hs.taken, ?_⟩
  have hstored : Registry.storedId (.ok (some id)) = id := rfl
  rw [hstored, Registry.engineFor, he]
  rfl

/-- A registry with engines registered one after the other. -/
def Registry.registering (store : Store) (first : Engine) (later : List Engine) : Registry :=
  later.foldl Registry.register (.new store first)

theorem presents_registering (store : Store) (first : Engine) (later : List Engine) :
    (Registry.registering store first later).Presents (first :: later) := by
  have hfold : ∀ (r : Registry) (registered : List Engine), r.Presents registered →
      (later.foldl Registry.register r).Presents (registered ++ later) := by
    induction later with
    | nil =>
      intro r registered hr
      rwa [List.append_nil]
    | cons e later ih =>
      intro r registered hr
      have hnext := ih _ _ (hr.register e)
      rwa [List.append_assoc] at hnext
  exact hfold _ [first] (Registry.presents_new store first)

theorem store_registering (store : Store) (first : Engine) (later : List Engine) :
    (Registry.registering store first later).store = store := by
  have hfold : ∀ r : Registry, (later.foldl Registry.register r).store = r.store := by
    induction later with
    | nil => exact fun _ => rfl
    | cons e later ih =>
      intro r
      rw [List.foldl_cons, ih, Registry.store_register]
  exact hfold _

/-- Diagnostics are comments whatever the error and its message. That of a failed engine offers the
engines of another display name by their ids in the order of registration, and proposes the first :
selecting it makes the registry answer the engine it stands for. -/
theorem diagnostics_comment_and_offer_others (store : Store) (first : Engine) (later : List Engine)
    (hids : ∀ e ∈ first :: later, '\n' ∉ e.descriptor.id.toList) :
    let r := Registry.registering store first later
    (∀ e : DecompileError, (∀ name message, e = .engine name message → '\n' ∉ name.toList) →
      CommentOnly (r.diagnostic e)) ∧
    ∀ name message,
      let described := "// Decompilation failed with " ++ name ++ "\n// Error: " ++
        Registry.commentSafe message ++ "\n"
      (idsBeside name (first :: later) = [] →
        r.diagnostic (.engine name message) =
          described ++ "// Try selecting a different decompiler\n") ∧
      ∀ id rest, idsBeside name (first :: later) = id :: rest →
        r.diagnostic (.engine name message) =
          described ++ ("// Try selecting a different decompiler with `class-lens select " ++ id ++
            "` (available: " ++ Text.join ", " (id :: rest) ++ ")\n") ∧
        ∃ e, lastRegistered? (first :: later) id = some e ∧ e.descriptor.displayName ≠ name ∧
          ∀ h, store.Remembers h selectedKey id →
            ((r.select id).run h).1 = .ok () ∧
              (r.selected.run ((r.select id).run h).2).1 = e := by
  intro r
  have hr : r.Presents (first :: later) := presents_registering store first later
  have hstore : r.store = store := store_registering store first later
  refine ⟨fun e he => commentOnly_diagnostic ?_ he, fun name message => ⟨?_, ?_⟩⟩
  · intro d hd
    obtain ⟨e, he, rfl⟩ := List.mem_map.1 hd
    have hmem : e.descriptor.id ∈ engineIds r.engines := List.mem_map_of_mem he
    rw [hr.ordered, List.mem_eraseDups] at hmem
    obtain ⟨e', he', hid⟩ := List.mem_map.1 hmem
    exact hid ▸ hids e' he'
  · intro hnone
    rw [Registry.diagnostic_engine, alternatives_eq hr, hnone]
    rfl
  · intro id rest hothers
    rw [Registry.diagnostic_engine, alternatives_eq hr, hothers]
    refine ⟨rfl, ?_⟩
    obtain ⟨e, he, hname⟩ := exists_of_mem_idsBeside (hothers ▸ List.mem_cons_self)
    refine ⟨e, he, hname, fun h hs => ?_⟩
    exact selected_of_remembers ((hr.latest id).trans he) (hstore.symm ▸ hs)

/-- An engine of that id and name. -/
def namedEngine (id name : String) : Engine := ⟨⟨id, name, ""⟩, fun _ _ _ _ => pure (.ok "")⟩

/-- A failure of two lines, and the engine proposed : one that was registered again under its id. -/
theorem failed_engine_proposes_patched :
    let later := [namedEngine "jd-core" "JD-Core", namedEngine "cfr" "CFR (patched)"]
    let r := Registry.registering (.inMemory 0) (namedEngine "cfr" "CFR") later
    CommentOnly (r.diagnostic (.engine "JD-Core" " boom\n\tat A.b\n")) ∧
      r.diagnostic (.engine "JD-Core" " boom\n\tat A.b\n") =
        "// Decompilation failed with JD-Core\n// Error: boom\n// \tat A.b\n" ++
          ("// Try selecting a different decompiler with `class-lens select cfr` " ++
            "(available: cfr)\n") ∧
      (r.selected.run ((r.select "cfr").run plainHost).2).1.descriptor.displayName =
        "CFR (patched)" := by
  intro later r
  obtain ⟨hcomment, hoffer⟩ := diagnostics_comment_and_offer_others (.inMemory 0)
    (namedEngine "cfr" "CFR") later (by decide)
  obtain ⟨htext, e, he, -, hselect⟩ :=
    (hoffer "JD-Core" " boom\n\tat A.b\n").2 "cfr" [] (by decide)
  have hstore : (Store.inMemory 0).Remembers plainHost selectedKey "cfr" :=
    (Store.keeps_inMemory 0).remembers rfl rfl rfl
  refine ⟨hcomment _ ?_, htext.trans (by decide +kernel), ?_⟩
  · intro name message hname
    cases hname
    decide
  · rw [(hselect plainHost hstore).2]
    cases he
    rfl

end ClassViewer
