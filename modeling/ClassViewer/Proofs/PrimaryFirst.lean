import ClassViewer.Engine.Cfr
import ClassViewer.Engine.JdCore
import ClassViewer.Engine.Procyon
import ClassViewer.Engine.Vineflower
import ClassViewer.Proofs.ClassId

/-!
# The primary class comes first

The four engines ask for classes in four ways : by the path of a class file, by name, by name with a
buffer to fill, and by the path of a file outside. Each of them reaches the scope through
`Scope.primaryFirst`. Whatever the scope answers, the class being decompiled is found with the bytes
that were given, and every other class is found exactly if the scope says it has the class and then
loads it (`Scope.Offers`).
-/

namespace ClassViewer

/-! ## The scope behind the primary class -/

namespace Scope

/-- The scope says that it has the class, and loads it with these bytes. -/
def Offers (scope : Scope) (h : Host) (name : String) (bytes : ByteArray) : Prop :=
  scope.canLoad h name = true ∧ ∃ id, scope.load h name = .ok ⟨id, bytes⟩

variable (id : ClassId) (bytes : ByteArray) (scope : Scope) (h : Host)

@[simp] theorem canLoad_primaryFirst_self :
    (scope.primaryFirst id bytes).canLoad h id.text = true := by
  simp [primaryFirst]

@[simp] theorem load_primaryFirst_self :
    (scope.primaryFirst id bytes).load h id.text = .ok ⟨id, bytes⟩ := by
  simp [primaryFirst]

theorem offers_primaryFirst_self : (scope.primaryFirst id bytes).Offers h id.text bytes :=
  ⟨canLoad_primaryFirst_self id bytes scope h, id, load_primaryFirst_self id bytes scope h⟩

theorem load_primaryFirst_of_ne {name : String} (hne : name ≠ id.text) :
    (scope.primaryFirst id bytes).load h name = scope.load h name := by
  simp [primaryFirst, hne]

theorem offers_primaryFirst_of_ne {name : String} (hne : name ≠ id.text) {b : ByteArray} :
    (scope.primaryFirst id bytes).Offers h name b ↔ scope.Offers h name b := by
  simp [Offers, primaryFirst, hne]

end Scope

/-! ## The four ways to ask -/

/-- A class file has content exactly if the scope offers the class of that path. -/
theorem Cfr.contentIn_eq_some_iff (scope : Scope) (h : Host) (name : String) (b : ByteArray) :
    Cfr.contentIn scope h (name ++ classSuffix) = some b ↔ scope.Offers h name b := by
  unfold Cfr.contentIn Scope.Offers
  rw [Text.dropTail_append]
  cases hc : scope.canLoad h name with
  | false => simp [hc]
  | true =>
    cases hl : scope.load h name with
    | error e => simp [hc, hl]
    | ok blob =>
      obtain ⟨id, bytes⟩ := blob
      simp [hc, hl]

/-- A buffer is filled with what the scope offers. -/
theorem Procyon.fill_of_offers {scope : Scope} {h : Host} {name : String} {b : ByteArray}
    (ho : scope.Offers h name b) (buffer : ByteArray) :
    Procyon.fill scope h name buffer = (true, b) := by
  obtain ⟨hc, id, hl⟩ := ho
  simp [Procyon.fill, hc, hl]

/-- A buffer stays as it is when the scope offers nothing. -/
theorem Procyon.fill_of_not_offers {scope : Scope} {h : Host} {name : String}
    (ho : ∀ b, ¬scope.Offers h name b) (buffer : ByteArray) :
    Procyon.fill scope h name buffer = (false, buffer) := by
  unfold Procyon.fill
  cases hc : scope.canLoad h name with
  | false => simp
  | true =>
    cases hl : scope.load h name with
    | error e => simp
    | ok blob => exact absurd ⟨hc, blob.id, hl⟩ (ho blob.bytes)

/-- The class path of an identifier has no backslashes to turn. -/
theorem ClassId.replaceChar_classPath (name : String) :
    Text.replaceChar '\\' '/' (ofName name).classPath = (ofName name).classPath := by
  rw [classPath, Text.replaceChar_append, replaceChar_classSuffix,
    (Text.replaceChar_eq_self_iff (by decide)).2 (not_mem_ofName name)]

/-- Below a directory, the class path of an identifier is still that of the primary class. -/
theorem Vineflower.endsWith_classPath_join (name : String) (dir : Path) :
    Text.endsWith (ClassId.ofName name).classPath
      (Text.replaceChar '\\' '/' (dir.join ⟨(ClassId.ofName name).classPath⟩).text) = true := by
  have hkeep := ClassId.replaceChar_classPath name
  unfold Path.join
  rw [Text.endsWith_iff]
  split
  · exact ⟨"", by simp [hkeep]⟩
  · split
    · exact ⟨Text.replaceChar '\\' '/' dir.text, by simp [hkeep]⟩
    · exact ⟨Text.replaceChar '\\' '/' (dir.text ++ "/"), by simp [hkeep]⟩

theorem Vineflower.bytecodeIn_primary (name : String) (bytes : ByteArray) (scope : Scope)
    (h : Host) (dir : Path) :
    Vineflower.bytecodeIn (scope.primaryFirst (ClassId.ofName name) bytes) (ClassId.ofName name) h
      (dir.join ⟨(ClassId.ofName name).classPath⟩).text = .ok (some bytes) := by
  have hp := Vineflower.endsWith_classPath_join name dir
  simp [Vineflower.bytecodeIn, Vineflower.classForPath, Vineflower.namesPrimary, hp, Except.map]

/-! ## One view for all engines -/

/-- What back ends are given to ask with : a source of class files, a loader of classes, a loader of
buffers and a provider of bytecode. -/
structure Askers where
  source : Cfr.Source
  classes : Scope
  loader : Procyon.Loader
  provider : Vineflower.Provider

namespace Askers

/-- What the engines give their back ends for a class and the scope around it. -/
def primaryFirst (id : ClassId) (bytes : ByteArray) (scope : Scope) : Askers :=
  let scope := scope.primaryFirst id bytes
  ⟨Cfr.Source.ofScope scope, scope, Procyon.Loader.ofScope scope,
    Vineflower.Provider.ofScope scope id⟩

/-- Every engine runs its back end with these askers, whatever the back end is. -/
structure AreGiven (a : Askers) (id : ClassId) (bytes : ByteArray) (scope : Scope) : Prop where
  cfr : ∀ backend preserve, (Cfr.engine backend).decompile id bytes scope preserve =
    (do return Cfr.finish preserve (← backend id.classPath a.source preserve Cfr.options))
  jdCore : ∀ backend preserve, (JdCore.engine backend).decompile id bytes scope preserve =
    (do return JdCore.finish preserve (← backend a.classes id.text))
  procyon : ∀ backend preserve, (Procyon.engine backend).decompile id bytes scope preserve =
    (do return Procyon.finish (← backend id.text a.loader Procyon.settings))
  vineflower : ∀ backend preserve, (Vineflower.engine backend).decompile id bytes scope preserve =
    (do return Vineflower.finish preserve (← backend (Vineflower.sourcePath (← get) id) a.provider
      (Vineflower.options preserve)))

/-- All four ways to ask for a class lead to the same bytes on every machine. The provider is asked
by the class path below any directory. -/
structure AllGive (a : Askers) (id : ClassId) (bytes : ByteArray) : Prop where
  content : ∀ h, (a.source.content id.classPath).run h = (some bytes, h)
  load : ∀ h, a.classes.load h id.text = .ok ⟨id, bytes⟩
  tryLoad : ∀ h buffer, (a.loader.tryLoad id.text buffer).run h = ((true, bytes), h)
  bytecode : ∀ h (dir : Path),
    (a.provider.bytecode (dir.join ⟨id.classPath⟩).text).run h = (.ok (some bytes), h)

/-- A class is given by the first three ways to ask exactly as the scope offers it. -/
structure GiveWhatIsOffered (a : Askers) (scope : Scope) (name : String) : Prop where
  content : ∀ h, ∃ content, (a.source.content (name ++ classSuffix)).run h = (content, h) ∧
    ∀ b, content = some b ↔ scope.Offers h name b
  load : ∀ h, a.classes.load h name = scope.load h name
  tryLoad : ∀ h b buffer, scope.Offers h name b →
    (a.loader.tryLoad name buffer).run h = ((true, b), h)
  tryLoad_none : ∀ h buffer, (∀ b, ¬scope.Offers h name b) →
    (a.loader.tryLoad name buffer).run h = ((false, buffer), h)

theorem areGiven_primaryFirst (id : ClassId) (bytes : ByteArray) (scope : Scope) :
    (primaryFirst id bytes scope).AreGiven id bytes scope :=
  ⟨fun _ _ => rfl, fun _ _ => rfl, fun _ _ => rfl, fun _ _ => rfl⟩

theorem allGive_primaryFirst (name : String) (bytes : ByteArray) (scope : Scope) :
    (primaryFirst (ClassId.ofName name) bytes scope).AllGive (ClassId.ofName name) bytes where
  content h := by
    have ho := Scope.offers_primaryFirst_self (ClassId.ofName name) bytes scope h
    exact congrArg (·, h) ((Cfr.contentIn_eq_some_iff _ h _ bytes).2 ho)
  load h := Scope.load_primaryFirst_self (ClassId.ofName name) bytes scope h
  tryLoad h buffer := by
    have ho := Scope.offers_primaryFirst_self (ClassId.ofName name) bytes scope h
    exact congrArg (·, h) (Procyon.fill_of_offers ho buffer)
  bytecode h dir := by
    have hb := Vineflower.bytecodeIn_primary name bytes scope h dir
    simp only [primaryFirst, Vineflower.Provider.ofScope, StateT.run_bind, StateT.run_get,
      pure_bind, hb]
    rfl

theorem giveWhatIsOffered_primaryFirst (id : ClassId) (bytes : ByteArray) (scope : Scope)
    {name : String} (hne : name ≠ id.text) :
    (primaryFirst id bytes scope).GiveWhatIsOffered scope name where
  content h := by
    refine ⟨_, rfl, fun b => ?_⟩
    rw [← Scope.offers_primaryFirst_of_ne id bytes scope h hne]
    exact Cfr.contentIn_eq_some_iff _ h name b
  load h := Scope.load_primaryFirst_of_ne id bytes scope h hne
  tryLoad h b buffer ho := by
    rw [← Scope.offers_primaryFirst_of_ne id bytes scope h hne] at ho
    exact congrArg (·, h) (Procyon.fill_of_offers ho buffer)
  tryLoad_none h buffer ho := by
    refine congrArg (·, h) (Procyon.fill_of_not_offers (fun b => ?_) buffer)
    rw [Scope.offers_primaryFirst_of_ne id bytes scope h hne]
    exact ho b

/-- The engines give their back ends one view of the classes. The class being decompiled is found
with the bytes that were given, whatever the scope says about it, and every other class as the scope
offers it. -/
theorem primary_first_for_all_engines (name : String) (bytes : ByteArray) (scope : Scope) :
    (primaryFirst (ClassId.ofName name) bytes scope).AreGiven (ClassId.ofName name) bytes scope ∧
      (primaryFirst (ClassId.ofName name) bytes scope).AllGive (ClassId.ofName name) bytes ∧
      ∀ other, other ≠ (ClassId.ofName name).text →
        (primaryFirst (ClassId.ofName name) bytes scope).GiveWhatIsOffered scope other :=
  ⟨areGiven_primaryFirst _ bytes scope, allGive_primaryFirst name bytes scope,
    fun _ hne => giveWhatIsOffered_primaryFirst _ bytes scope hne⟩

/-- A scope that says it has every class, has other bytes for `a/B`, and loads only one more. -/
def staleScope : Scope where
  canLoad _ _ := true
  load _ name :=
    if name = "a/B" then .ok ⟨⟨"a/B"⟩, "old".toUTF8⟩
    else if name = "a/C" then .ok ⟨⟨"a/C"⟩, "kept".toUTF8⟩
    else .error (.notFound ⟨name⟩)
  classNames _ := []
  archivePath := none

theorem primary_first_over_stale_scope :
    ClassId.ofName "a\\B.class" = ⟨"a/B"⟩ ∧ "a/C" ≠ (ClassId.ofName "a\\B.class").text ∧
      (primaryFirst (ClassId.ofName "a\\B.class") "new".toUTF8 staleScope).AllGive
        (ClassId.ofName "a\\B.class") "new".toUTF8 ∧
      (primaryFirst (ClassId.ofName "a\\B.class") "new".toUTF8 staleScope).GiveWhatIsOffered
        staleScope "a/C" ∧
      staleScope.Offers default "a/C" "kept".toUTF8 := by
  have hid : ClassId.ofName "a\\B.class" = ⟨"a/B"⟩ := by decide +kernel
  have hne : "a/C" ≠ (ClassId.ofName "a\\B.class").text := by
    rw [hid]
    decide
  obtain ⟨-, hall, hother⟩ :=
    primary_first_for_all_engines "a\\B.class" "new".toUTF8 staleScope
  exact ⟨hid, hne, hall, hother "a/C" hne, rfl, ⟨"a/C"⟩, rfl⟩

end Askers

end ClassViewer
