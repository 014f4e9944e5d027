import ClassViewer.Disk.Walk
import ClassViewer.Proofs.Disk.Changes
import ClassViewer.Proofs.Disk.Resolution
import ClassViewer.Proofs.PathOrder
import Mathlib.Data.List.Nodup

/-!
# What a walk lists

A walk from a path that leads to a directory lists every entry below that is not hidden, once each
(`mem_entriesBelow_iff`, `nodup_entriesBelow`). An entry is hidden if the ignore rules speak against
it or against a directory on the way (`Hides`); where no ignore file lies in the directory, below it
or above it, nothing is (`not_hides_of_unruled`). Of the entries those are kept that are files with
an extension (`IsKindBelow`), and they are put in path order, in which no two are equal since
different names below a path make different paths (`components_pathBelow_injective`).
`lists_filesOfKind` puts this together.
-/

namespace ClassViewer.Disk

open ClassViewer.Path (IsEntryName)

/-! ## Paths below a path -/

theorem pathBelow_concat (root : Path) (names : Route) (n : String) :
    pathBelow root (names ++ [n]) = (pathBelow root names).join ⟨n⟩ := by
  simp [pathBelow]

/-- The names are the components by which a path below is longer. -/
theorem components_pathBelow {names : Route} (h : ∀ n ∈ names, IsEntryName n) (root : Path) :
    (pathBelow root names).components = root.components ++ names.map .name := by
  induction names using List.reverseRecOn with
  | nil => simp [pathBelow]
  | append_singleton names n ih =>
    rw [pathBelow_concat, Path.components_join_name (h n (by simp)),
      ih fun m hm => h m (List.mem_append_left _ hm)]
    simp

theorem components_pathBelow_injective {names names' : Route} (h : ∀ n ∈ names, IsEntryName n)
    (h' : ∀ n ∈ names', IsEntryName n) {root : Path}
    (heq : (pathBelow root names).components = (pathBelow root names').components) :
    names = names' := by
  rw [components_pathBelow h, components_pathBelow h'] at heq
  exact List.map_injective_iff.2 (fun _ _ => Path.Component.name.inj) (List.append_cancel_left heq)

/-! ## Entries -/

/-- One item lies at each route, and every route is made of names that entries of directories can
have. -/
structure Proper (d : Disk) : Prop where
  distinct : (d.items.map Prod.fst).Nodup
  named : ∀ e ∈ d.items, ∀ n ∈ e.1, IsEntryName n

variable {d : Disk} {place names : Route}

theorem isSome_item?_iff {r : Route} (hr : r ≠ []) :
    (d.item? r).isSome = true ↔ ∃ e ∈ d.items, e.1 = r := by
  rw [item?_of_ne_nil hr, List.lookup_isSome_iff]
  simp only [beq_iff_eq, @eq_comm _ r]

/-- The names of a route below a place, if it lies there. -/
def namesBelow? (place r : Route) : Option Route :=
  if place.isPrefixOf r && place.length < r.length then some (r.drop place.length) else none

theorem namesBelow?_eq_some_iff {r : Route} :
    namesBelow? place r = some names ↔ r = place ++ names ∧ names ≠ [] := by
  unfold namesBelow?
  constructor
  · intro h
    split at h
    · rename_i hbelow
      rw [Bool.and_eq_true, List.isPrefixOf_iff_prefix, decide_eq_true_eq] at hbelow
      obtain ⟨⟨rest, rfl⟩, hlength⟩ := hbelow
      rw [List.drop_left, Option.some.injEq] at h
      subst h
      refine ⟨rfl, ?_⟩
      rintro rfl
      simp at hlength
    · cases h
  · rintro ⟨rfl, hne⟩
    rw [if_pos, List.drop_left]
    simp [List.length_pos_iff, hne]

/-- The names below a place of everything that lies there. -/
def entriesBelow (d : Disk) (place : Route) : List Route :=
  d.items.filterMap fun e => namesBelow? place e.1

theorem mem_entriesBelow_iff : names ∈ d.entriesBelow place ↔
    names ≠ [] ∧ (d.item? (place ++ names)).isSome = true := by
  simp only [entriesBelow, List.mem_filterMap, namesBelow?_eq_some_iff]
  constructor
  · rintro ⟨e, he, hr, hne⟩
    exact ⟨hne, (isSome_item?_iff (by simp [hne])).2 ⟨e, he, hr⟩⟩
  · rintro ⟨hne, hi⟩
    obtain ⟨e, he, hr⟩ := (isSome_item?_iff (by simp [hne])).1 hi
    exact ⟨e, he, hr, hne⟩

theorem nodup_entriesBelow (h : d.Proper) (place : Route) : (d.entriesBelow place).Nodup := by
  have hroutes : d.entriesBelow place = (d.items.map Prod.fst).filterMap (namesBelow? place) := by
    rw [List.filterMap_map]
    rfl
  rw [hroutes, List.Nodup, List.pairwise_filterMap]
  refine h.distinct.imp fun hne names hnames names' hnames' => ?_
  rintro rfl
  obtain ⟨hr, -⟩ := namesBelow?_eq_some_iff.1 hnames
  obtain ⟨hr', -⟩ := namesBelow?_eq_some_iff.1 hnames'
  exact hne (hr.trans hr'.symm)

theorem isEntryName_of_mem (h : d.Proper) (hmem : names ∈ d.entriesBelow place) :
    ∀ n ∈ names, IsEntryName n := by
  obtain ⟨e, he, hnames⟩ := List.mem_filterMap.1 hmem
  obtain ⟨hr, -⟩ := namesBelow?_eq_some_iff.1 hnames
  exact fun n hn => h.named e he n (hr ▸ List.mem_append_right _ hn)

/-! ## Hidden entries -/

/-- The ignore rules of a walk speak against an entry, or against a directory on the way to it. -/
def Hides (d : Disk) (root : Path) (place names : Route) : Prop :=
  ∃ way, way ≠ [] ∧ way <+: names ∧
    (d.library root place).ignores way (d.item? (place ++ way) == some .directory) = true

theorem reaches_iff (root : Path) :
    d.reaches (d.library root place) names = true ↔ ¬d.Hides root place names := by
  have hplace : (d.library root place).place = place := rfl
  simp only [reaches, Hides, hplace, List.all_eq_true, List.mem_range, Bool.not_eq_true',
    not_exists, not_and, Bool.not_eq_true]
  constructor
  · intro h way hne hway
    obtain ⟨i, hi⟩ : ∃ i, way.length = i + 1 := Nat.exists_eq_succ_of_ne_zero (by simpa using hne)
    have hlength := hway.length_le
    have hstep := h i (by omega)
    rwa [← hi, ← List.prefix_iff_eq_take.1 hway] at hstep
  · intro h i hi
    have hne : names.take (i + 1) ≠ [] := by
      rw [← List.length_pos_iff, List.length_take]
      omega
    exact h _ hne (List.take_prefix _ _)

/-- No ignore file lies in the place, below it or above it. -/
def Unruled (d : Disk) (place : Route) : Prop :=
  ∀ r, (r <+: place ∨ place <+: r) → d.item? (r ++ [Ignore.fileName]) = none

/-- It is enough that nothing on the disk has the name of an ignore file. -/
theorem unruled_of_forall (h : ∀ e ∈ d.items, e.1.getLast? ≠ some Ignore.fileName)
    (place : Route) : d.Unruled place := by
  intro r _
  rw [← Option.not_isSome_iff_eq_none, isSome_item?_iff (by simp)]
  rintro ⟨e, he, hr⟩
  exact h e he (by simp [hr])

theorem ignoreFile_of_none {r : Route} (h : d.item? (r ++ [Ignore.fileName]) = none) :
    d.ignoreFile r = ⟨[], [], none⟩ := by
  have hnone : ∀ i, d.lookup r true ⟨Ignore.fileName⟩ ≠ .ok i := by
    rintro ⟨r', i⟩ hi
    have hlead := (follow_eq_ok_iff.1 (locate_eq_ok_iff.1 (lookup_eq_ok_iff.1 hi)).2).2
    have hsteps : steps Ignore.fileName = [Ignore.fileName] := by decide
    have hrelative : (Path.mk Ignore.fileName).isAbsolute = false := by decide
    rw [LeadsTo, hsteps, hrelative, if_neg Bool.false_ne_true] at hlead
    generalize hsegs : [Ignore.fileName] = segs at hlead
    cases hlead <;> simp_all [Ignore.fileName]
  unfold ignoreFile read
  cases hlookup : d.lookup r true ⟨Ignore.fileName⟩ with
  | error => rfl
  | ok i => exact absurd hlookup (hnone i)

theorem verdict_eq_none {b : Ignore.Book} (h : b.rules = []) (p : Path) (isDirectory : Bool) :
    b.verdict p isDirectory = none := by
  simp [Ignore.Book.verdict, h]

theorem not_hides_of_unruled (h : d.Unruled place) (root : Path) (names : Route) :
    ¬d.Hides root place names := by
  have hinside : (d.library root place).inside = [] := by
    refine List.filterMap_eq_nil_iff.2 fun names _ => ?_
    simp only [ignoreFile_of_none (h (place ++ names) (.inr (List.prefix_append _ _)))]
  have habove : ∀ book ∈ (d.library root place).above, book.rules = [] := by
    intro book hbook
    obtain ⟨r, hr, rfl⟩ := List.mem_map.1 hbook
    obtain ⟨n, -, rfl⟩ := List.mem_map.1 (List.mem_reverse.1 hr)
    exact congrArg Ignore.Content.rules (ignoreFile_of_none (h _ (.inl (List.take_prefix _ _))))
  rintro ⟨way, -, -, hignored⟩
  have hnone : ∀ p isDirectory, (d.library root place).above.findSome?
      (fun book => book.verdict p isDirectory) = none := by
    intro p isDirectory
    exact List.findSome?_eq_none_iff.2 fun book hbook =>
      verdict_eq_none (habove book hbook) p isDirectory
  have hnearby : (routesAbove way).findSome? (fun _ => (none : Option Bool)) = none :=
    List.findSome?_eq_none_iff.2 fun _ _ => rfl
  unfold Library.ignores at hignored
  simp [hinside, hnone, hnearby] at hignored

theorem lookup_inside_nil (h : (d.ignoreFile place).rules ≠ []) (root : Path) :
    (d.library root place).inside.lookup [] = some ⟨root, (d.ignoreFile place).rules⟩ := by
  cases hrules : (d.ignoreFile place).rules with
  | nil => exact absurd hrules h
  | cons rule rules => simp [library, hrules, pathBelow]

/-- A rule in the directory itself hides an entry there, whatever the rules above say. -/
theorem hides_of_verdict {root : Path} {n : String}
    (h : (Ignore.Book.mk root (d.ignoreFile place).rules).verdict
      ⟨Ignore.dropDot (pathBelow root [n]).text⟩ (d.item? (place ++ [n]) == some .directory) =
        some true) : d.Hides root place [n] := by
  have hrules : (d.ignoreFile place).rules ≠ [] := by
    intro hnil
    rw [verdict_eq_none hnil] at h
    cases h
  have habove : routesAbove [n] = [[]] := rfl
  refine ⟨[n], by simp, List.prefix_refl _, ?_⟩
  have hroot : (d.library root place).root = root := rfl
  simp only [Library.ignores, hroot, habove, List.findSome?_cons, lookup_inside_nil hrules,
    Option.bind_some, h, Option.some_or, Option.getD_some]

/-! ## Files of a kind -/

/-- At the names below the place lies a file with the extension, or a link that leads to one, and
the path of it can be followed. -/
structure IsKindBelow (d : Disk) (here : Route) (extension : String) (root : Path)
    (place names : Route) : Prop where
  ne_nil : names ≠ []
  lies : (d.item? (place ++ names)).isSome = true
  isFile : d.isFile here (pathBelow root names) = true
  extension : (pathBelow root names).extension? = some extension

/-- The files of a kind that a walk lists : in path order, each once, and those that are not hidden.
-/
structure ListsKind (d : Disk) (here : Route) (extension : String) (root : Path) (place : Route)
    (files : List Path) : Prop where
  ordered : files.Pairwise fun p q => p.before q = true
  mem_iff : ∀ p, p ∈ files ↔ ∃ names, d.IsKindBelow here extension root place names ∧
    ¬d.Hides root place names ∧ p = pathBelow root names

theorem isFile_of_lookup {here r : Route} {p : Path} {bytes : ByteArray} {runners : Runners}
    (h : d.lookup here true p = .ok (r, .file bytes runners)) : d.isFile here p = true := by
  rw [isFile, h]

theorem lists_filesOfKind {here : Route} {root : Path} (hd : d.Proper)
    (hplace : d.lookup here true root = .ok (place, .directory))
    (hroot : root.same ⟨"-"⟩ = false) (extension : String) :
    ∃ files, d.filesOfKind here extension root = .ok files ∧
      d.ListsKind here extension root place files := by
  have hnotFile : d.isFile here root = false := by
    rw [isFile, hplace]
  let kept := ((d.reached (d.library root place)).map (pathBelow root)).filter fun p =>
    d.isFile here p && p.extension? == some extension
  have hfiles : d.filesOfKind here extension root = .ok (Path.sort kept) := by
    unfold filesOfKind walk
    rw [hroot, hplace]
    simp only [Except.map, Bool.false_eq_true, if_false, List.filter_cons, hnotFile, Bool.false_and]
    rfl
  refine ⟨Path.sort kept, hfiles, Path.pairwise_sort_of_nodup ?_, fun p => ?_⟩
  · have hnames : (d.reached (d.library root place)).Nodup := (nodup_entriesBelow hd place).filter _
    have hpaths : (((d.reached (d.library root place)).map (pathBelow root)).map
        Path.components).Nodup := by
      rw [List.map_map]
      refine List.Nodup.map_on (fun names hn names' hn' heq => ?_) hnames
      exact components_pathBelow_injective (isEntryName_of_mem hd (List.mem_filter.1 hn).1)
        (isEntryName_of_mem hd (List.mem_filter.1 hn').1) heq
    exact hpaths.sublist (List.filter_sublist.map _)
  · rw [(Path.perm_sort kept).mem_iff, List.mem_filter, List.mem_map, Bool.and_eq_true, beq_iff_eq]
    constructor
    · rintro ⟨⟨names, hreached, rfl⟩, hfile, hext⟩
      obtain ⟨hmem, hreaches⟩ := List.mem_filter.1 hreached
      obtain ⟨hne, hlies⟩ := mem_entriesBelow_iff.1 hmem
      exact ⟨names, ⟨hne, hlies, hfile, hext⟩, (reaches_iff root).1 hreaches, rfl⟩
    · rintro ⟨names, ⟨hne, hlies, hfile, hext⟩, hhides, rfl⟩
      have hreached := List.mem_filter.2 ⟨mem_entriesBelow_iff.2 ⟨hne, hlies⟩,
        (reaches_iff root).2 hhides⟩
      exact ⟨⟨names, hreached, rfl⟩, hfile, hext⟩

end ClassViewer.Disk
