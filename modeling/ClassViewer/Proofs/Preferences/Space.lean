import ClassViewer.Preferences.Space
import Mathlib.Data.List.Perm.Subperm
import Mathlib.Data.List.TakeWhile

/-!
# Room for a few short values

A database with a few keys and short values (`FewKeys`, `Modest`) keeps them all in one leaf, and
the pages it gives up in another one. Each write takes the pages that an earlier write has given up,
so after the third one the space looks the same before and behind every write (`Space.Tidy`). Hence
there is always room for the next value, however many were written (`Space.Tidy.exists_put`).
-/

namespace ClassViewer.Database

/-! ## Steps of a write -/

/-- A step of a write succeeds with a result, and leaves the pages so. -/
def Runs {α : Type} (x : PagesM α) (w : Pages) (a : α) (w' : Pages) : Prop :=
  x.run w = some (a, w')

namespace Runs

variable {α β : Type} {w w' w'' : Pages}

theorem pure (a : α) (w : Pages) : Runs (Pure.pure a) w a w := rfl

theorem bind {x : PagesM α} {f : α → PagesM β} {a : α} {b : β} (hx : Runs x w a w')
    (hf : Runs (f a) w' b w'') : Runs (x >>= f) w b w'' := by
  unfold Runs at hx hf ⊢
  rw [StateT.run_bind, hx]
  exact hf

theorem get_bind {f : Pages → PagesM β} {b : β} (hf : Runs (f w) w b w') :
    Runs (get >>= f) w b w' := hf

theorem ite_pos {c : Prop} [Decidable c] {x y : PagesM α} {a : α} (hc : c) (h : Runs x w a w') :
    Runs (if c then x else y) w a w' := by
  rwa [if_pos hc]

theorem ite_neg {c : Prop} [Decidable c] {x y : PagesM α} {a : α} (hc : ¬c) (h : Runs y w a w') :
    Runs (if c then x else y) w a w' := by
  rwa [if_neg hc]

end Runs

/-! ## Single pages -/

theorem takeRun_one (p : Nat) (rest : List Nat) : takeRun 1 (p :: rest) = some (p, rest) := by
  simp [takeRun, List.range_succ_eq_map]

theorem draw_of_pool (p : Nat) (rest : List Nat) (drawn : Nat) (records : List (Nat × List Nat)) :
    draw 1 (some (p :: rest)) drawn records = (some rest, drawn, some p) := by
  cases records <;> simp [draw, takeRun_one]

/-- The records a write may draw pages from. -/
def Pages.drawable (w : Pages) : List (Nat × List Nat) :=
  w.records.filter fun r => decide (w.drawn < r.1 ∧ r.1 + 1 < w.number)

theorem runs_take_of_draw {w : Pages} {pool : Option (List Nat)} {drawn first : Nat}
    (h : draw 1 w.pool w.drawn w.drawable = (pool, drawn, some first)) :
    Runs (take 1) w first { w with pool := pool, drawn := drawn, taken := first :: w.taken } := by
  unfold Pages.drawable at h
  unfold Runs take
  simp only [StateT.run_bind, StateT.run_get, Option.pure_def, Option.bind_eq_bind,
    Option.bind_some, h]
  rfl

/-- A page that is at hand is taken first. -/
theorem runs_take_pool (w : Pages) {p : Nat} {rest : List Nat} (hp : w.pool = some (p :: rest)) :
    Runs (take 1) w p { w with pool := some rest, taken := p :: w.taken } := by
  have hdraw : draw 1 w.pool w.drawn w.drawable = (some rest, w.drawn, some p) := by
    rw [hp, draw_of_pool]
  exact runs_take_of_draw hdraw

theorem bind_takeRun_eq_none {pool : Option (List Nat)} (h : pool.getD [] = []) :
    pool.bind (takeRun 1) = none := by
  cases pool with
  | none => rfl
  | some pages =>
    obtain rfl : pages = [] := h
    rfl

/-- With no page at hand, the oldest record that may be drawn is drawn. -/
theorem runs_take_record (w : Pages) {n p : Nat} {rest : List Nat}
    (hpool : w.pool.getD [] = []) (hrecords : w.drawable = [(n, p :: rest)]) :
    Runs (take 1) w p { w with pool := some rest, drawn := n, taken := p :: w.taken } := by
  have horder : inOrder (w.pool.getD []) (p :: rest) = p :: rest := by
    rw [hpool]
    exact List.nil_merge _
  apply runs_take_of_draw
  rw [hrecords, draw, bind_takeRun_eq_none hpool]
  simp only [horder, draw_of_pool]

/-- With no page at hand and no record to draw, a page is taken that was never used. -/
theorem runs_take_next (w : Pages) (hpool : w.pool.getD [] = []) (hrecords : w.drawable = [])
    (hnext : w.next + 1 < pageLimit) :
    Runs (take 1) w w.next { w with taken := w.next :: w.taken, next := w.next + 1 } := by
  have hdraw : draw 1 w.pool w.drawn w.drawable = (w.pool, w.drawn, none) := by
    rw [hrecords, draw, bind_takeRun_eq_none hpool]
  unfold Pages.drawable at hdraw
  unfold Runs take
  simp only [StateT.run_bind, StateT.run_get, Option.pure_def, Option.bind_eq_bind,
    Option.bind_some, hdraw, hnext, if_true]
  rfl

/-- A page the write has taken itself is written to. -/
theorem runs_renew_taken (w : Pages) {page : Nat} (h : page ∈ w.taken) :
    Runs (renew page) w page w := by
  unfold Runs renew
  simp [h]

/-- Any other page is given up for one that is taken. -/
theorem runs_renew (w : Pages) {page new : Nat} {w' : Pages} (h : page ∉ w.taken)
    (htake : Runs (take 1) w new w') :
    Runs (renew page) w new { w' with spent := w'.spent ++ [page] } := by
  unfold Runs at htake
  unfold Runs renew
  simp [h, htake, spend]

/-! ## Trees of one leaf -/

/-- The tree of one leaf. -/
def single {κ : Type} (page : Nat) (entries : List (Entry κ)) : Tree κ :=
  ⟨[⟨page, none, entries⟩], []⟩

/-- An entry with its value beside its key. -/
def short {κ : Type} (key : κ) (keySize valueSize : Nat) : Entry κ :=
  ⟨key, keySize, valueSize, none⟩

section Single

variable {κ : Type} {before : κ → κ → Bool} {key : κ} {keySize valueSize page page' : Nat}
  {entries : List (Entry κ)} {w w' : Pages}

theorem runs_renewLeaf_single (h : Runs (renew page) w page' w') :
    Runs ((single page entries).renewLeaf 0) w (single page' entries) w' := by
  unfold Runs at h
  unfold Runs Tree.renewLeaf
  simp [single, renewLevels, h]

/-- The entries with one put in its place among them. -/
def placed (before : κ → κ → Bool) (entries : List (Entry κ)) (e : Entry κ) : List (Entry κ) :=
  entries.takeWhile (fun f => before f.key e.key) ++ e ::
    entries.dropWhile (fun f => before f.key e.key)

/-- There is room on the leaf for a value of that size. -/
def HasRoom (entries : List (Entry κ)) (keySize valueSize : Nat) : Prop :=
  8 + keySize + valueSize ≤ entryLimit ∧
    total (entries.map (·.size)) + sizeOf keySize valueSize ≤ pageRoom

instance (entries : List (Entry κ)) (keySize valueSize : Nat) :
    Decidable (HasRoom entries keySize valueSize) :=
  inferInstanceAs (Decidable (_ ∧ _))

theorem runs_add_single (hroom : HasRoom entries keySize valueSize) :
    Runs ((single page entries).add before 0 key keySize valueSize) w
      (single page (placed before entries (short key keySize valueSize))) w := by
  obtain ⟨hshort, hroom⟩ := hroom
  unfold Runs Tree.add
  simp [single, Leaf.used, hroom, newEntry, hshort, placed, short]

variable [BEq κ]

/-- A first value gets a leaf of its own. -/
theorem runs_put_empty (htake : Runs (take 1) w page w')
    (hroom : HasRoom ([] : List (Entry κ)) keySize valueSize) :
    Runs (Tree.empty.put before key keySize valueSize) w
      (single page [short key keySize valueSize]) w' := by
  unfold Tree.put
  refine Runs.ite_pos rfl (Runs.bind htake ?_)
  exact runs_add_single hroom

/-- The entries after a value was put : either it is as long as the one it replaces, or it is put
in its place anew. -/
def replaced (before : κ → κ → Bool) (entries : List (Entry κ)) (key : κ)
    (keySize valueSize : Nat) : List (Entry κ) :=
  match entries.find? (·.key == key) with
  | none => placed before entries (short key keySize valueSize)
  | some old =>
    if old.valueSize = valueSize then entries
    else placed before (entries.filter (·.key != key)) (short key keySize valueSize)

/-- A value of a leaf is replaced on a page that may be written to. -/
theorem runs_put_single (hrenew : Runs (renew page) w page' w')
    (hshort : ∀ e ∈ entries, e.run = none)
    (hroom : HasRoom entries keySize valueSize)
    (hrest : HasRoom (entries.filter (·.key != key)) keySize valueSize) :
    Runs ((single page entries).put before key keySize valueSize) w
      (single page' (replaced before entries key keySize valueSize)) w' := by
  unfold Tree.put
  refine Runs.ite_neg (by simp [single]) ?_
  have hplace : (single page entries).place before key = 0 := rfl
  rw [hplace]
  refine Runs.bind (runs_renewLeaf_single hrenew) ?_
  have hentries : (((single page' entries).leaves[0]?.map (·.entries)).getD []) = entries := rfl
  have hwithout : (single page' entries).update 0 (·.filter (·.key != key)) =
      single page' (entries.filter (·.key != key)) := rfl
  rw [hentries, hwithout]
  unfold replaced
  cases hfind : entries.find? (·.key == key) with
  | none =>
    exact runs_add_single hroom
  | some old =>
    have hold : old.run = none := hshort old (List.mem_of_find?_eq_some hfind)
    simp only [hold]
    by_cases hsize : old.valueSize = valueSize
    · rw [if_pos hsize, if_pos hsize]
      exact Runs.pure _ _
    · rw [if_neg hsize, if_neg hsize]
      exact runs_add_single hrest

end Single

/-! ## Saving the pages given up -/

/-- An entry of the tree of the pages given up. -/
def record (number count : Nat) : Entry Nat := short number 8 (listSize count)

section Saving

variable {page fuel : Nat} {w : Pages} {s : Saving} {entries : List (Entry Nat)}

theorem runs_dropFirst_single (hpage : page ∈ w.taken) (n count : Nat) (f : Entry Nat) :
    Runs (single page (record n count :: f :: entries)).dropFirst w
      (single page (f :: entries)) w := by
  unfold Tree.dropFirst
  refine Runs.bind (runs_renewLeaf_single (runs_renew_taken w hpage)) ?_
  rfl

/-- Nothing is dropped before a record was drawn. -/
theorem runs_dropDrawn_none (h : w.drawn ≤ s.removed) : Runs (dropDrawn fuel s) w s w := by
  cases fuel with
  | zero => exact Runs.pure _ _
  | succ fuel =>
    unfold dropDrawn
    exact Runs.get_bind (Runs.ite_neg (Nat.not_lt.2 h) (Runs.pure _ _))

/-- The record that was drawn is dropped. -/
theorem runs_dropDrawn_first (hpage : page ∈ w.taken) {count : Nat} {f : Entry Nat}
    (hfree : s.free = single page (record w.drawn count :: f :: entries))
    (hdrawn : s.removed < w.drawn) {records : List (Nat × List Nat)}
    (hrecords : w.records.filter (·.1 != w.drawn) = records) :
    Runs (dropDrawn (fuel + 1) s) w
      { s with
        free := single page (f :: entries), removed := w.drawn, head := w.drawn, headRoom := 0
        totalRoom := 0 }
      { w with records := records } := by
  subst hrecords
  unfold dropDrawn
  refine Runs.get_bind (Runs.ite_pos hdrawn ?_)
  rw [hfree]
  refine Runs.bind (runs_dropFirst_single hpage w.drawn count f) ?_
  have hforget : Runs (modify fun w' => { w' with records := w'.records.filter (·.1 != w.drawn) }) w
      () { w with records := w.records.filter (·.1 != w.drawn) } := rfl
  exact Runs.bind hforget (runs_dropDrawn_none (Nat.le_refl _))

/-- The write puts its own record behind those of earlier writes. -/
theorem placed_record {n count : Nat} (h : ∀ e ∈ entries, e.key < n) :
    replaced numberBefore entries n 8 (listSize count) = entries ++ [record n count] := by
  have hfind : entries.find? (·.key == n) = none := by
    rw [List.find?_eq_none]
    intro e he
    have := h e he
    simp only [beq_iff_eq]
    omega
  have hbefore : ∀ e ∈ entries, numberBefore e.key n = true := by
    intro e he
    simp [numberBefore, h e he]
  have htake : entries.takeWhile (fun e => numberBefore e.key n) = entries :=
    List.takeWhile_eq_self_iff.2 hbefore
  have hdrop : entries.dropWhile (fun e => numberBefore e.key n) = [] :=
    List.dropWhile_eq_nil_iff.2 hbefore
  rw [replaced, hfind]
  simp only [placed, short, htake, hdrop, record]

/-- What the pages of a write have to leave on the leaf of the records. -/
structure Recordable (entries : List (Entry Nat)) (w : Pages) : Prop where
  older : ∀ e ∈ entries, e.key < w.number
  short : ∀ e ∈ entries, e.run = none
  room : HasRoom entries 8 (listSize w.spent.length)

theorem Recordable.filter_ne (h : Recordable entries w) :
    entries.filter (·.key != w.number) = entries := by
  rw [List.filter_eq_self]
  intro e he
  have := h.older e he
  simp only [bne_iff_ne, ne_eq]
  omega

/-- The leaf of the records takes one more. -/
theorem runs_putRecord (hpage : page ∈ w.taken) (h : Recordable entries w) :
    Runs (putRecord (single page entries) w.number w.spent.length) w
      (single page (entries ++ [record w.number w.spent.length])) w := by
  rw [← placed_record h.older]
  exact runs_put_single (runs_renew_taken w hpage) h.short h.room (h.filter_ne.symm ▸ h.room)

theorem runs_putSpent {w' : Pages} {free : Tree Nat}
    (hput : Runs (putRecord s.free w.number w.spent.length) w free w')
    (hspent : w'.spent = w.spent) :
    Runs (putSpent (fuel + 1) s) w { s with free := free, saved := w.spent.length } w' := by
  unfold putSpent
  refine Runs.get_bind (Runs.bind hput ?_)
  refine Runs.get_bind (Runs.ite_neg ?_ (Runs.pure _ _))
  rw [hspent]
  exact Nat.lt_irrefl _

/-- The saving ends once all pages given up are saved and none is left at hand. -/
theorem runs_save_done (hdrawn : w.drawn ≤ s.removed) (hsaved : s.saved = w.spent.length)
    (hpool : w.pool.getD [] = []) (hroom : s.totalRoom = 0) :
    Runs (save (fuel + 1) s) w s.free w := by
  unfold save
  refine Runs.bind (runs_dropDrawn_none hdrawn) ?_
  refine Runs.get_bind (Runs.ite_neg (by omega) ?_)
  refine Runs.get_bind (Runs.ite_pos (.inl ?_) (Runs.pure _ _))
  rw [hpool, hroom]
  rfl

/-- Once the records drawn are dropped, the pages given up are saved. -/
theorem runs_save {s' : Saving} {w₁ w₂ w₃ : Pages} {free free' : Tree Nat}
    (hdrop : Runs (dropDrawn (pageLimit + 1) s) w s' w₁) (hnew : s'.saved = 0)
    (hspent : w₁.spent ≠ [])
    (hrenew : Runs (s'.free.renewLeaf (s'.free.leaves.length - 1)) w₁ free w₂)
    (hput : Runs (putRecord free w₂.number w₂.spent.length) w₂ free' w₃)
    (hsame : w₃.spent = w₂.spent) (hdrawn : w₃.drawn ≤ s'.removed)
    (hpool : w₃.pool.getD [] = []) (hroom : s'.totalRoom = 0) :
    Runs (save (fuel + 2) s) w free' w₃ := by
  have hlength : 0 < w₁.spent.length := List.length_pos_iff.2 hspent
  unfold save
  refine Runs.bind hdrop ?_
  refine Runs.get_bind (Runs.ite_pos (by omega) ?_)
  refine Runs.ite_pos hnew (Runs.bind hrenew ?_)
  refine Runs.bind (runs_putSpent hput hsame) ?_
  exact runs_save_done hdrawn (congrArg List.length hsame.symm) hpool hroom

/-- A write ends with a space that has a record of its pages. -/
theorem runs_finish {main main' : Nat} {values : Tree String} {free free' : Tree Nat}
    {w₁ w₂ w₃ : Pages} (hmain : Runs (renew main) w main' w₁)
    (hfree : Runs (if w₁.pool.isSome then free.renewLeaf 0 else pure free) w₁ free' w₂)
    (hsave : Runs (save (pageLimit + 1) ⟨free', 0, 0, 0, 0, 0, true⟩) w₂ (single page entries) w₃)
    (hkeys : ∀ e ∈ entries, w₃.drawn < e.key) (hspent : w₃.spent ≠ []) :
    Runs (finish main values free) w ⟨w₃.number, w₃.next, main', values, single page entries,
      w₃.records.filter (fun r => decide (w₃.drawn < r.1)) ++
        [(w₃.number, w₃.spent.mergeSort fun a b => decide (a ≤ b))]⟩ w₃ := by
  have hnone : entries.filter (fun e => decide (e.key ≤ w₃.drawn)) = [] := by
    rw [List.filter_eq_nil_iff]
    intro e he
    have := hkeys e he
    simp only [decide_eq_true_eq]
    omega
  have hdealt : deal (w₃.pool.getD []) ((single page entries).entries.filter
      fun e => decide (e.key ≤ w₃.drawn)) = [] := by
    have hentries : (single page entries).entries = entries := List.append_nil _
    rw [hentries, hnone]
    rfl
  have hfit : ∀ es : List (Entry Nat), fitSizes [] es = es := fun es => List.map_id' es
  have hsorted : (w₃.spent.mergeSort fun a b => decide (a ≤ b)).isEmpty = false := by
    rw [List.isEmpty_eq_false_iff, Ne, ← List.length_eq_zero_iff, List.length_mergeSort,
      List.length_eq_zero_iff]
    exact hspent
  have hleaves : (single page entries).leaves.map (fun l =>
      { l with entries := fitSizes [] l.entries }) = (single page entries).leaves := by
    simp only [single, List.map_cons, List.map_nil, hfit]
  unfold finish
  refine Runs.bind hmain (Runs.get_bind ?_)
  by_cases hpool : w₁.pool.isSome
  · rw [if_pos hpool] at hfree
    refine Runs.ite_pos hpool (Runs.bind hfree (Runs.bind hsave (Runs.get_bind ?_)))
    simp only [hdealt, hleaves, hsorted]
    exact Runs.pure _ _
  · rw [if_neg hpool] at hfree
    refine Runs.ite_neg hpool (Runs.bind hfree (Runs.bind hsave (Runs.get_bind ?_)))
    simp only [hdealt, hleaves, hsorted]
    exact Runs.pure _ _

end Saving

/-- A leaf with the record of three pages has room for another one. -/
theorem hasRoom_record (n : Nat) : HasRoom [record n 3] 8 (listSize 3) := by
  simp [HasRoom, record, short, listSize, Entry.size, sizeOf, even, total, entryLimit, pageRoom]

/-- A write that was dealt the pages of the first record drops it, and puts its own behind the
second one. -/
theorem runs_save_drawn {page n count next : Nat} {records records' : List (Nat × List Nat)}
    {spent taken : List Nat} (hn : 0 < n) (hpage : page ∈ taken) (hspent : spent.length = 3)
    (hrecords : records.filter (·.1 != n) = records') :
    Runs (save (pageLimit + 1)
        ⟨single page [record n count, record (n + 1) 3], 0, 0, 0, 0, 0, true⟩)
      ⟨n + 2, next, records, some [], n, spent, taken⟩
      (single page [record (n + 1) 3, record (n + 2) 3])
      ⟨n + 2, next, records', some [], n, spent, taken⟩ := by
  have hdrop : Runs (dropDrawn (pageLimit + 1)
        ⟨single page [record n count, record (n + 1) 3], 0, 0, 0, 0, 0, true⟩)
      ⟨n + 2, next, records, some [], n, spent, taken⟩
      ⟨single page [record (n + 1) 3], n, n, 0, 0, 0, true⟩
      ⟨n + 2, next, records', some [], n, spent, taken⟩ :=
    runs_dropDrawn_first hpage rfl hn hrecords
  have hne : spent ≠ [] := by
    rintro rfl
    cases hspent
  have hrecordable : Recordable [record (n + 1) 3]
      ⟨n + 2, next, records', some [], n, spent, taken⟩ := by
    refine ⟨by simp [record, short], by simp [record, short], ?_⟩
    rw [hspent]
    exact hasRoom_record (n + 1)
  have hput := runs_putRecord (w := ⟨n + 2, next, records', some [], n, spent, taken⟩) hpage
    hrecordable
  rw [hspent] at hput
  refine runs_save hdrop rfl hne (runs_renewLeaf_single (runs_renew_taken _ hpage)) ?_ rfl
    (Nat.le_refl _) rfl rfl
  rw [hspent]
  exact hput

/-! ## A few short values -/

/-- Keys of which there are few, and none is long. -/
structure FewKeys (keys : List String) : Prop where
  few : keys.length ≤ 8
  short : ∀ k ∈ keys, k.utf8ByteSize ≤ 32

/-- Entries under these keys, with values that are not long either. -/
structure Modest (keys : List String) (entries : List (Entry String)) : Prop where
  distinct : (entries.map (·.key)).Nodup
  known : ∀ e ∈ entries, e.key ∈ keys
  short : ∀ e ∈ entries, e.keySize ≤ 32 ∧ e.valueSize ≤ 32 ∧ e.run = none

namespace Modest

variable {keys : List String} {entries entries' : List (Entry String)} {key : String} {size : Nat}

theorem nil : Modest keys [] := ⟨List.nodup_nil, nofun, nofun⟩

theorem perm (h : Modest keys entries) (hp : entries'.Perm entries) : Modest keys entries' :=
  ⟨(hp.map _).nodup_iff.2 h.distinct, fun e he => h.known e (hp.mem_iff.1 he),
    fun e he => h.short e (hp.mem_iff.1 he)⟩

theorem filter (h : Modest keys entries) (p : Entry String → Bool) :
    Modest keys (entries.filter p) :=
  ⟨h.distinct.sublist (List.filter_sublist.map _),
    fun e he => h.known e (List.mem_filter.1 he).1, fun e he => h.short e (List.mem_filter.1 he).1⟩

/-- A new key among few short ones. -/
theorem placed (hk : FewKeys keys) (h : Modest keys entries) (hkey : key ∈ keys) (hsize : size ≤ 32)
    (hnew : ∀ e ∈ entries, e.key ≠ key) :
    Modest keys (placed keyBefore entries (Database.short key key.utf8ByteSize size)) := by
  have hcons : Modest keys (Database.short key key.utf8ByteSize size :: entries) := by
    refine ⟨List.nodup_cons.2 ⟨?_, h.distinct⟩, ?_, ?_⟩
    · intro hmem
      obtain ⟨e, he, hek⟩ := List.mem_map.1 hmem
      exact hnew e he hek
    · exact List.forall_mem_cons.2 ⟨hkey, h.known⟩
    · exact List.forall_mem_cons.2 ⟨⟨hk.short key hkey, hsize, rfl⟩, h.short⟩
  refine hcons.perm ?_
  unfold Database.placed
  refine List.perm_middle.trans ?_
  rw [List.takeWhile_append_dropWhile]

theorem replaced (hk : FewKeys keys) (h : Modest keys entries) (hkey : key ∈ keys)
    (hsize : size ≤ 32) : Modest keys (replaced keyBefore entries key key.utf8ByteSize size) := by
  unfold Database.replaced
  split
  · rename_i hnone
    refine h.placed hk hkey hsize fun e he => ?_
    simpa using List.find?_eq_none.1 hnone e he
  · split
    · exact h
    · refine (h.filter _).placed hk hkey hsize fun e he => ?_
      simpa using (List.mem_filter.1 he).2

theorem total_le {sizes : List Nat} {bound : Nat} (h : ∀ n ∈ sizes, n ≤ bound) :
    total sizes ≤ sizes.length * bound := by
  have hfold (start : Nat) : sizes.foldl (· + ·) start ≤ start + sizes.length * bound := by
    induction sizes generalizing start with
    | nil => simp
    | cons n sizes ih =>
      obtain ⟨hn, hsizes⟩ := List.forall_mem_cons.1 h
      have := ih hsizes (start + n)
      rw [List.foldl_cons, List.length_cons, Nat.add_mul]
      omega
  simpa [total] using hfold 0

/-- There is always room on a page for one more of them. -/
theorem hasRoom (hk : FewKeys keys) (h : Modest keys entries) (hkey : key ∈ keys)
    (hsize : size ≤ 32) : HasRoom entries key.utf8ByteSize size := by
  have hkeySize := hk.short key hkey
  have hlength : entries.length ≤ 8 := by
    have hsub : (entries.map (·.key)).Subperm keys := by
      refine List.subperm_of_subset h.distinct fun k hmem => ?_
      obtain ⟨e, he, rfl⟩ := List.mem_map.1 hmem
      exact h.known e he
    have := hsub.length_le
    rw [List.length_map] at this
    exact this.trans hk.few
  have hused : total (entries.map (·.size)) ≤ entries.length * 74 := by
    have hle : ∀ n ∈ entries.map (·.size), n ≤ 74 := by
      intro n hn
      obtain ⟨e, he, rfl⟩ := List.mem_map.1 hn
      obtain ⟨hks, hvs, hrun⟩ := h.short e he
      simp only [Entry.size, hrun, even]
      simp
      omega
    simpa using total_le hle
  constructor
  · unfold entryLimit
    omega
  · have hnew : sizeOf key.utf8ByteSize size ≤ 74 := by
      unfold sizeOf even
      split <;> omega
    unfold pageRoom
    omega

end Modest

/-! ## Writes without end -/

/-- The space of a database that keeps a few short values. After three writes every write moves the
trees to the pages that the write before the last has given up. -/
inductive Space.Tidy (keys : List String) : Space → Prop
  | blank : Tidy keys Space.start
  | second {entries : List (Entry String)} : Modest keys entries →
      Tidy keys ⟨2, 6, 4, single 3 entries, single 5 [record 2 1], [(2, [2])]⟩
  | third {entries : List (Entry String)} {last : List Nat} : Modest keys entries →
      last.Perm [3, 4, 5] →
      Tidy keys ⟨3, 9, 6, single 7 entries, single 8 [record 2 1, record 3 3],
        [(2, [2]), (3, last)]⟩
  | steady {entries : List (Entry String)} {n next main v f x y z : Nat} {last : List Nat} :
      Modest keys entries → 0 < n → last.length = 3 →
      ([main, v, f, x, y, z] ++ last).Nodup →
      Tidy keys ⟨n + 1, next, main, single v entries, single f [record n 3, record (n + 1) 3],
        [(n, [x, y, z]), (n + 1, last)]⟩

theorem Space.put_of_runs {s s' : Space} {key : String} {size : Nat} {w : Pages}
    (h : Runs (putValue s key size) ⟨s.writes + 1, s.next, s.records, none, 0, [], []⟩ s' w) :
    s.put key size = some s' := by
  unfold Runs at h
  rw [Space.put, h]
  rfl

theorem runs_putValue {s s' : Space} {v main : Nat} {entries : List (Entry String)}
    {key : String} {size : Nat} {values : Tree String} {w w₁ w₂ w₃ : Pages}
    (hvalues : s.values = single v entries) (hmain : Runs (renew s.main) w main w₁)
    (hput : Runs ((single v entries).put keyBefore key key.utf8ByteSize size) w₁ values w₂)
    (hfinish : Runs (finish main values s.free) w₂ s' w₃) : Runs (putValue s key size) w s' w₃ := by
  unfold putValue
  rw [hvalues]
  exact Runs.ite_neg (by simp [single]) (Runs.bind hmain (Runs.bind hput hfinish))

theorem runs_putValue_empty {s s' : Space} {key : String} {size : Nat} {values : Tree String}
    {w w₁ w₂ : Pages} (hvalues : s.values = Tree.empty)
    (hput : Runs (Tree.empty.put keyBefore key key.utf8ByteSize size) w values w₁)
    (hfinish : Runs (finish s.main values s.free) w₁ s' w₂) :
    Runs (putValue s key size) w s' w₂ := by
  unfold putValue
  rw [hvalues]
  exact Runs.ite_pos rfl (Runs.bind (Runs.pure _ _) (Runs.bind hput hfinish))

section Put

variable {keys : List String} {key : String} {size : Nat} (hk : FewKeys keys) (hkey : key ∈ keys)
  (hsize : size ≤ 32)

include hk hkey hsize

/-- The values stay modest, on a page that may be written to. -/
theorem exists_runs_put {entries : List (Entry String)} (h : Modest keys entries)
    {page page' : Nat} {w w' : Pages} (hrenew : Runs (renew page) w page' w') :
    ∃ entries', Modest keys entries' ∧
      Runs ((single page entries).put keyBefore key key.utf8ByteSize size) w
        (single page' entries') w' :=
  ⟨_, h.replaced hk hkey hsize, runs_put_single hrenew (fun e he => (h.short e he).2.2)
    (h.hasRoom hk hkey hsize) ((h.filter _).hasRoom hk hkey hsize)⟩

theorem exists_put_steady {entries : List (Entry String)} {n next main v f x y z : Nat}
    {last : List Nat} (h : Modest keys entries) (hn : 0 < n) (hlast : last.length = 3)
    (hpages : ([main, v, f, x, y, z] ++ last).Nodup) :
    ∃ s', Space.put ⟨n + 1, next, main, single v entries,
        single f [record n 3, record (n + 1) 3], [(n, [x, y, z]), (n + 1, last)]⟩ key size =
      some s' ∧ Space.Tidy keys s' := by
  have hdrawable : Pages.drawable ⟨n + 2, next, [(n, [x, y, z]), (n + 1, last)], none, 0, [], []⟩ =
      [(n, [x, y, z])] := by
    simp [Pages.drawable, hn]
  obtain ⟨a, b, c, rfl⟩ := List.length_eq_three.1 hlast
  have hapart : v ≠ x ∧ f ≠ x ∧ f ≠ y := by
    simp only [List.cons_append, List.nodup_cons, List.mem_cons, not_or] at hpages
    tauto
  generalize hrecords : [(n, [x, y, z]), (n + 1, [a, b, c])] = records at hdrawable
  have hmain : Runs (renew main) ⟨n + 2, next, records, none, 0, [], []⟩ x
      ⟨n + 2, next, records, some [y, z], n, [main], [x]⟩ :=
    runs_renew _ (by simp) (runs_take_record _ rfl hdrawable)
  have hvalues : Runs (renew v) ⟨n + 2, next, records, some [y, z], n, [main], [x]⟩ y
      ⟨n + 2, next, records, some [z], n, [main, v], [y, x]⟩ :=
    runs_renew _ (by simpa using hapart.1) (runs_take_pool _ rfl)
  have hfree : Runs (renew f) ⟨n + 2, next, records, some [z], n, [main, v], [y, x]⟩ z
      ⟨n + 2, next, records, some [], n, [main, v, f], [z, y, x]⟩ :=
    runs_renew _ (by simp [hapart.2.1, hapart.2.2]) (runs_take_pool _ rfl)
  have hsave : Runs (save (pageLimit + 1)
        ⟨single z [record n 3, record (n + 1) 3], 0, 0, 0, 0, 0, true⟩)
      ⟨n + 2, next, records, some [], n, [main, v, f], [z, y, x]⟩
      (single z [record (n + 1) 3, record (n + 2) 3])
      ⟨n + 2, next, [(n + 1, [a, b, c])], some [], n, [main, v, f], [z, y, x]⟩ :=
    runs_save_drawn hn List.mem_cons_self rfl (by simp [← hrecords])
  obtain ⟨entries', hentries', hput⟩ := exists_runs_put hk hkey hsize h hvalues
  have hpage : Runs (renew x) ⟨n + 2, next, records, some [z], n, [main, v], [y, x]⟩ x
      ⟨n + 2, next, records, some [z], n, [main, v], [y, x]⟩ :=
    runs_renew_taken _ (by simp)
  have hfinish :
      Runs (finish x (single y entries') (single f [record n 3, record (n + 1) 3])) _ _ _ :=
    runs_finish hpage (runs_renewLeaf_single hfree) hsave (by simp [record, short]) (by simp)
  refine ⟨_, Space.put_of_runs (runs_putValue rfl hmain hput hfinish), ?_⟩
  have hsorted := List.mergeSort_perm [main, v, f] fun a b => decide (a ≤ b)
  generalize [main, v, f].mergeSort (fun a b => decide (a ≤ b)) = sorted at hsorted
  have hfilter :
      [(n + 1, [a, b, c])].filter (fun r => decide (n < r.1)) = [(n + 1, [a, b, c])] := by
    simp
  rw [hfilter]
  refine .steady hentries' (Nat.succ_pos n) (hsorted.length_eq) ?_
  have hperm : ([x, y, z, a, b, c] ++ sorted).Perm ([main, v, f] ++ [x, y, z, a, b, c]) :=
    List.perm_append_comm.trans (hsorted.append_right _)
  exact hperm.nodup_iff.2 hpages

theorem exists_put_blank : ∃ s', Space.start.put key size = some s' ∧ Space.Tidy keys s' := by
  have hroom : HasRoom ([] : List (Entry String)) key.utf8ByteSize size :=
    Modest.nil.hasRoom hk hkey hsize
  have hvalues : Runs (Tree.empty.put keyBefore key key.utf8ByteSize size)
      ⟨2, 3, [], none, 0, [], []⟩ (single 3 [short key key.utf8ByteSize size])
      ⟨2, 4, [], none, 0, [], [3]⟩ :=
    runs_put_empty (runs_take_next _ rfl rfl (by decide)) hroom
  have hmain : Runs (renew 2) ⟨2, 4, [], none, 0, [], [3]⟩ 4 ⟨2, 5, [], none, 0, [2], [4, 3]⟩ :=
    runs_renew _ (by decide) (runs_take_next _ rfl rfl (by decide))
  have hrecord : Runs (putRecord Tree.empty 2 1) ⟨2, 5, [], none, 0, [2], [4, 3]⟩
      (single 5 [record 2 1]) ⟨2, 6, [], none, 0, [2], [5, 4, 3]⟩ :=
    runs_put_empty (runs_take_next _ rfl rfl (by decide)) (by decide)
  have hsave : Runs (save (pageLimit + 1) ⟨Tree.empty, 0, 0, 0, 0, 0, true⟩)
      ⟨2, 5, [], none, 0, [2], [4, 3]⟩ (single 5 [record 2 1])
      ⟨2, 6, [], none, 0, [2], [5, 4, 3]⟩ :=
    runs_save (runs_dropDrawn_none (Nat.le_refl _)) rfl (by simp) rfl hrecord rfl (Nat.le_refl _)
      rfl rfl
  have hfinish : Runs (finish 2 (single 3 [short key key.utf8ByteSize size]) Tree.empty) _ _ _ :=
    runs_finish hmain (Runs.pure _ _) hsave (by simp [record, short]) (by simp)
  refine ⟨_, Space.put_of_runs (runs_putValue_empty rfl hvalues hfinish), ?_⟩
  have hentries : Modest keys [short key key.utf8ByteSize size] :=
    Modest.nil.placed hk hkey hsize nofun
  have hsorted : [2].mergeSort (fun a b => decide (a ≤ b)) = [2] := List.mergeSort_singleton 2
  rw [hsorted]
  exact .second hentries

theorem exists_put_second {entries : List (Entry String)} (h : Modest keys entries) :
    ∃ s', Space.put ⟨2, 6, 4, single 3 entries, single 5 [record 2 1], [(2, [2])]⟩ key size =
      some s' ∧ Space.Tidy keys s' := by
  have hmain : Runs (renew 4) ⟨3, 6, [(2, [2])], none, 0, [], []⟩ 6
      ⟨3, 7, [(2, [2])], none, 0, [4], [6]⟩ :=
    runs_renew _ (by decide) (runs_take_next _ rfl rfl (by decide))
  have hvalues : Runs (renew 3) ⟨3, 7, [(2, [2])], none, 0, [4], [6]⟩ 7
      ⟨3, 8, [(2, [2])], none, 0, [4, 3], [7, 6]⟩ :=
    runs_renew _ (by decide) (runs_take_next _ rfl rfl (by decide))
  have hfree : Runs (renew 5) ⟨3, 8, [(2, [2])], none, 0, [4, 3], [7, 6]⟩ 8
      ⟨3, 9, [(2, [2])], none, 0, [4, 3, 5], [8, 7, 6]⟩ :=
    runs_renew _ (by decide) (runs_take_next _ rfl rfl (by decide))
  have hsave : Runs (save (pageLimit + 1) ⟨single 5 [record 2 1], 0, 0, 0, 0, 0, true⟩)
      ⟨3, 8, [(2, [2])], none, 0, [4, 3], [7, 6]⟩ (single 8 [record 2 1, record 3 3])
      ⟨3, 9, [(2, [2])], none, 0, [4, 3, 5], [8, 7, 6]⟩ :=
    runs_save (runs_dropDrawn_none (Nat.le_refl _)) rfl (by simp) (runs_renewLeaf_single hfree)
      (runs_putRecord (by simp) ⟨by simp [record, short], by simp [record, short], by decide⟩) rfl
      (Nat.le_refl _) rfl rfl
  obtain ⟨entries', hentries', hput⟩ := exists_runs_put hk hkey hsize h hvalues
  have hpage : Runs (renew 6) ⟨3, 8, [(2, [2])], none, 0, [4, 3], [7, 6]⟩ 6
      ⟨3, 8, [(2, [2])], none, 0, [4, 3], [7, 6]⟩ :=
    runs_renew_taken _ (by simp)
  have hfinish : Runs (finish 6 (single 7 entries') (single 5 [record 2 1])) _ _ _ :=
    runs_finish hpage (Runs.pure _ _) hsave (by simp [record, short]) (by simp)
  refine ⟨_, Space.put_of_runs (runs_putValue rfl hmain hput hfinish), ?_⟩
  refine .third hentries' ((List.mergeSort_perm [4, 3, 5] _).trans ?_)
  decide

theorem exists_put_third {entries : List (Entry String)} (h : Modest keys entries)
    {last : List Nat} (hlast : last.Perm [3, 4, 5]) :
    ∃ s', Space.put ⟨3, 9, 6, single 7 entries, single 8 [record 2 1, record 3 3],
        [(2, [2]), (3, last)]⟩ key size = some s' ∧ Space.Tidy keys s' := by
  obtain ⟨x, y, z, rfl⟩ := List.length_eq_three.1 hlast.length_eq
  have hmain : Runs (renew 6) ⟨4, 9, [(2, [2]), (3, [x, y, z])], none, 0, [], []⟩ 2
      ⟨4, 9, [(2, [2]), (3, [x, y, z])], some [], 2, [6], [2]⟩ :=
    runs_renew _ (by simp) (runs_take_record _ rfl rfl)
  have hvalues : Runs (renew 7) ⟨4, 9, [(2, [2]), (3, [x, y, z])], some [], 2, [6], [2]⟩ 9
      ⟨4, 10, [(2, [2]), (3, [x, y, z])], some [], 2, [6, 7], [9, 2]⟩ :=
    runs_renew _ (by simp) (runs_take_next _ rfl rfl (by simp [pageLimit]))
  have hfree : Runs (renew 8) ⟨4, 10, [(2, [2]), (3, [x, y, z])], some [], 2, [6, 7], [9, 2]⟩ 10
      ⟨4, 11, [(2, [2]), (3, [x, y, z])], some [], 2, [6, 7, 8], [10, 9, 2]⟩ :=
    runs_renew _ (by simp) (runs_take_next _ rfl rfl (by simp [pageLimit]))
  have hsave : Runs (save (pageLimit + 1)
        ⟨single 10 [record 2 1, record 3 3], 0, 0, 0, 0, 0, true⟩)
      ⟨4, 11, [(2, [2]), (3, [x, y, z])], some [], 2, [6, 7, 8], [10, 9, 2]⟩
      (single 10 [record 3 3, record 4 3])
      ⟨4, 11, [(3, [x, y, z])], some [], 2, [6, 7, 8], [10, 9, 2]⟩ :=
    runs_save_drawn (by decide) List.mem_cons_self rfl rfl
  obtain ⟨entries', hentries', hput⟩ := exists_runs_put hk hkey hsize h hvalues
  have hpage : Runs (renew 2) ⟨4, 10, [(2, [2]), (3, [x, y, z])], some [], 2, [6, 7], [9, 2]⟩ 2
      ⟨4, 10, [(2, [2]), (3, [x, y, z])], some [], 2, [6, 7], [9, 2]⟩ :=
    runs_renew_taken _ (by simp)
  have hfinish : Runs (finish 2 (single 9 entries') (single 8 [record 2 1, record 3 3])) _ _ _ :=
    runs_finish hpage (runs_renewLeaf_single hfree) hsave (by simp [record, short]) (by simp)
  refine ⟨_, Space.put_of_runs (runs_putValue rfl hmain hput hfinish), ?_⟩
  have hsorted := List.mergeSort_perm [6, 7, 8] fun a b => decide (a ≤ b)
  refine .steady hentries' (by decide) hsorted.length_eq ?_
  have hperm := ((List.Perm.refl [2, 9, 10]).append hlast).append hsorted
  exact hperm.nodup_iff.2 (by decide)

/-- A few short values can be written over and over : there is always room for the next write. -/
theorem Space.Tidy.exists_put {s : Space} (h : s.Tidy keys) :
    ∃ s', s.put key size = some s' ∧ s'.Tidy keys := by
  cases h with
  | blank => exact exists_put_blank hk hkey hsize
  | second h => exact exists_put_second hk hkey hsize h
  | third h hlast => exact exists_put_third hk hkey hsize h hlast
  | steady h hn hlast hpages => exact exists_put_steady hk hkey hsize h hn hlast hpages

end Put

end ClassViewer.Database
