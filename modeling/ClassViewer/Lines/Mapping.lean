/-!
# Line mappings

A sparse mapping from lines of decompiled text to lines of the source text, both counted from one.
Entries arrive in any order, a later entry for a line replaces an earlier one, and an entry with a
line that is not positive is dropped.

A mapping keeps its entries in the order of the decompiled lines, one for each, and all lines in
them are known. So there is no mapping but those that can be made by adding entries, and two with
the same entries are equal.
-/

namespace ClassViewer

/-- A line number of decompiled or source text; zero stands for an unknown line. -/
abbrev LineNumber := UInt32

/-- Replaces or adds the entry of `key` in a list with increasing keys. -/
def insertSorted (key value : LineNumber) :
    List (LineNumber × LineNumber) → List (LineNumber × LineNumber)
  | [] => [(key, value)]
  | (k, v) :: rest =>
    if key < k then (key, value) :: (k, v) :: rest
    else if key = k then (key, value) :: rest
    else (k, v) :: insertSorted key value rest

/-- Entries by strictly increasing decompiled line. -/
def Ascending (entries : List (LineNumber × LineNumber)) : Prop :=
  entries.Pairwise fun e e' => e.1 < e'.1

theorem mem_insertSorted {key value : LineNumber} {l : List (LineNumber × LineNumber)}
    {e : LineNumber × LineNumber} (h : e ∈ insertSorted key value l) :
    e = (key, value) ∨ e ∈ l := by
  induction l with
  | nil => exact .inl (List.mem_singleton.1 h)
  | cons f rest ih =>
    obtain ⟨k, v⟩ := f
    unfold insertSorted at h
    split at h
    · exact List.mem_cons.1 h
    · split at h
      · exact (List.mem_cons.1 h).imp_right (List.mem_cons_of_mem _)
      · rcases List.mem_cons.1 h with rfl | h
        · exact .inr List.mem_cons_self
        · exact (ih h).imp_right (List.mem_cons_of_mem _)

theorem Ascending.insertSorted {l : List (LineNumber × LineNumber)} (h : Ascending l)
    (key value : LineNumber) : Ascending (insertSorted key value l) := by
  induction l with
  | nil => exact List.pairwise_singleton _ _
  | cons f rest ih =>
    obtain ⟨k, v⟩ := f
    obtain ⟨hfirst, hrest⟩ := List.pairwise_cons.1 h
    unfold ClassViewer.insertSorted
    split
    · rename_i hlt
      refine List.pairwise_cons.2 ⟨fun e he => ?_, h⟩
      rcases List.mem_cons.1 he with rfl | he
      · exact hlt
      · exact UInt32.lt_trans hlt (hfirst e he)
    · rename_i hge
      split
      · rename_i heq
        subst heq
        exact List.pairwise_cons.2 ⟨hfirst, hrest⟩
      · rename_i hne
        refine List.pairwise_cons.2 ⟨fun e he => ?_, ih hrest⟩
        rcases mem_insertSorted he with rfl | he
        · exact UInt32.lt_of_le_of_ne (UInt32.not_lt.1 hge) (Ne.symm hne)
        · exact hfirst e he

/-- Entries from decompiled to source lines. -/
@[ext]
structure LineMapping where
  entries : List (LineNumber × LineNumber)
  /-- They stand in the order of their decompiled lines, one for each. -/
  ascending : Ascending entries
  /-- No line is unknown. -/
  known : ∀ e ∈ entries, 0 < e.1 ∧ 0 < e.2
  deriving DecidableEq, Repr

namespace LineMapping

/-- The mapping without entries. -/
def empty : LineMapping := ⟨[], .nil, List.forall_mem_nil _⟩

instance : Inhabited LineMapping := ⟨empty⟩

def isEmpty (m : LineMapping) : Bool := m.entries.isEmpty

/-- The number of entries. -/
def size (m : LineMapping) : Nat := m.entries.length

/-- Adds an entry, unless one of its lines is unknown. -/
def insert (m : LineMapping) (decompiled source : LineNumber) : LineMapping :=
  if h : 0 < decompiled ∧ 0 < source then
    { entries := insertSorted decompiled source m.entries
      ascending := m.ascending.insertSorted decompiled source
      known := fun e he => (mem_insertSorted he).elim (fun hnew => hnew ▸ h) (m.known e) }
  else m

/-- The source line of a decompiled line. -/
def get? (m : LineMapping) (decompiled : LineNumber) : Option LineNumber :=
  m.entries.lookup decompiled

/-- Adds entries in order. -/
def extend (m : LineMapping) (pairs : List (LineNumber × LineNumber)) : LineMapping :=
  pairs.foldl (fun m p => m.insert p.1 p.2) m

/-- The mapping of a list of entries. -/
def ofPairs (pairs : List (LineNumber × LineNumber)) : LineMapping := empty.extend pairs

/-- The line number of a signed number, if it has one. -/
def lineOfInt? (n : Int) : Option LineNumber :=
  if 0 ≤ n ∧ n < 0x100000000 then some (UInt32.ofNat n.toNat) else none

/-- Neighbours in a flat list taken as pairs; an odd element at the end is left out. -/
def pairUp : List Int → List (Int × Int)
  | a :: b :: rest => (a, b) :: pairUp rest
  | _ => []

/-- The pairs of a flat list in which neither number is negative. -/
def linePairs (flat : List Int) : List (LineNumber × LineNumber) :=
  (pairUp flat).filterMap fun p =>
    match lineOfInt? p.1, lineOfInt? p.2 with
    | some d, some o => some (d, o)
    | _, _ => none

/-- The mapping of a flat list `decompiled, source, decompiled, source, …`. -/
def ofFlat (flat : List Int) : LineMapping := ofPairs (linePairs flat)

end LineMapping

end ClassViewer
