import ClassViewer.Preferences.Tree

/-!
# The space of a database

`Space` is what a database knows of its pages between writes: which pages its trees lie on, which
were given up by which write, and which were never used. One tree holds the values, another the
records of the pages given up, and a page of its own names both. `Space.put` is one write; one for
which there is no room fails and leaves no trace.
-/

namespace ClassViewer.Database

/-- What a database knows of its pages between writes. -/
structure Space where
  /-- How many writes there were. -/
  writes : Nat
  /-- The first page that was never used. -/
  next : Nat
  /-- The page that names the trees. -/
  main : Nat
  /-- The tree of the values. -/
  values : Tree String
  /-- The tree of the pages given up. -/
  free : Tree Nat
  /-- The pages given up, by the number of the write, oldest first. -/
  records : List (Nat × List Nat)

/-- The space of a new database. -/
def Space.start : Space := ⟨1, 3, 2, .empty, .empty, []⟩

/-! ## The pages given up -/

/-- How many page numbers fit on one page with their count. -/
def numbersPerPage : Nat := 509

/-- The size of a list of page numbers. -/
def listSize (count : Nat) : Nat := 8 * (count + 1)

/-- Where the saving of the pages stands. -/
structure Saving where
  /-- The tree of the pages given up. -/
  free : Tree Nat
  /-- The last record that was removed because the pool was drawn from it. -/
  removed : Nat
  /-- The number of the record that takes what is left in the pool. -/
  head : Nat
  /-- How many pages that record has room for. -/
  headRoom : Nat
  /-- How many pages all such records have room for. -/
  totalRoom : Nat
  /-- How many of the pages given up were saved. -/
  saved : Nat
  /-- Whether room that is too large may be cut once more. -/
  again : Bool

/-- The order of numbers. -/
def numberBefore (a b : Nat) : Bool := decide (a < b)

/-- Puts a record of that many pages into the tree of the pages given up. -/
def putRecord (free : Tree Nat) (number count : Nat) : PagesM (Tree Nat) :=
  free.put numberBefore number 8 (listSize count)

/-- Removes the records the pool was drawn from; `fuel` bounds their number. -/
def dropDrawn : Nat → Saving → PagesM Saving
  | 0, s => return s
  | fuel + 1, s => do
    if s.removed < (← get).drawn then
      let number := (s.free.entries.head?.map (·.key)).getD 0
      let free ← s.free.dropFirst
      modify fun w => { w with records := w.records.filter (·.1 != number) }
      dropDrawn fuel { s with
        free := free, removed := number, head := number, headRoom := 0, totalRoom := 0 }
    else return s

/-- Puts the record of the write until it has room for all pages given up, since putting it may give
up more; `fuel` bounds the turns. -/
def putSpent : Nat → Saving → PagesM Saving
  | 0, s => return s
  | fuel + 1, s => do
    let w ← get
    let free ← putRecord s.free w.number w.spent.length
    let s := { s with free := free, saved := w.spent.length }
    if w.spent.length < (← get).spent.length then putSpent fuel s else return s

/-- The room of the record that takes the rest of the pool: pages that need several records are
spread over them. -/
def spread (head rest : Nat) : Nat :=
  if numbersPerPage < rest ∧ 1 < head then
    let share := rest / head
    share + (numbersPerPage - share % (numbersPerPage + 1))
  else rest

/-- Saves the pages given up and what is left in the pool; `fuel` bounds the turns. -/
def save : Nat → Saving → PagesM (Tree Nat)
  | 0, s => return s.free
  | fuel + 1, s => do
    let s ← dropDrawn (pageLimit + 1) s
    if s.saved < (← get).spent.length then
      let free ← if s.saved = 0 then s.free.renewLeaf (s.free.leaves.length - 1) else pure s.free
      save fuel (← putSpent (pageLimit + 1) { s with free := free })
    else
      let left := ((← get).pool.getD []).length
      if s.totalRoom = left ∨ left < s.totalRoom ∧ !s.again then return s.free
      else
        let again := s.again && !decide (left ≤ s.totalRoom)
        let next := decide (s.totalRoom < left ∧ numbersPerPage ≤ s.headRoom ∧ 1 < s.head)
        let head := if next then s.head - 1 else s.head
        let others := if next then s.totalRoom else s.totalRoom - s.headRoom
        let room := spread head (left - others)
        let free ← putRecord s.free head room
        save fuel { s with
          free := free, head := head, headRoom := room, totalRoom := others + room,
          again := again }

/-- Deals pages out to the records with room for them, lowest pages first; the answer pairs each
record with its pages. -/
def deal : List Nat → List (Entry Nat) → List (Nat × List Nat)
  | _, [] => []
  | pages, e :: rest =>
    let room := e.valueSize / 8 - 1
    (e.key, pages.take room) :: deal (pages.drop room) rest

/-- The entries with the sizes of the lists they hold. -/
def fitSizes (dealt : List (Nat × List Nat)) (es : List (Entry Nat)) : List (Entry Nat) :=
  es.map fun e =>
    match dealt.lookup e.key with
    | some (p :: ps) => { e with valueSize := listSize (p :: ps).length }
    | _ => e

/-- Ends a write: its pages are saved, and what it leaves is the space of the next one. -/
def finish (main : Nat) (values : Tree String) (free : Tree Nat) : PagesM Space := do
  let main ← renew main
  let free ← if (← get).pool.isSome then free.renewLeaf 0 else pure free
  let free ← save (pageLimit + 1) ⟨free, 0, 0, 0, 0, 0, true⟩
  let w ← get
  let dealt := deal (w.pool.getD []) (free.entries.filter fun e => decide (e.key ≤ w.drawn))
  let kept := w.records.filter fun r => decide (w.drawn < r.1)
  let spent := w.spent.mergeSort fun a b => decide (a ≤ b)
  let leaves := free.leaves.map fun l => { l with entries := fitSizes dealt l.entries }
  return {
    writes := w.number, next := w.next, main := main, values := values,
    free := { free with leaves := leaves }
    records := dealt ++ kept ++ (if spent.isEmpty then [] else [(w.number, spent)]) }

/-! ## Writes -/

/-- The order of keys. -/
def keyBefore (a b : String) : Bool := decide (a < b)

/-- Writes a value of that size under a key. -/
def putValue (s : Space) (key : String) (size : Nat) : PagesM Space := do
  let main ← if s.values.leaves.isEmpty then pure s.main else renew s.main
  let values ← s.values.put keyBefore key key.utf8ByteSize size
  finish main values s.free

/-- The space after a write; none if there is no room for it. -/
def Space.put (s : Space) (key : String) (size : Nat) : Option Space :=
  ((putValue s key size).run ⟨s.writes + 1, s.next, s.records, none, 0, [], []⟩).map (·.1)

end ClassViewer.Database
