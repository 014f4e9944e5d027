import ClassViewer.Preferences.Pages

/-!
# The trees of a database

A tree keeps entries in the order of their keys. They lie on leaves, and the leaves on levels of
branches up to a single root. Only sizes matter here, not values: `Tree.put` and `Tree.dropFirst`
say which pages a change takes and gives up. A full page is parted in two; a leaf that has become
nearly empty takes an entry from its neighbour or is joined with it.
-/

namespace ClassViewer.Database

/-! ## Entries -/

/-- The largest entry that lies on a page with others; the value of a larger one has pages of its
own. -/
def entryLimit : Nat := 2038

/-- The number rounded up to an even one. -/
def even (n : Nat) : Nat := (n + 1) / 2 * 2

/-- An entry of a tree: its key, the sizes of key and value, and the pages of a long value. -/
structure Entry (κ : Type) where
  key : κ
  keySize : Nat
  valueSize : Nat
  run : Option Run

/-- The bytes an entry takes of its page. -/
def Entry.size {κ : Type} (e : Entry κ) : Nat :=
  even (10 + e.keySize + (if e.run.isSome then 8 else e.valueSize))

/-- The bytes an entry of those sizes takes of its page. -/
def sizeOf (keySize valueSize : Nat) : Nat :=
  even (10 + keySize + (if 8 + keySize + valueSize ≤ entryLimit then valueSize else 8))

/-- An entry with the pages its value needs. -/
def newEntry {κ : Type} (key : κ) (keySize valueSize : Nat) : PagesM (Entry κ) := do
  if 8 + keySize + valueSize ≤ entryLimit then return ⟨key, keySize, valueSize, none⟩
  else
    let count := pagesFor valueSize
    return ⟨key, keySize, valueSize, some ⟨← take count, count⟩⟩

/-! ## Leaves and branches -/

/-- A page with entries. -/
structure Leaf (κ : Type) where
  page : Nat
  /-- The key that divides the leaf from the one before it, with its size. -/
  divider : Option (κ × Nat)
  entries : List (Entry κ)

/-- The sizes added up. -/
def total (sizes : List Nat) : Nat := sizes.foldl (· + ·) 0

/-- The bytes that are used of a leaf. -/
def Leaf.used {κ : Type} (l : Leaf κ) : Nat := total (l.entries.map (·.size))

/-- The size of the key that divides a leaf from the one before it. -/
def Leaf.dividerSize {κ : Type} (l : Leaf κ) : Nat := (l.divider.map (·.2)).getD 0

/-- A page over pages of the level below, which follow those of the branch before it. -/
structure Branch where
  page : Nat
  /-- How many pages of the level below it stands over. -/
  count : Nat

/-- A tree: its leaves in order, and the levels of branches, the lowest first and the root last. -/
structure Tree (κ : Type) where
  leaves : List (Leaf κ)
  levels : List (List Branch)

/-- The tree without entries. -/
def Tree.empty {κ : Type} : Tree κ := ⟨[], []⟩

/-- The entries of a tree in order. -/
def Tree.entries {κ : Type} (t : Tree κ) : List (Entry κ) := t.leaves.flatMap (·.entries)

/-- Which branch of a level stands over a page of the level below. -/
def branchOver : List Branch → Nat → Nat
  | [], _ => 0
  | b :: bs, i => if i < b.count then 0 else branchOver bs (i - b.count) + 1

/-- The sizes of the dividers of a level, by those of the level below: a branch is divided from the
one before it by what divides its first page from the page before that. -/
def dividersAbove : List Branch → List Nat → List Nat
  | [], _ => []
  | b :: bs, below => below.headD 0 :: dividersAbove bs (below.drop b.count)

/-- The bytes that the pages under a branch take of it; the first one has no divider. -/
def branchSizes : List Nat → List Nat
  | [] => []
  | _ :: dividers => 10 :: dividers.map fun d => even (10 + d)

/-! ## Parting a page -/

/-- How many of the first sizes are counted up to the one that exceeds a page, or up to the last. -/
def countUpTo (limit used : Nat) : List Nat → Nat
  | [] => 0
  | [_] => 0
  | n :: ns => if limit < used + n then 0 else countUpTo limit (used + n) ns + 1

/-- Where a full page is parted: the sizes are those on it with the new one in place at `index`.
What is small and many is halved. Otherwise the half with the new one is filled as far as it goes,
on a leaf one further than on a branch, and a new last one goes with a single neighbour. -/
def partition (isLeaf : Bool) (sizes : List Nat) (index : Nat) : Nat :=
  let count := sizes.length - 1
  let half := (count + 1) / 2
  if 32 ≤ count ∧ sizes.getD index 0 ≤ pageRoom / 16 ∧ index < count then half
  else if count ≤ index then countUpTo pageRoom 0 (sizes.take count)
  else if index ≤ half then
    countUpTo pageRoom 0 (sizes.take (half + 1 + (if isLeaf then 1 else 0)))
  else count + 1 - countUpTo pageRoom 0 (sizes.drop half).reverse

/-- Takes a page of the level below into the levels above, behind the one at `i`; `dividers` are the
sizes of the dividers below, that of the new page among them. A full branch is parted, and a parted
root gets a new one above it. -/
def takeIn : List (List Branch) → List Nat → Nat → PagesM (List (List Branch))
  | [], _, _ => do return [[⟨← take 1, 2⟩]]
  | level :: above, dividers, i => do
    let j := branchOver level i
    match level[j]? with
    | none => return level :: above
    | some b =>
      let start := total ((level.take j).map (·.count))
      let sizes := branchSizes ((dividers.drop start).take (b.count + 1))
      if total sizes ≤ pageRoom then
        return level.set j { b with count := b.count + 1 } :: above
      else
        let right ← take 1
        let cut := partition false sizes (i + 1 - start)
        let parted := [⟨b.page, cut⟩, ⟨right, b.count + 1 - cut⟩]
        let level := level.take j ++ parted ++ level.drop (j + 1)
        return level :: (← takeIn above (dividersAbove level dividers) j)

/-! ## Joining pages -/

/-- The bytes of a leaf below which it counts as nearly empty. -/
def scarce : Nat := pageRoom / 4

/-- Removes the second page of the level below from the levels above. A branch over a single page
takes one from its neighbour or is joined with it, and a root over a single page is given up. -/
def leaveOut : List (List Branch) → PagesM (List (List Branch))
  | [] => return []
  | [] :: above => return [] :: above
  | [b] :: above => do
    if b.count ≤ 2 then
      spend [b.page]
      return above
    else return [{ b with count := b.count - 1 }] :: above
  | (b :: c :: bs) :: above => do
    if 2 < b.count then return ({ b with count := b.count - 1 } :: c :: bs) :: above
    else if 2 < c.count then
      let page ← renew c.page
      return (b :: ⟨page, c.count - 1⟩ :: bs) :: above
    else
      spend [c.page]
      return (⟨b.page, b.count - 1 + c.count⟩ :: bs) :: (← leaveOut above)

/-! ## Changes -/

/-- Makes the branches over a page pages to write to, from the root down. -/
def renewLevels : List (List Branch) → Nat → PagesM (List (List Branch))
  | [], _ => return []
  | level :: above, i => do
    let j := branchOver level i
    let above ← renewLevels above j
    match level[j]? with
    | none => return level :: above
    | some b => return level.set j { b with page := ← renew b.page } :: above

namespace Tree

variable {κ : Type} [BEq κ]

/-- The position of the leaf a key belongs to. -/
def place (before : κ → κ → Bool) (t : Tree κ) (key : κ) : Nat :=
  (t.leaves.tail.takeWhile fun l =>
    match l.divider with
    | some (d, _) => !before key d
    | none => true).length

/-- Makes a leaf and the branches over it pages to write to. -/
def renewLeaf (t : Tree κ) (i : Nat) : PagesM (Tree κ) := do
  let levels ← renewLevels t.levels i
  match t.leaves[i]? with
  | none => return { t with levels := levels }
  | some l => return ⟨t.leaves.set i { l with page := ← renew l.page }, levels⟩

/-- Adds an entry to a leaf, which is parted if it is full. -/
def add (before : κ → κ → Bool) (t : Tree κ) (i : Nat) (key : κ) (keySize valueSize : Nat) :
    PagesM (Tree κ) := do
  match t.leaves[i]? with
  | none => return t
  | some l =>
    let low := l.entries.takeWhile fun e => before e.key key
    let high := l.entries.dropWhile fun e => before e.key key
    let size := sizeOf keySize valueSize
    if l.used + size ≤ pageRoom then
      let e ← newEntry key keySize valueSize
      return { t with leaves := t.leaves.set i { l with entries := low ++ e :: high } }
    else
      let right ← take 1
      let cut := partition true (low.map (·.size) ++ size :: high.map (·.size)) low.length
      let keys := low.map (fun e => (e.key, e.keySize)) ++ (key, keySize) ::
        high.map fun e => (e.key, e.keySize)
      let divider := (keys.drop cut).head?
      let dividers := t.leaves.map (·.dividerSize)
      let levels ← takeIn t.levels
        (dividers.take (i + 1) ++ (divider.map (·.2)).getD 0 :: dividers.drop (i + 1)) i
      let e ← newEntry key keySize valueSize
      let all := low ++ e :: high
      let parted := [{ l with entries := all.take cut }, ⟨right, divider, all.drop cut⟩]
      return ⟨t.leaves.take i ++ parted ++ t.leaves.drop (i + 1), levels⟩

/-- The tree with the entries of a leaf changed. -/
def update (t : Tree κ) (i : Nat) (f : List (Entry κ) → List (Entry κ)) : Tree κ :=
  { t with leaves := t.leaves.modify i fun l => { l with entries := f l.entries } }

/-- Puts an entry into a tree, in place of the one with its key. A value of the size of the old one
is written over it, and so is one for which the old pages do that the write has taken itself. -/
def put (before : κ → κ → Bool) (t : Tree κ) (key : κ) (keySize valueSize : Nat) :
    PagesM (Tree κ) := do
  if t.leaves.isEmpty then
    let page ← take 1
    add before ⟨[⟨page, none, []⟩], []⟩ 0 key keySize valueSize
  else
    let i := t.place before key
    let t ← t.renewLeaf i
    let without := t.update i (·.filter (·.key != key))
    match ((t.leaves[i]?.map (·.entries)).getD []).find? (·.key == key) with
    | none => t.add before i key keySize valueSize
    | some old =>
      match old.run with
      | some run =>
        if pagesFor valueSize ≤ run.count ∧ (← get).taken.contains run.first then
          return t.update i (·.map fun e =>
            if e.key == key then { e with valueSize := valueSize } else e)
        else
          giveBack run
          without.add before i key keySize valueSize
      | none =>
        if old.valueSize = valueSize then return t
        else without.add before i key keySize valueSize

/-- Mends a tree whose first leaf has lost an entry. A leaf that is nearly empty takes an entry from
its neighbour if that has more than it needs, and is joined with it otherwise; an only leaf is given
up when it is empty. -/
def mendFirst (t : Tree κ) : PagesM (Tree κ) := do
  match t.leaves with
  | [] => return t
  | [l] =>
    if l.entries.isEmpty then
      spend [l.page]
      return empty
    else return t
  | l :: r :: rest =>
    if scarce ≤ l.used ∧ !l.entries.isEmpty then return t
    else
      match r.entries with
      | e :: f :: more =>
        if scarce ≤ r.used then
          let page ← renew r.page
          let r := ⟨page, some (f.key, f.keySize), f :: more⟩
          return { t with leaves := { l with entries := l.entries ++ [e] } :: r :: rest }
        else join l r rest
      | _ => join l r rest
where
  /-- Joins the first two leaves. -/
  join (l r : Leaf κ) (rest : List (Leaf κ)) : PagesM (Tree κ) := do
    spend [r.page]
    let levels ← leaveOut t.levels
    return ⟨{ l with entries := l.entries ++ r.entries } :: rest, levels⟩

/-- Removes the first entry. -/
def dropFirst (t : Tree κ) : PagesM (Tree κ) := do
  let t ← t.renewLeaf 0
  match t.entries.head? with
  | some ⟨_, _, _, some run⟩ => giveBack run
  | _ => pure ()
  (t.update 0 (·.tail)).mendFirst

end Tree

end ClassViewer.Database
