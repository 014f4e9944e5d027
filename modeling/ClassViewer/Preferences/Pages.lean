/-!
# The pages of a database

A database has a fixed number of pages. What a write replaces may still be looked at, so it is never
changed in place: the pages on the way to it are copied to others, and the old ones are recorded as
given up. They are taken again by the write after next at the earliest, in one piece where a long
value needs a run of pages, and a write for which there is no page left fails.

`Pages` is what a write at work knows of them: the records of earlier writes, the pages it has drawn
from the records, those it has taken and those it has given up.
-/

namespace ClassViewer.Database

/-! ## Sizes -/

/-- The size of a page, in bytes. -/
def pageSize : Nat := 4096

/-- The number of pages. -/
def pageLimit : Nat := 4096

/-- The bytes of a page behind its header. -/
def pageRoom : Nat := 4080

/-- How many pages a long value takes, the header of the first included. -/
def pagesFor (size : Nat) : Nat := (size + 15) / pageSize + 1

/-- Pages in a row. -/
structure Run where
  first : Nat
  count : Nat
  deriving DecidableEq, Repr

/-- The pages of a run. -/
def Run.pages (r : Run) : List Nat := List.range' r.first r.count

/-! ## Taking and giving up pages -/

/-- The pages as a write at work knows them. -/
structure Pages where
  /-- The number of the write. -/
  number : Nat
  /-- The first page that was never used. -/
  next : Nat
  /-- The pages given up, by the number of the write, oldest first. -/
  records : List (Nat × List Nat)
  /-- The pages at hand, in order, once there were any. -/
  pool : Option (List Nat)
  /-- The last of the records the pool was drawn from. -/
  drawn : Nat
  /-- The pages the write has given up. -/
  spent : List Nat
  /-- The first pages of what the write has taken. -/
  taken : List Nat

/-- A step of a write; none if there is no room. -/
abbrev PagesM := StateT Pages Option

/-- The two lists in order. -/
def inOrder (xs ys : List Nat) : List Nat := List.merge xs ys fun a b => decide (a ≤ b)

/-- Takes the lowest run of that many pages out of a list of pages in order. -/
def takeRun (count : Nat) (pages : List Nat) : Option (Nat × List Nat) :=
  let a := pages.toArray
  let begins := fun i => a.getD (i + (count - 1)) 0 == a.getD i 0 + (count - 1)
  ((List.range (a.size + 1 - count)).find? begins).map fun i =>
    (a.getD i 0, pages.take i ++ pages.drop (i + count))

/-- Draws records into the pool, one after the other, until it has a run of that many pages. The
answer is the pool, the last record drawn, and the first page of the run. -/
def draw (count : Nat) (pool : Option (List Nat)) (drawn : Nat) :
    List (Nat × List Nat) → Option (List Nat) × Nat × Option Nat
  | [] =>
    match pool.bind (takeRun count) with
    | some (first, rest) => (some rest, drawn, some first)
    | none => (pool, drawn, none)
  | (n, pages) :: records =>
    match pool.bind (takeRun count) with
    | some (first, rest) => (some rest, drawn, some first)
    | none => draw count (some (inOrder (pool.getD []) pages)) n records

/-- Takes a run of pages: out of the pool if it has one, else pages that were never used. The
record of the write before is not drawn. -/
def take (count : Nat) : PagesM Nat := do
  let w ← get
  let records := w.records.filter fun r => decide (w.drawn < r.1 ∧ r.1 + 1 < w.number)
  let (pool, drawn, found) := draw count w.pool w.drawn records
  match found with
  | some first =>
    set { w with pool := pool, drawn := drawn, taken := first :: w.taken }
    return first
  | none =>
    if w.next + count < pageLimit then
      set { w with
        pool := pool, drawn := drawn, taken := w.next :: w.taken, next := w.next + count }
      return w.next
    else failure

/-- Gives pages up. -/
def spend (pages : List Nat) : PagesM Unit := modify fun w => { w with spent := w.spent ++ pages }

/-- A page to write to in place of one: the same if the write has taken it itself, else a new one,
for which the old one is given up. -/
def renew (page : Nat) : PagesM Nat := do
  if (← get).taken.contains page then return page
  else
    let new ← take 1
    spend [page]
    return new

/-- Gives the pages of a long value up; those the write has taken itself go back to the pool if
there is one. -/
def giveBack (r : Run) : PagesM Unit := do
  let w ← get
  match w.pool with
  | some pool =>
    if w.taken.contains r.first then
      set { w with pool := some (inOrder pool r.pages), taken := w.taken.erase r.first }
    else spend r.pages
  | none => spend r.pages

end ClassViewer.Database
