import ClassViewer.Disk.Ignore

/-!
# Walks

A walk lists what lies below a directory, leaving out what ignore rules leave out and everything in
it. Links are listed and not entered; only the directory the walk starts in may be reached through
one.

The rules that count are those of the directories on the way and, after them, of the directories
above the one the walk starts in.
-/

namespace ClassViewer.Disk

/-- The path of the entry at the names below a directory. -/
def pathBelow (root : Path) (names : Route) : Path :=
  names.foldl (fun p name => p.join ⟨name⟩) root

/-- The routes of the directories above a place, nearest first. -/
def routesAbove (r : Route) : List Route := ((List.range r.length).map r.take).reverse

/-- The rules a walk goes by. -/
structure Library where
  /-- The path the walk starts from. -/
  root : Path
  /-- The place it leads to. -/
  place : Route
  /-- The books of the directories walked, by their names below the root. -/
  inside : List (Route × Ignore.Book)
  /-- The books of the directories above, nearest first. -/
  above : List Ignore.Book

/-- The rules for a walk from a path that leads to a directory. -/
def library (d : Disk) (root : Path) (place : Route) : Library :=
  let directories := [] :: d.items.filterMap fun e =>
    if place.isPrefixOf e.1 && place.length < e.1.length && e.2 == .directory then
      some (e.1.drop place.length)
    else none
  { root := root
    place := place
    inside := directories.filterMap fun names =>
      match (d.ignoreFile (place ++ names)).rules with
      | [] => none
      | rules => some (names, ⟨pathBelow root names, rules⟩)
    above := (routesAbove place).map fun r => ⟨r.toPath, (d.ignoreFile r).rules⟩ }

namespace Library

/-- The path of an entry as the directories above the root see it. -/
def pathFromAbove (l : Library) (p : Path) : Path :=
  let text := Ignore.dropDot p.text
  l.place.toPath.join
    ⟨if l.root.same ⟨"."⟩ then text else Ignore.below (Ignore.dropDot l.root.text) text⟩

/-- Whether the rules ignore the entry at the names below the root. -/
def ignores (l : Library) (names : Route) (isDirectory : Bool) : Bool :=
  let p := pathBelow l.root names
  let entry : Path := ⟨Ignore.dropDot p.text⟩
  let nearby := (routesAbove names).findSome? fun r =>
    (l.inside.lookup r).bind fun book => book.verdict entry isDirectory
  let verdict := nearby.or
    (l.above.findSome? fun book => book.verdict (l.pathFromAbove p) isDirectory)
  verdict.getD false

end Library

/-- Whether a walk by the rules reaches the entry at the names below its root: no entry on the way,
the last one included, is ignored. -/
def reaches (d : Disk) (l : Library) (names : Route) : Bool :=
  (List.range names.length).all fun i =>
    let way := names.take (i + 1)
    !l.ignores way (d.item? (l.place ++ way) == some .directory)

/-- The names below its root of every entry a walk by the rules lists. -/
def reached (d : Disk) (l : Library) : List Route :=
  let below := d.items.filterMap fun e =>
    if l.place.isPrefixOf e.1 && l.place.length < e.1.length then some (e.1.drop l.place.length)
    else none
  below.filter (d.reaches l)

/-- The paths a walk lists; a walk from a file lists that file, and `-` names no file. -/
def walk (d : Disk) (here : Route) (root : Path) : Except IoError (List Path) :=
  if root.same ⟨"-"⟩ then .ok []
  else match d.lookup here true root with
    | .error e => .error e
    | .ok (r, .directory) => .ok (root :: (d.reached (d.library root r)).map (pathBelow root))
    | .ok _ => .ok [root]

/-- What is wrong with the ignore files above the directory a walk starts in, outermost first. -/
def walkProblems (d : Disk) (here : Route) (root : Path) : List String :=
  match d.lookup here true root with
  | .ok (r, .directory) =>
    (routesAbove r).reverse.flatMap fun above =>
      (d.ignoreFile above).report (above.toPath.join ⟨Ignore.fileName⟩)
  | _ => []

/-- The files a walk lists whose names have an extension, in path order. -/
def filesOfKind (d : Disk) (here : Route) (extension : String) (root : Path) :
    Except IoError (List Path) :=
  (d.walk here root).map fun paths =>
    Path.sort (paths.filter fun p => d.isFile here p && p.extension? == some extension)

end ClassViewer.Disk
