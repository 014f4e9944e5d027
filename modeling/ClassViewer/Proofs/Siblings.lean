import ClassViewer.Proofs.Directory
import ClassViewer.Proofs.Disk.Direct
import ClassViewer.Proofs.Naming

/-!
# Loose class files and their siblings

A loose class file is named after its path, looked up by the simple name of its class, and listed in
the package of the class that is decompiled. `LooseClass` is a path to a class file in a directory
of files that can be read (`Snapshot`). There the three agree (`SiblingsAgree`) : the name leads
back to the file, and the classes that are listed are those of the directory, each with the bytes
of its file. Whatever name is asked for, its file is looked up in the directory and nowhere else
(`LookupStays`). `siblings_agree_with_files` puts this together.
-/

namespace ClassViewer

open Disk (steps)

/-! ## Simple names -/

namespace ClassId

/-- A name is its own identifier if its last segment is normal. -/
theorem text_ofName_of_last {name s : String} (hb : '\\' ∉ name.toList)
    (hh : name.toList.head? ≠ some '/') (hlast : Text.afterLast '/' name = s) (hs : IsNormal s) :
    (ofName name).text = name := by
  have hslash : '/' ∉ classSuffix.toList := by decide
  have hend := Text.endsWith_afterLast hslash name
  refine (ofName_text_eq_self_iff hh).2 ⟨hb, ?_⟩
  rw [← hend, hlast]
  exact hs.2

theorem afterLast_inPackage {stem : String} (h : '/' ∉ stem.toList) (package : Option String) :
    Text.afterLast '/' (inPackage package stem) = stem := by
  cases package with
  | none => exact Text.afterLast_eq_self h
  | some p => exact Text.afterLast_append_sep p h

/-- A normal name in the package of an identifier is its own identifier. -/
theorem text_ofName_inPackage {id : ClassId} {stem : String} (hb : '\\' ∉ id.text.toList)
    (hh : id.text.toList.head? ≠ some '/') (hslash : '/' ∉ stem.toList) (hstem : IsNormal stem) :
    (ofName (inPackage id.package? stem)).text = inPackage id.package? stem := by
  refine text_ofName_of_last ?_ ?_ (afterLast_inPackage hslash id.package?) hstem
  · have htext := text_eq_inPackage id
    cases hp : id.package? with
    | none => exact hstem.1
    | some p =>
      simp only [hp, inPackage, String.toList_append, List.mem_append, not_or] at htext ⊢
      rw [htext] at hb
      simp only [String.toList_append, List.mem_append, not_or] at hb
      exact ⟨hb.1, hstem.1⟩
  · have htext := text_eq_inPackage id
    cases hp : id.package? with
    | none => exact fun hc => hslash (List.mem_of_head? hc)
    | some p =>
      -- the package begins as the identifier does, and is not empty
      simp only [hp, inPackage, String.toList_append, List.head?_append] at htext ⊢
      rw [htext] at hh
      simp only [String.toList_append, List.head?_append] at hh
      cases hc : p.toList.head? with
      | none =>
        rw [hc] at hh
        exact absurd rfl hh
      | some c =>
        rw [hc] at hh
        simpa only [Option.some_or] using hh

end ClassId

namespace Location

/-- The last segment of a path is the last one of its segments that is not empty. -/
theorem afterLast_join_steps {t s : String} (hlast : Text.afterLast '/' t = s) (hne : s ≠ "") :
    Text.afterLast '/' (Text.join "/" (steps t)) = s := by
  have hsplit := Text.dropLast_concat_afterLast '/' t
  rw [hlast] at hsplit
  have hsteps : steps t = (Text.split '/' t).dropLast.filter (· != "") ++ [s] := by
    rw [steps, ← hsplit, List.filter_append, List.dropLast_concat]
    simp [hne]
  have hback : Text.split '/' (Text.join "/" (steps t)) = steps t := by
    refine Text.split_join (by simp [hsteps]) fun p hp => ?_
    exact Text.not_mem_of_mem_split (List.mem_filter.1 hp).1
  rw [Text.afterLast, hback, hsteps, List.getLast?_concat]
  rfl

/-- By either rule, a class is named after the last segment of its path. -/
theorem simpleName_nameOfPath {path s : String} (hb : '\\' ∉ path.toList)
    (hlast : Text.afterLast '/' path = s) (hne : s ≠ "") (hs : ClassId.IsNormal s) :
    (nameOfPath path).simpleName = s := by
  have hnamed := isNamedBy_nameOfPath path
  by_cases hmarked : ∃ post, FollowsMarker path post
  · obtain ⟨post, hpost⟩ := hmarked
    have hbehind : ∃ front, path = front ++ "/" ++ post := by
      obtain ⟨m, -, hcut | ⟨pre, hcut, -⟩⟩ := hpost.cut
      · exact ⟨m, hcut⟩
      · exact ⟨pre ++ "/" ++ m, hcut⟩
    obtain ⟨front, rfl⟩ := hbehind
    have hpostlast : Text.afterLast '/' post = s :=
      (Text.afterLast_slash front post).symm.trans hlast
    have hjoined := afterLast_join_steps hpostlast hne
    have hclean : '\\' ∉ (Text.join "/" (steps post)).toList := by
      refine Text.not_mem_join (by decide) fun p hp hc => hb ?_
      have hmem := Text.mem_of_mem_split (List.mem_filter.1 hp).1 hc
      simp [hmem]
    rw [hnamed.marked post hpost, ClassId.simpleName,
      ClassId.text_ofName_of_last hclean (head?_join_steps post) hjoined hs]
    exact hjoined
  · have hslash : '/' ∉ s.toList := hlast ▸ Text.not_mem_afterLast '/' path
    have hhead : s.toList.head? ≠ some '/' := fun hc => hslash (List.mem_of_head? hc)
    rw [hnamed.bare (not_exists.1 hmarked), hlast, ClassId.simpleName,
      (ClassId.ofName_text_eq_self_iff hhead).2 hs]
    exact Text.afterLast_eq_self hslash

end Location

namespace Scope

/-! ## Files of a directory -/

/-- The names in a directory with the bytes of the files there. -/
structure Snapshot (h : Host) (directory : Path) (files : List (String × ByteArray)) : Prop where
  listed : h.list directory = .ok (files.map Prod.fst)
  distinct : (files.map Prod.fst).Nodup
  noSlash : ∀ f ∈ files, '/' ∉ f.1.toList
  isFile : ∀ f ∈ files, h.isFile (directory.join ⟨f.1⟩) = true
  read : ∀ f ∈ files, h.read (directory.join ⟨f.1⟩) = .ok f.2

/-- There is a class file of that stem. -/
def HasStem (files : List (String × ByteArray)) (stem : String) : Prop :=
  stem ++ classSuffix ∈ files.map Prod.fst

/-- The path leads to the class file of that stem in its directory, where the stems of the class
files are normal. -/
structure LooseClass (h : Host) (path s : String) (files : List (String × ByteArray)) : Prop where
  isFile : h.isFile ⟨path⟩ = true
  noBackslash : '\\' ∉ path.toList
  last : Text.afterLast '/' path = s ++ classSuffix
  ne_empty : s ≠ ""
  snapshot : Snapshot h (directoryOf ⟨path⟩) files
  hasStem : HasStem files s
  normal : ∀ stem, HasStem files stem → ClassId.IsNormal stem

variable {h : Host} {files : List (String × ByteArray)} {directory : Path}

namespace Snapshot

theorem noSlash_stem (hfiles : Snapshot h directory files) {stem : String}
    (hstem : HasStem files stem) : '/' ∉ stem.toList := by
  obtain ⟨f, hf, hname⟩ := List.mem_map.1 hstem
  intro hc
  refine hfiles.noSlash f hf ?_
  rw [hname, String.toList_append]
  exact List.mem_append_left _ hc

/-- The file of a stem can be read. -/
theorem exists_bytes (hfiles : Snapshot h directory files) {stem : String}
    (hstem : HasStem files stem) : ∃ bytes, (stem ++ classSuffix, bytes) ∈ files ∧
      h.isFile (directory.join ⟨stem ++ classSuffix⟩) = true ∧
      h.read (directory.join ⟨stem ++ classSuffix⟩) = .ok bytes := by
  obtain ⟨f, hf, hname⟩ := List.mem_map.1 hstem
  rw [← hname]
  exact ⟨f.2, hf, hfiles.isFile f hf, hfiles.read f hf⟩

end Snapshot

/-- What is a file can be read. -/
theorem exists_of_isFile {p : Path} (hp : h.isFile p = true) :
    ∃ r bytes runners, h.disk.lookup h.here true p = .ok (r, .file bytes runners) ∧
      h.read p = .ok bytes := by
  unfold Host.isFile Disk.isFile at hp
  split at hp
  · rename_i r bytes runners hx
    exact ⟨r, bytes, runners, hx, by rw [Host.read, Disk.read, hx]⟩
  · cases hp

theorem isFile_congr {h' : Host} {p q : Path}
    (hpq : h.disk.lookup h.here true p = h'.disk.lookup h'.here true q) :
    h.isFile p = h'.isFile q := by
  rw [Host.isFile, Host.isFile, Disk.isFile, Disk.isFile, hpq]

theorem read_congr {h' : Host} {p q : Path}
    (hpq : h.disk.lookup h.here true p = h'.disk.lookup h'.here true q) : h.read p = h'.read q := by
  rw [Host.read, Host.read, Disk.read, Disk.read, hpq]

/-! ## Listed classes -/

theorem siblingNames_eq (primary : ClassId) (names : List String) :
    siblingNames primary names = names.filterMap fun file =>
      (Text.dropTail? classSuffix file).map fun stem =>
        ClassId.ofName (ClassId.inPackage primary.package? stem) := by
  unfold siblingNames ClassId.inPackage
  cases primary.package? <;> rfl

theorem mem_siblingNames_iff {primary n : ClassId} {names : List String} :
    n ∈ siblingNames primary names ↔ ∃ stem, stem ++ classSuffix ∈ names ∧
      ClassId.ofName (ClassId.inPackage primary.package? stem) = n := by
  rw [siblingNames_eq, List.mem_filterMap]
  constructor
  · rintro ⟨file, hfile, hn⟩
    obtain ⟨stem, hstem, rfl⟩ := Option.map_eq_some_iff.1 hn
    exact ⟨stem, Text.dropTail?_eq_some_iff.1 hstem ▸ hfile, rfl⟩
  · rintro ⟨stem, hmem, rfl⟩
    exact ⟨_, hmem, by rw [Text.dropTail?_append]; rfl⟩

/-! ## Agreement -/

/-- The name of a class, the files of its directory and the classes its scope lists agree. -/
structure SiblingsAgree (h : Host) (path s : String) (files : List (String × ByteArray))
    (id : ClassId) : Prop where
  simpleName : id.simpleName = s
  siblingPath_eq : siblingPath (directoryOf ⟨path⟩) id.text =
    (directoryOf ⟨path⟩).join ⟨s ++ classSuffix⟩
  /-- The class leads back to its own file. -/
  lookup_eq : h.disk.lookup h.here true (siblingPath (directoryOf ⟨path⟩) id.text) =
    h.disk.lookup h.here true ⟨path⟩
  /-- The class is found with the bytes of its file and with this scope. -/
  subject : ∃ bytes, (s ++ classSuffix, bytes) ∈ files ∧ (Location.file ⟨path⟩).subject h =
    .ok ⟨id, bytes, siblings (directoryOf ⟨path⟩) ⟨id, bytes⟩⟩
  load_primary : ∀ bytes,
    (siblings (directoryOf ⟨path⟩) ⟨id, bytes⟩).load h id.text = .ok ⟨id, bytes⟩
  sorted : ∀ bytes, ((siblings (directoryOf ⟨path⟩) ⟨id, bytes⟩).classNames h).Pairwise
    fun a b => a.text ≤ b.text
  nodup : ∀ bytes, ((siblings (directoryOf ⟨path⟩) ⟨id, bytes⟩).classNames h).Nodup
  mem_primary : ∀ bytes, id ∈ (siblings (directoryOf ⟨path⟩) ⟨id, bytes⟩).classNames h
  /-- The classes are those of the class files, in the package of this one. -/
  mem_classNames_iff : ∀ bytes n,
    n ∈ (siblings (directoryOf ⟨path⟩) ⟨id, bytes⟩).classNames h ↔
      ∃ stem, HasStem files stem ∧ n.text = ClassId.inPackage id.package? stem
  /-- Any other class has the bytes of its file. -/
  load_listed : ∀ bytes, ∀ n ∈ (siblings (directoryOf ⟨path⟩) ⟨id, bytes⟩).classNames h, n ≠ id →
    ∃ content, (n.simpleName ++ classSuffix, content) ∈ files ∧
      (siblings (directoryOf ⟨path⟩) ⟨id, bytes⟩).load h n.text = .ok ⟨n, content⟩

/-- The file a name is looked up in lies in the directory, and says all there is to the answers. -/
structure LookupStays (directory : Path) (name : String) : Prop where
  components : (siblingPath directory name).components =
    directory.components ++ [.name (ClassViewer.simpleName name ++ classSuffix)]
  route : ∀ {h : Host} {parent r i},
    h.disk.lookup h.here true directory = .ok (parent, .directory) →
    h.disk.locate h.here .entry (siblingPath directory name) = .ok (.found r i) →
    r = parent ++ [ClassViewer.simpleName name ++ classSuffix]
  /-- Machines that have the same there give the same answers. -/
  answers : ∀ {h h' : Host} (primary : Blob),
    h.disk.lookup h.here true (siblingPath directory name) =
      h'.disk.lookup h'.here true (siblingPath directory name) →
    (siblings directory primary).canLoad h name = (siblings directory primary).canLoad h' name ∧
      (siblings directory primary).load h name = (siblings directory primary).load h' name
  /-- What the scope has, it loads. -/
  canLoad_iff : ∀ (h : Host) (primary : Blob), (siblings directory primary).canLoad h name = true ↔
    ∃ blob, (siblings directory primary).load h name = .ok blob

theorem lookupStays (directory : Path) (name : String) : LookupStays directory name where
  components := Path.components_join_name
    (Path.isEntryName_append_classSuffix (Text.not_mem_afterLast '/' name)) directory
  route hdir hfound := Path.route_of_join_name
    (Path.isEntryName_append_classSuffix (Text.not_mem_afterLast '/' name)) hdir hfound
  answers primary hsame := by
    simp only [siblings, isFile_congr hsame, read_congr hsame, and_self]
  canLoad_iff h primary := by
    by_cases hname : name = primary.id.text
    · simp [siblings, hname]
    · cases hfile : h.isFile (siblingPath directory name) with
      | false => simp [siblings, hname, hfile]
      | true =>
        obtain ⟨-, bytes, -, -, hread⟩ := exists_of_isFile hfile
        simp [siblings, hname, hfile, hread]

namespace LooseClass

variable {path s : String} (hclass : LooseClass h path s files)

include hclass

theorem noSlash_stem : '/' ∉ s.toList := hclass.snapshot.noSlash_stem hclass.hasStem

theorem simpleName_className : (Location.className (.file ⟨path⟩)).simpleName = s := by
  have hstem : Location.stem path = Text.dropTail classSuffix path := by
    rw [Location.stem, (Text.replaceChar_eq_self_iff (by decide)).2 hclass.noBackslash]
  rw [Location.className_file, hstem]
  refine Location.simpleName_nameOfPath
    (fun hc => hclass.noBackslash (Text.mem_of_mem_dropTail hc)) ?_ hclass.ne_empty
    (hclass.normal s hclass.hasStem)
  obtain ⟨front, hfront⟩ := Text.exists_append_afterLast '/' path
  have hlast := Text.afterLast_append '/' (front ++ s) classSuffix
  rw [hclass.last, ← String.append_assoc] at hfront
  rw [if_neg (by decide), ← hfront, hclass.last] at hlast
  have hs : Text.afterLast '/' (front ++ s) = s := by
    rw [← Text.dropTail_append classSuffix (Text.afterLast '/' (front ++ s)), ← hlast,
      Text.dropTail_append]
  rw [hfront, Text.dropTail_append]
  exact hs

theorem text_sibling {stem : String} (hstem : HasStem files stem) :
    (ClassId.ofName (ClassId.inPackage (Location.className (.file ⟨path⟩)).package? stem)).text =
      ClassId.inPackage (Location.className (.file ⟨path⟩)).package? stem := by
  obtain ⟨name, hname⟩ := Location.exists_className path
  rw [hname]
  exact ClassId.text_ofName_inPackage (ClassId.not_mem_ofName name) (ClassId.head?_ofName name)
    (hclass.snapshot.noSlash_stem hstem) (hclass.normal stem hstem)

/-- The class is the one its own file is listed for. -/
theorem className_eq_sibling :
    ClassId.ofName (ClassId.inPackage (Location.className (.file ⟨path⟩)).package? s) =
      Location.className (.file ⟨path⟩) := by
  have htext := ClassId.text_eq_inPackage (Location.className (.file ⟨path⟩))
  rw [hclass.simpleName_className] at htext
  exact ClassId.ext ((hclass.text_sibling hclass.hasStem).trans htext.symm)

theorem siblingPath_listed {stem : String} (hstem : HasStem files stem) :
    siblingPath (directoryOf ⟨path⟩)
        (ClassId.inPackage (Location.className (.file ⟨path⟩)).package? stem) =
      (directoryOf ⟨path⟩).join ⟨stem ++ classSuffix⟩ := by
  rw [siblingPath, ClassViewer.simpleName,
    ClassId.afterLast_inPackage (hclass.snapshot.noSlash_stem hstem)]

theorem classNames_eq (bytes : ByteArray) :
    (siblings (directoryOf ⟨path⟩) ⟨Location.className (.file ⟨path⟩), bytes⟩).classNames h =
      ClassId.sort (siblingNames (Location.className (.file ⟨path⟩)) (files.map Prod.fst)) := by
  have hmem := mem_siblingNames_iff.2 ⟨s, hclass.hasStem, hclass.className_eq_sibling⟩
  simp only [siblings, hclass.snapshot.listed, if_pos hmem]

theorem nodup_siblingNames :
    (siblingNames (Location.className (.file ⟨path⟩)) (files.map Prod.fst)).Nodup := by
  rw [siblingNames_eq, List.Nodup, List.pairwise_filterMap]
  refine hclass.snapshot.distinct.imp_of_mem ?_
  intro file file' hfile hfile' hne n hn n' hn' heq
  obtain ⟨stem, hstem, rfl⟩ := Option.map_eq_some_iff.1 hn
  obtain ⟨stem', hstem', rfl⟩ := Option.map_eq_some_iff.1 hn'
  obtain rfl := Text.dropTail?_eq_some_iff.1 hstem
  obtain rfl := Text.dropTail?_eq_some_iff.1 hstem'
  have htext := congrArg ClassId.text heq
  rw [hclass.text_sibling hfile, hclass.text_sibling hfile'] at htext
  have hsame := congrArg (Text.afterLast '/') htext
  rw [ClassId.afterLast_inPackage (hclass.snapshot.noSlash_stem hfile),
    ClassId.afterLast_inPackage (hclass.snapshot.noSlash_stem hfile')] at hsame
  exact hne (by rw [hsame])

/-- The name that a class file is listed under is looked up in that file. -/
theorem load_sibling {stem : String} (hstem : HasStem files stem) (bytes : ByteArray)
    (hne : ClassId.ofName (ClassId.inPackage (Location.className (.file ⟨path⟩)).package? stem) ≠
      Location.className (.file ⟨path⟩)) :
    ∃ content, (stem ++ classSuffix, content) ∈ files ∧
      (siblings (directoryOf ⟨path⟩) ⟨Location.className (.file ⟨path⟩), bytes⟩).load h
          (ClassId.inPackage (Location.className (.file ⟨path⟩)).package? stem) =
        .ok ⟨ClassId.ofName
          (ClassId.inPackage (Location.className (.file ⟨path⟩)).package? stem), content⟩ := by
  obtain ⟨content, hmem, hfile, hread⟩ := hclass.snapshot.exists_bytes hstem
  have hname : ClassId.inPackage (Location.className (.file ⟨path⟩)).package? stem ≠
      (Location.className (.file ⟨path⟩)).text := by
    rw [← hclass.text_sibling hstem]
    exact fun hc => hne (ClassId.ext hc)
  refine ⟨content, hmem, ?_⟩
  simp [siblings, hname, hclass.siblingPath_listed hstem, hfile, hread]

theorem siblingPath_className : siblingPath (directoryOf ⟨path⟩)
    (Location.className (.file ⟨path⟩)).text = (directoryOf ⟨path⟩).join ⟨s ++ classSuffix⟩ := by
  have htext := ClassId.text_eq_inPackage (Location.className (.file ⟨path⟩))
  rw [hclass.simpleName_className] at htext
  rw [htext]
  exact hclass.siblingPath_listed hclass.hasStem

/-- The path and the last segment of it in its directory lead to the same file. -/
theorem lookup_siblingPath : h.disk.lookup h.here true
      (siblingPath (directoryOf ⟨path⟩) (Location.className (.file ⟨path⟩)).text) =
    h.disk.lookup h.here true ⟨path⟩ := by
  obtain ⟨content, -, hfile, -⟩ := hclass.snapshot.exists_bytes hclass.hasStem
  obtain ⟨r, bytes, runners, hpath, -⟩ := exists_of_isFile hclass.isFile
  obtain ⟨r', bytes', runners', hsibling, -⟩ := exists_of_isFile hfile
  rw [hclass.siblingPath_className, hpath, hsibling, Path.lookup_in_directoryOf
    (Path.isEntryName_append_classSuffix hclass.noSlash_stem) hclass.last hpath hsibling]

theorem agree : SiblingsAgree h path s files (Location.className (.file ⟨path⟩)) where
  simpleName := hclass.simpleName_className
  siblingPath_eq := hclass.siblingPath_className
  lookup_eq := hclass.lookup_siblingPath
  subject := by
    obtain ⟨content, hmem, -, hread⟩ := hclass.snapshot.exists_bytes hclass.hasStem
    have hsame := read_congr hclass.lookup_siblingPath
    rw [hclass.siblingPath_className, hread] at hsame
    refine ⟨content, hmem, ?_⟩
    simp [Location.subject, hclass.isFile, ← hsame]
  load_primary bytes := by simp [siblings]
  sorted bytes := by
    rw [hclass.classNames_eq]
    exact ClassId.pairwise_sort _
  nodup bytes := by
    rw [hclass.classNames_eq, (ClassId.perm_sort _).nodup_iff]
    exact hclass.nodup_siblingNames
  mem_primary bytes := by
    rw [hclass.classNames_eq, (ClassId.perm_sort _).mem_iff, mem_siblingNames_iff]
    exact ⟨s, hclass.hasStem, hclass.className_eq_sibling⟩
  mem_classNames_iff bytes n := by
    rw [hclass.classNames_eq, (ClassId.perm_sort _).mem_iff, mem_siblingNames_iff]
    refine exists_congr fun stem => and_congr_right fun hstem => ?_
    constructor
    · rintro rfl
      exact hclass.text_sibling hstem
    · intro hn
      exact ClassId.ext ((hclass.text_sibling hstem).trans hn.symm)
  load_listed bytes n hn hne := by
    rw [hclass.classNames_eq, (ClassId.perm_sort _).mem_iff, mem_siblingNames_iff] at hn
    obtain ⟨stem, hstem, rfl⟩ := hn
    obtain ⟨content, hmem, hload⟩ := hclass.load_sibling hstem bytes hne
    refine ⟨content, ?_, ?_⟩
    · rwa [ClassId.simpleName, hclass.text_sibling hstem, ClassViewer.simpleName,
        ClassId.afterLast_inPackage (hclass.snapshot.noSlash_stem hstem)]
    · rwa [hclass.text_sibling hstem]

end LooseClass

/-- A loose class file that can be read with the files around it is named after its last segment in
any case, its name leads back to it, and its scope lists the class files of the directory in its
package, each with the bytes of its file. Any name at all is looked up in a file of the directory,
and can be loaded if the scope says so. -/
theorem siblings_agree_with_files :
    (∀ {h : Host} {path s : String} {files : List (String × ByteArray)},
        LooseClass h path s files →
          SiblingsAgree h path s files (Location.className (.file ⟨path⟩))) ∧
      ∀ directory name, LookupStays directory name :=
  ⟨fun hclass => hclass.agree, lookupStays⟩

/-- A machine with two class files in a package below a build-output directory. -/
def builtHost : Host :=
  { (default : Host) with
    disk := ⟨[(["build"], .directory), (["build", "a"], .directory),
      (["build", "a", "B.class"], .file "b".toUTF8 .nobody),
      (["build", "a", "C.class"], .file "c".toUTF8 .nobody)], []⟩ }

/-- Both classes of a package agree with their files. -/
theorem built_siblings_agree :
    LooseClass builtHost "/build/a/B.class" "B" [("B.class", "b".toUTF8), ("C.class", "c".toUTF8)] ∧
      Location.className (.file ⟨"/build/a/B.class"⟩) = ⟨"a/B"⟩ ∧
      SiblingsAgree builtHost "/build/a/B.class" "B"
        [("B.class", "b".toUTF8), ("C.class", "c".toUTF8)]
        (Location.className (.file ⟨"/build/a/B.class"⟩)) ∧
      LookupStays (directoryOf ⟨"/build/a/B.class"⟩) "../C" := by
  have hparent : Path.parent? ⟨"/build/a/B.class"⟩ = some ⟨"/build/a"⟩ := by decide
  have hdir : directoryOf ⟨"/build/a/B.class"⟩ = ⟨"/build/a"⟩ := by simp [directoryOf, hparent]
  have hjoin : Path.join ⟨"/build/a"⟩ ⟨"B.class"⟩ = ⟨"/build/a/B.class"⟩ ∧
      Path.join ⟨"/build/a"⟩ ⟨"C.class"⟩ = ⟨"/build/a/C.class"⟩ := by decide +kernel
  have hpackage : builtHost.disk.lookup builtHost.here true ⟨"/build/a"⟩ =
      .ok (["build", "a"], .directory) := Disk.lookup_of_leadsDirectly (by decide +kernel)
  have hB : builtHost.disk.lookup builtHost.here true ⟨"/build/a/B.class"⟩ =
      .ok (["build", "a", "B.class"], .file "b".toUTF8 .nobody) :=
    Disk.lookup_of_leadsDirectly (by decide +kernel)
  have hC : builtHost.disk.lookup builtHost.here true ⟨"/build/a/C.class"⟩ =
      .ok (["build", "a", "C.class"], .file "c".toUTF8 .nobody) :=
    Disk.lookup_of_leadsDirectly (by decide +kernel)
  have hsnapshot : Snapshot builtHost (directoryOf ⟨"/build/a/B.class"⟩)
      [("B.class", "b".toUTF8), ("C.class", "c".toUTF8)] := by
    rw [hdir]
    refine ⟨?_, by decide, by decide, ?_, ?_⟩
    · rw [Host.list, Disk.list, hpackage]
      rfl
    · simp [hjoin, Host.isFile, Disk.isFile, hB, hC]
    · simp [hjoin, Host.read, Disk.read, hB, hC]
  have hnames : Text.dropTail classSuffix "B.class" = "B" ∧
      Text.dropTail classSuffix "C.class" = "C" := by decide +kernel
  have hstems : ∀ stem, HasStem [("B.class", "b".toUTF8), ("C.class", "c".toUTF8)] stem →
      stem = "B" ∨ stem = "C" := by
    intro stem hstem
    have hback := Text.dropTail_append classSuffix stem
    simp only [HasStem, List.map_cons, List.map_nil, List.mem_cons, List.not_mem_nil,
      or_false] at hstem
    rcases hstem with hname | hname
    · rw [hname, hnames.1] at hback
      exact .inl hback.symm
    · rw [hname, hnames.2] at hback
      exact .inr hback.symm
  have hclass : LooseClass builtHost "/build/a/B.class" "B"
      [("B.class", "b".toUTF8), ("C.class", "c".toUTF8)] :=
    { isFile := by rw [Host.isFile, Disk.isFile, hB]
      noBackslash := by decide
      last := by decide +kernel
      ne_empty := by decide
      snapshot := hsnapshot
      hasStem := by simp [HasStem, classSuffix]
      normal := by
        intro stem hstem
        rcases hstems stem hstem with rfl | rfl
        · exact ⟨by decide, by decide +kernel⟩
        · exact ⟨by decide, by decide +kernel⟩ }
  obtain ⟨hagree, hstays⟩ := siblings_agree_with_files
  exact ⟨hclass, by decide +kernel, hagree hclass, hstays _ _⟩

end Scope

end ClassViewer
