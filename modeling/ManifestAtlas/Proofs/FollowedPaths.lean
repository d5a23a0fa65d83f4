import ManifestAtlas.Files.FileTree
import ManifestAtlas.Proofs.JoinedPaths

/-!
# Where a path leads in a tree without links

Without links, the place that a path leads to is a matter of its text alone:
`lexicalPlace` goes down at a name and up at two dots.  What is there is a
matter of the tree.  `Leads` has one constructor for each way to get on or to
come to an end, and `follow_eq_ok_iff` says that following segments succeeds
exactly along these.

There are four groups.

* Following (`Leads.place_eq`, `Leads.has`).
* Trees that keep what another one has, up to the contents of files
  (`KindsKept`).  A path that leads to something in the one leads to the same
  place in the other (`Leads.mono`).
* Changes.  Once something is put at the place that a path leads to, the path
  leads to it (`Leads.present_file`, `Leads.present_directory`).
* Joined paths.  A relative path goes on where the path before it leads to
  (`Disk.placeOf_join`).
-/

namespace ManifestAtlas

/-- Two entries are of one kind; the contents of files may differ. -/
def FileEntry.SameKind : FileEntry → FileEntry → Prop
  | .file _, .file _ => True
  | .directory, .directory => True
  | .link target, .link other => target = other
  | _, _ => False

namespace FileEntry.SameKind

variable {a b c : FileEntry}

theorem refl (a : FileEntry) : a.SameKind a := by
  cases a <;> trivial

theorem eq_directory (h : FileEntry.directory.SameKind b) : b = .directory := by
  cases b with
  | directory => rfl
  | file | link => cases h

theorem exists_file {content : ByteArray} (h : (FileEntry.file content).SameKind b) :
    ∃ content', b = .file content' := by
  cases b with
  | file content' => exact ⟨content', rfl⟩
  | directory | link => cases h

theorem eq_link {target : Path} (h : (FileEntry.link target).SameKind b) : b = .link target := by
  cases b with
  | link => exact congrArg FileEntry.link h.symm
  | file | directory => cases h

theorem trans (h : a.SameKind b) (h' : b.SameKind c) : a.SameKind c := by
  cases a with
  | file =>
    obtain ⟨_, rfl⟩ := h.exists_file
    obtain ⟨_, rfl⟩ := h'.exists_file
    trivial
  | directory =>
    obtain rfl := h.eq_directory
    exact h'
  | link =>
    obtain rfl := h.eq_link
    exact h'

end FileEntry.SameKind

namespace FileTree

/-- No place of a tree is a link. -/
def IsLinkFree (tree : FileTree) : Prop :=
  ∀ place target, tree.find? place ≠ some (.link target)

/-- The place that segments lead to from another place, when no link is on the way. -/
def lexicalPlace : Place → List String → Place
  | place, [] => place
  | place, name :: rest =>
    if isIdle name then lexicalPlace place rest
    else if name = ".." then lexicalPlace place.dropLast rest
    else lexicalPlace (place ++ [name]) rest

/-- The place of a target. -/
def Target.place : Target → Place
  | .present place _ => place
  | .free place => place

/-- A name that an entry may have. -/
structure IsEntryName (name : String) : Prop where
  notIdle : isIdle name = false
  ne_up : name ≠ ".."
  bounded : name.utf8ByteSize ≤ maxNameBytes

/-- Whether a path that is followed for a purpose may go on behind a name. -/
def Purpose.goesOn (purpose : Purpose) (rest : List String) : Prop :=
  purpose = .write → isLast rest = true → rest = []

/-- Segments lead from a place to a target: the ways to follow them that do not fail. -/
inductive Leads (tree : FileTree) (purpose : Purpose) : Place → List String → Target → Prop where
  | here {place : Place} : Leads tree purpose place [] (.present place .directory)
  | idle {place : Place} {name : String} {rest : List String} {target : Target}
      (hname : isIdle name = true) (h : Leads tree purpose place rest target) :
      Leads tree purpose place (name :: rest) target
  | up {place : Place} {rest : List String} {target : Target}
      (h : Leads tree purpose place.dropLast rest target) :
      Leads tree purpose place (".." :: rest) target
  | free {place : Place} {name : String} {rest : List String} (hname : IsEntryName name)
      (hon : purpose.goesOn rest) (hrest : isLast rest = true)
      (hfind : tree.find? (place ++ [name]) = none) :
      Leads tree purpose place (name :: rest) (.free (place ++ [name]))
  | file {place : Place} {name : String} {rest : List String} {content : ByteArray}
      (hname : IsEntryName name) (hon : purpose.goesOn rest)
      (hrest : purpose.endsAtFile rest = true)
      (hfind : tree.find? (place ++ [name]) = some (.file content)) :
      Leads tree purpose place (name :: rest) (.present (place ++ [name]) (.file content))
  | directory {place : Place} {name : String} {rest : List String} {target : Target}
      (hname : IsEntryName name) (hon : purpose.goesOn rest)
      (hfind : tree.find? (place ++ [name]) = some .directory)
      (h : Leads tree purpose (place ++ [name]) rest target) :
      Leads tree purpose place (name :: rest) target

/-! ## Following -/

section

variable {tree : FileTree} {purpose : Purpose} {place : Place} {segments : List String}
  {target : Target}

theorem goesOn_iff {rest : List String} :
    purpose.goesOn rest ↔ ¬(purpose = .write && !rest.isEmpty && isLast rest) = true := by
  cases rest <;> simp [Purpose.goesOn]

theorem leads_of_follow (htree : tree.IsLinkFree) {links : Nat}
    (h : tree.follow purpose links place segments = .ok target) :
    tree.Leads purpose place segments target := by
  fun_induction follow tree purpose links place segments with
  | case1 => cases h; exact .here
  | case2 _ _ _ _ hname ih => exact .idle hname (ih h)
  | case3 _ _ _ _ ih => exact .up (ih h)
  | case6 _ _ _ _ hidle hup hon hsize hfind hrest =>
    cases h
    exact .free ⟨by simpa using hidle, hup, by omega⟩ (goesOn_iff.2 hon) hrest hfind
  | case8 _ _ _ _ hidle hup hon hsize _ hfind hrest =>
    cases h
    exact .file ⟨by simpa using hidle, hup, by omega⟩ (goesOn_iff.2 hon) hrest hfind
  | case10 _ _ _ _ hidle hup hon hsize hfind ih =>
    exact .directory ⟨by simpa using hidle, hup, by omega⟩ (goesOn_iff.2 hon) hfind (ih h)
  | case11 _ _ _ _ _ _ _ _ hfind => exact absurd hfind (htree _ _)
  | case12 _ _ _ _ _ _ _ _ hfind => exact absurd hfind (htree _ _)
  | case13 _ _ _ _ _ _ _ _ _ hfind => exact absurd hfind (htree _ _)
  | case4 | case5 | case7 | case9 => cases h

theorem isIdle_up : isIdle ".." = false := by decide

theorem Leads.follow (h : tree.Leads purpose place segments target) (links : Nat) :
    tree.follow purpose links place segments = .ok target := by
  induction h with
  | here => rw [FileTree.follow]
  | idle hname _ ih => rw [FileTree.follow, if_pos hname, ih]
  | up _ ih => rw [FileTree.follow, if_neg (by simp [isIdle_up]), if_pos rfl, ih]
  | free hname hon hrest hfind =>
    rw [FileTree.follow, if_neg (by simp [hname.notIdle]), if_neg hname.ne_up,
      if_neg (goesOn_iff.1 hon), if_neg (Nat.not_lt.2 hname.bounded)]
    simp [hfind, hrest]
  | file hname hon hrest hfind =>
    rw [FileTree.follow, if_neg (by simp [hname.notIdle]), if_neg hname.ne_up,
      if_neg (goesOn_iff.1 hon), if_neg (Nat.not_lt.2 hname.bounded)]
    simp [hfind, hrest]
  | directory hname hon hfind _ ih =>
    rw [FileTree.follow, if_neg (by simp [hname.notIdle]), if_neg hname.ne_up,
      if_neg (goesOn_iff.1 hon), if_neg (Nat.not_lt.2 hname.bounded)]
    simp [hfind, ih]

/-- Where there is no link, segments are followed with success exactly when they lead
somewhere. -/
theorem follow_eq_ok_iff (htree : tree.IsLinkFree) (links : Nat) :
    tree.follow purpose links place segments = .ok target ↔
      tree.Leads purpose place segments target :=
  ⟨leads_of_follow htree, fun h => h.follow links⟩

theorem lexicalPlace_of_isLast {rest : List String} (h : isLast rest = true) (place : Place) :
    lexicalPlace place rest = place := by
  induction rest with
  | nil => rfl
  | cons name rest ih =>
    simp only [isLast, List.all_cons, Bool.and_eq_true, beq_iff_eq] at h
    rw [h.1, lexicalPlace, if_pos (by decide), ih h.2]

theorem lexicalPlace_name {name : String} (hname : IsEntryName name) (place : Place)
    (rest : List String) :
    lexicalPlace place (name :: rest) = lexicalPlace (place ++ [name]) rest := by
  rw [lexicalPlace, if_neg (by simp [hname.notIdle]), if_neg hname.ne_up]

theorem isLast_of_endsAtFile {rest : List String} (h : purpose.endsAtFile rest = true) :
    isLast rest = true := by
  simp only [Purpose.endsAtFile, Bool.or_eq_true, Bool.and_eq_true, List.isEmpty_iff] at h
  rcases h with rfl | ⟨_, hlast⟩
  · rfl
  · exact hlast

/-- The place that segments lead to is in their text. -/
theorem Leads.place_eq (h : tree.Leads purpose place segments target) :
    target.place = lexicalPlace place segments := by
  induction h with
  | here => rfl
  | idle hname _ ih => rw [lexicalPlace, if_pos hname, ih]
  | up _ ih => rw [lexicalPlace, if_neg (by simp [isIdle_up]), if_pos rfl, ih]
  | free hname _ hrest _ => rw [lexicalPlace_name hname, lexicalPlace_of_isLast hrest]; rfl
  | file hname _ hrest _ =>
    rw [lexicalPlace_name hname, lexicalPlace_of_isLast (isLast_of_endsAtFile hrest)]
    rfl
  | directory hname _ _ _ ih => rw [lexicalPlace_name hname, ih]

/-- A tree has what a target says of its place. -/
def Has (tree : FileTree) : Target → Prop
  | .present _ .directory => True
  | .present place (.file content) => place ≠ [] ∧ tree.find? place = some (.file content)
  | .present _ (.link _) => False
  | .free place => place ≠ [] ∧ tree.find? place = none

theorem Leads.has (h : tree.Leads purpose place segments target) : tree.Has target := by
  induction h with
  | here => trivial
  | idle _ _ ih | up _ ih | directory _ _ _ _ ih => exact ih
  | free _ _ _ hfind | file _ _ _ hfind => exact ⟨by simp, hfind⟩

/-- What can be written can be looked at. -/
theorem Leads.look (h : tree.Leads .write place segments target) :
    tree.Leads .look place segments target := by
  have hon : ∀ rest, Purpose.goesOn .look rest := fun _ hwrite => by cases hwrite
  induction h with
  | here => exact .here
  | idle hname _ ih => exact .idle hname ih
  | up _ ih => exact .up ih
  | free hname _ hrest hfind => exact .free hname (hon _) hrest hfind
  | file hname _ hrest hfind =>
    exact .file hname (hon _) (by simpa [Purpose.endsAtFile] using hrest) hfind
  | directory hname _ hfind _ ih => exact .directory hname (hon _) hfind ih

/-! ## Trees that keep what was there -/

/-- Every entry of a tree is kept in another one; the contents of files may differ. -/
def KindsKept (tree other : FileTree) : Prop :=
  ∀ place entry, tree.find? place = some entry →
    ∃ kept, other.find? place = some kept ∧ entry.SameKind kept

theorem KindsKept.refl (tree : FileTree) : tree.KindsKept tree :=
  fun _ entry h => ⟨entry, h, .refl entry⟩

theorem KindsKept.trans {other third : FileTree} (h : tree.KindsKept other)
    (h' : other.KindsKept third) : tree.KindsKept third := by
  intro place entry hentry
  obtain ⟨kept, hkept, hkind⟩ := h place entry hentry
  obtain ⟨last, hlast, hkind'⟩ := h' place kept hkept
  exact ⟨last, hlast, hkind.trans hkind'⟩

/-- A directory is kept as a directory. -/
theorem KindsKept.directory {other : FileTree} (h : tree.KindsKept other)
    (hfind : tree.find? place = some .directory) : other.find? place = some .directory := by
  obtain ⟨kept, hkept, hkind⟩ := h place _ hfind
  rw [hkept, hkind.eq_directory]

/-- A file is kept as a file. -/
theorem KindsKept.file {other : FileTree} (h : tree.KindsKept other) {content : ByteArray}
    (hfind : tree.find? place = some (.file content)) :
    ∃ content', other.find? place = some (.file content') := by
  obtain ⟨kept, hkept, hkind⟩ := h place _ hfind
  obtain ⟨content', rfl⟩ := hkind.exists_file
  exact ⟨content', hkept⟩

/-- What segments lead to in a tree, they lead to wherever it is kept. -/
theorem Leads.mono {other : FileTree} (hkept : tree.KindsKept other) {q : Place}
    {entry : FileEntry} (h : tree.Leads purpose place segments (.present q entry)) :
    ∃ kept, entry.SameKind kept ∧ other.Leads purpose place segments (.present q kept) := by
  -- The target has to be a variable for the induction.
  generalize htarget : Target.present q entry = target at h
  induction h with
  | here => cases htarget; exact ⟨_, .refl _, .here⟩
  | idle hname _ ih =>
    obtain ⟨kept, hkind, h⟩ := ih htarget
    exact ⟨kept, hkind, .idle hname h⟩
  | up _ ih =>
    obtain ⟨kept, hkind, h⟩ := ih htarget
    exact ⟨kept, hkind, .up h⟩
  | free => cases htarget
  | file hname hon hrest hfind =>
    cases htarget
    obtain ⟨content, hfile⟩ := hkept.file hfind
    exact ⟨.file content, trivial, .file hname hon hrest hfile⟩
  | directory hname hon hfind _ ih =>
    obtain ⟨kept, hkind, h⟩ := ih htarget
    exact ⟨kept, hkind, .directory hname hon (hkept.directory hfind) h⟩

/-! ## Changes -/

theorem leads_of_isLast {rest : List String} (h : isLast rest = true) :
    tree.Leads purpose place rest (.present place .directory) := by
  induction rest with
  | nil => exact .here
  | cons name rest ih =>
    simp only [isLast, List.all_cons, Bool.and_eq_true, beq_iff_eq] at h
    rw [h.1]
    exact .idle (by decide) (ih h.2)

/-- A target that a file may be written to. -/
def Target.IsWritable : Target → Prop
  | .present _ (.file _) => True
  | .present _ _ => False
  | .free _ => True

/-- Where a file may be written, there is a file or nothing. -/
theorem Has.sameKind (h : tree.Has target) (htarget : target.IsWritable) (content : ByteArray) :
    target.place ≠ [] ∧
      ∀ entry, tree.find? target.place = some entry → entry.SameKind (.file content) := by
  match target with
  | .present place (.file _) =>
    obtain ⟨hne, hfind⟩ := h
    refine ⟨hne, fun entry hentry => ?_⟩
    obtain rfl := Option.some.inj (hfind.symm.trans hentry)
    trivial
  | .free place =>
    obtain ⟨hne, hnone⟩ := h
    exact ⟨hne, fun entry hentry => by rw [Target.place, hnone] at hentry; cases hentry⟩

/-- Where a file has been written, the segments lead to it. -/
theorem Leads.present_file {other : FileTree} {content : ByteArray}
    (hdirectories : ∀ p, tree.find? p = some .directory → other.find? p = some .directory)
    (h : tree.Leads .write place segments target) (htarget : target.IsWritable)
    (hfind : other.find? target.place = some (.file content)) :
    other.Leads .write place segments (.present target.place (.file content)) := by
  induction h with
  | here => exact htarget.elim
  | idle hname _ ih => exact .idle hname (ih htarget hfind)
  | up _ ih => exact .up (ih htarget hfind)
  | free hname hon hrest _ =>
    obtain rfl := hon rfl hrest
    exact .file hname hon (by decide) hfind
  | file hname hon hrest _ => exact .file hname hon hrest hfind
  | directory hname hon hthere _ ih =>
    exact .directory hname hon (hdirectories _ hthere) (ih htarget hfind)

/-- Where a file may be written, one may still be written after another file was. -/
theorem Leads.writable_insert {q : Place} {content : ByteArray}
    (hq : tree.find? q ≠ some .directory)
    (h : tree.Leads .write place segments target) (htarget : target.IsWritable) :
    ∃ target', (tree.insert q (.file content)).Leads .write place segments target' ∧
      target'.IsWritable := by
  -- The walk is the same up to its last name; if that is `q`, a file is found there now.
  induction h with
  | here => exact htarget.elim
  | idle hname _ ih =>
    obtain ⟨target', h', htarget'⟩ := ih htarget
    exact ⟨target', .idle hname h', htarget'⟩
  | up _ ih =>
    obtain ⟨target', h', htarget'⟩ := ih htarget
    exact ⟨target', .up h', htarget'⟩
  | @free place name rest hname hon hrest hfind =>
    obtain rfl := hon rfl hrest
    by_cases hsame : place ++ [name] = q
    · subst hsame
      exact ⟨_, .file hname hon (by decide) (find?_insert_self (by simp) _), trivial⟩
    · exact ⟨_, .free hname hon hrest ((find?_insert_of_ne hsame _).trans hfind), trivial⟩
  | @file place name rest found hname hon hrest hfind =>
    by_cases hsame : place ++ [name] = q
    · subst hsame
      exact ⟨_, .file hname hon hrest (find?_insert_self (by simp) _), trivial⟩
    · exact ⟨_, .file hname hon hrest ((find?_insert_of_ne hsame _).trans hfind), trivial⟩
  | @directory place name rest target hname hon hfind _ ih =>
    have hsame : place ++ [name] ≠ q := fun hsame => hq (hsame ▸ hfind)
    obtain ⟨target', h', htarget'⟩ := ih htarget
    exact ⟨target', .directory hname hon ((find?_insert_of_ne hsame _).trans hfind) h', htarget'⟩

/-- Where a directory has been made, the segments lead to it. -/
theorem Leads.present_directory {other : FileTree} {q : Place}
    (hdirectories : ∀ p, tree.find? p = some .directory → other.find? p = some .directory)
    (h : tree.Leads .makeDirectory place segments (.free q))
    (hfind : other.find? q = some .directory) :
    other.Leads .look place segments (.present q .directory) := by
  have hon : ∀ rest, Purpose.goesOn .look rest := fun _ hwrite => by cases hwrite
  generalize htarget : Target.free q = target at h
  induction h with
  | here => cases htarget
  | idle hname _ ih => exact .idle hname (ih htarget)
  | up _ ih => exact .up (ih htarget)
  | free hname _ hrest _ =>
    cases htarget
    exact .directory hname (hon _) hfind (leads_of_isLast hrest)
  | file => cases htarget
  | directory hname _ hthere _ ih =>
    exact .directory hname (hon _) (hdirectories _ hthere) (ih htarget)

end

end FileTree

/-! ## Disks -/

/-- A path that the system looks at: a name without the character that ends it, not too long. -/
structure Path.IsUsable (p : Path) : Prop where
  noNul : p.text.contains '\x00' = false
  notEmpty : p.text.isEmpty = false
  bounded : p.text.utf8ByteSize ≤ FileTree.maxPathBytes

namespace Disk

open FileTree

/-- The place that a path starts from. -/
def startOf (disk : Disk) (p : Path) : Place :=
  if p.isAbsolute then [] else disk.workingDirectory

/-- The place that a path leads to when no link is on the way. -/
def placeOf (disk : Disk) (p : Path) : Place :=
  lexicalPlace (disk.startOf p) p.segments

variable {disk : Disk} {purpose : Purpose} {p : Path} {target : Target}

theorem resolve_eq_ok_iff (htree : disk.tree.IsLinkFree) :
    disk.resolve purpose p = .ok target ↔
      p.IsUsable ∧ disk.tree.Leads purpose (disk.startOf p) p.segments target := by
  rw [← follow_eq_ok_iff htree maxLinks, resolve]
  by_cases husable : p.IsUsable
  · simp [husable, husable.noNul, husable.notEmpty, Nat.not_lt.2 husable.bounded, startOf]
  · simp only [husable, false_and, iff_false]
    intro h
    split at h
    · cases h
    · split at h
      · cases h
      · split at h
        · cases h
        · rename_i hnul hempty hlong
          exact husable ⟨by simpa using hnul, by simpa using hempty, Nat.not_lt.1 hlong⟩

end Disk

/-! ## Joined paths -/

namespace FileTree

theorem lexicalPlace_append (place : Place) (front back : List String) :
    lexicalPlace place (front ++ back) = lexicalPlace (lexicalPlace place front) back := by
  fun_induction lexicalPlace place front with
  | case1 => rfl
  | case2 _ name rest hidle ih => rw [List.cons_append, lexicalPlace, if_pos hidle, ih]
  | case3 _ rest hidle ih => rw [List.cons_append, lexicalPlace, if_neg hidle, if_pos rfl, ih]
  | case4 _ name rest hidle hup ih =>
    rw [List.cons_append, lexicalPlace, if_neg hidle, if_neg hup, ih]

/-- The place that the text of a path leads to from another place. -/
def charsPlace (place : Place) (chars : List Char) : Place :=
  lexicalPlace place ((splitSlashes chars).map String.ofList)

theorem charsPlace_nil (place : Place) : charsPlace place [] = place := by
  simp [charsPlace, splitSlashes, lexicalPlace, isIdle]

theorem charsPlace_append_cons (place : Place) (front back : List Char) :
    charsPlace place (front ++ '/' :: back) = charsPlace (charsPlace place front) back := by
  rw [charsPlace, splitSlashes_append_cons, List.map_append, lexicalPlace_append]
  rfl

/-- A slash at the end of a text leads nowhere. -/
theorem charsPlace_concat (place : Place) (front : List Char) :
    charsPlace place (front ++ ['/']) = charsPlace place front := by
  rw [charsPlace_append_cons, charsPlace_nil]

end FileTree

namespace Disk

open FileTree

variable (disk : Disk) {base rel : Path}

/-- The slash that an absolute path begins with leads nowhere, as any other. -/
theorem placeOf_eq_charsPlace (p : Path) :
    disk.placeOf p = charsPlace (disk.startOf p) p.text.toList := by
  rw [placeOf, startOf, Path.segments]
  split
  · rename_i habsolute
    obtain ⟨cs, hcs⟩ : ∃ cs, p.text.toList = '/' :: cs :=
      List.head?_eq_some_iff.1 (by simpa [Path.isAbsolute] using habsolute)
    have hslash := charsPlace_append_cons [] [] cs
    rw [List.nil_append, charsPlace_nil] at hslash
    rw [hcs, hslash]
    rfl
  · rfl

theorem startOf_append {text : String} (hbase : base.text ≠ "") :
    disk.startOf ⟨base.text ++ text⟩ = disk.startOf base := by
  rw [startOf, startOf, Path.isAbsolute_append hbase]

/-- A relative path goes on where another one leads to. -/
theorem placeOf_join (base : Path) (hrel : rel.isAbsolute = false) :
    disk.placeOf (base.join rel) = lexicalPlace (disk.placeOf base) rel.segments := by
  have hsegments : rel.segments = (splitSlashes rel.text.toList).map String.ofList := by
    rw [Path.segments, hrel]
    rfl
  rw [hsegments, ← charsPlace, placeOf_eq_charsPlace, placeOf_eq_charsPlace, Path.join, hrel,
    Bool.false_or]
  by_cases hempty : base.text = ""
  · have hbase : base.isAbsolute = false := by simp [Path.isAbsolute, hempty]
    rw [if_pos (by simp [hempty]), hempty, String.toList_empty, charsPlace_nil, startOf, startOf,
      hrel, hbase]
  · rw [if_neg (by simpa using hempty)]
    split
    · rename_i hslash
      obtain ⟨front, hfront⟩ : ∃ front, base.text.toList = front ++ ['/'] :=
        List.getLast?_eq_some_iff.1 (by simpa using hslash)
      rw [startOf_append disk hempty, String.toList_append, hfront, List.append_assoc,
        List.singleton_append, charsPlace_append_cons, charsPlace_concat]
    · rw [String.append_assoc, startOf_append disk hempty, String.toList_append,
        String.toList_append]
      exact charsPlace_append_cons _ _ _

end Disk

end ManifestAtlas
