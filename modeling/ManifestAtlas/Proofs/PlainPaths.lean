import ManifestAtlas.Files.Path
import ManifestAtlas.Proofs.FreePaths

/-!
# Paths of plain names

A path that is put together from plain names leads from a directory to a place
below it and nowhere else.  There are two groups.

* Any plain names: the path is relative and its components are the names
  (`components_of_plain`).
* The names of diagram files.  A stem is made from an identifier that may hold
  anything; `isBareName_fileStem` shows that what can mean something in a path
  is gone.  The one dot of a path stands before its extension, and so no path
  goes through a file (`IsBare.path_eq_of_components`).
-/

namespace ManifestAtlas

/-! ## Plain names -/

/-- A name of an entry of a directory, which leads neither out of the directory nor further down
into it. -/
structure IsPlainName (name : String) : Prop where
  ne_empty : name ≠ ""
  ne_here : name ≠ "."
  ne_up : name ≠ ".."
  chars : ∀ c ∈ name.toList, c ≠ '/' ∧ c ≠ '\\' ∧ isControl c = false

/-- A plain name without dots. -/
structure IsBareName (name : String) : Prop where
  ne_empty : name ≠ ""
  chars : ∀ c ∈ name.toList, c ≠ '/' ∧ c ≠ '\\' ∧ c ≠ '.' ∧ isControl c = false

theorem splitSlashes_intercalate {first : List Char} {rest : List (List Char)}
    (h : ∀ name ∈ first :: rest, '/' ∉ name) :
    splitSlashes (List.intercalate ['/'] (first :: rest)) = first :: rest := by
  induction rest generalizing first with
  | nil =>
    rw [List.intercalate_singleton]
    exact Path.splitSlashes_of_notMem (h first List.mem_cons_self)
  | cons second rest ih =>
    have hrest : ∀ name ∈ second :: rest, '/' ∉ name :=
      fun name hname => h name (List.mem_cons_of_mem _ hname)
    calc splitSlashes (List.intercalate ['/'] (first :: second :: rest))
        = splitSlashes (first ++ '/' :: List.intercalate ['/'] (second :: rest)) := by
          rw [List.intercalate_cons_cons, List.append_assoc]
          rfl
      _ = first :: splitSlashes (List.intercalate ['/'] (second :: rest)) :=
          Path.splitSlashes_append (h first List.mem_cons_self) _
      _ = first :: second :: rest := by rw [ih hrest]

section

variable {names : List String}

theorem isAbsolute_of_plain (hne : names ≠ []) (h : ∀ name ∈ names, IsPlainName name) :
    Path.isAbsolute ⟨"/".intercalate names⟩ = false := by
  obtain ⟨name, rest, rfl⟩ := List.exists_cons_of_ne_nil hne
  have hname := h name List.mem_cons_self
  have hhead : ∃ c cs, name.toList = c :: cs := by
    apply List.exists_cons_of_ne_nil
    simpa using hname.ne_empty
  obtain ⟨c, cs, hcs⟩ := hhead
  have hc : c ≠ '/' := (hname.chars c (hcs ▸ List.mem_cons_self)).1
  have htext : ("/".intercalate (name :: rest)).toList.head? = some c := by
    rw [String.toList_intercalate, List.map_cons, hcs]
    cases rest with
    | nil => simp
    | cons second rest => simp
  simp only [Path.isAbsolute, htext]
  simpa using hc

theorem segments_of_plain (hne : names ≠ []) (h : ∀ name ∈ names, IsPlainName name) :
    Path.segments ⟨"/".intercalate names⟩ = names := by
  have hslash : ∀ name ∈ names.map String.toList, '/' ∉ name := by
    intro chars hchars hmem
    obtain ⟨name, hname, rfl⟩ := List.mem_map.1 hchars
    exact ((h name hname).chars '/' hmem).1 rfl
  have hsplit : splitSlashes ("/".intercalate names).toList = names.map String.toList := by
    rw [String.toList_intercalate]
    obtain ⟨name, rest, rfl⟩ := List.exists_cons_of_ne_nil hne
    exact splitSlashes_intercalate hslash
  simp only [Path.segments, isAbsolute_of_plain hne h, Bool.false_eq_true, if_false, hsplit]
  simp [Function.comp_def]

/-- The components of a path of plain names are the names. -/
theorem components_of_plain (hne : names ≠ []) (h : ∀ name ∈ names, IsPlainName name) :
    Path.components ⟨"/".intercalate names⟩ = names.map .name := by
  have hfollow : (names.filter fun s => !isIdle s).map Component.ofSegment = names.map .name := by
    have hfilter : names.filter (fun s => !isIdle s) = names := by
      refine List.filter_eq_self.2 fun name hname => ?_
      have hplain := h name hname
      simp [isIdle, hplain.ne_empty, hplain.ne_here]
    rw [hfilter]
    refine List.map_congr_left fun name hname => ?_
    rw [Component.ofSegment, if_neg (h name hname).ne_up]
  obtain ⟨name, rest, rfl⟩ := List.exists_cons_of_ne_nil hne
  have hhere : name ≠ "." := (h name List.mem_cons_self).ne_here
  simp only [Path.components, isAbsolute_of_plain hne h, segments_of_plain hne h,
    Bool.false_eq_true, if_false]
  split
  · rename_i heq
    exact absurd (List.cons.inj heq).1 hhere
  · exact hfollow

/-- A path that leads to a place below the directory it is used from: it is relative, and made of
plain names. -/
structure IsContained (path : String) : Prop where
  relative : Path.isAbsolute ⟨path⟩ = false
  names : ∃ names : List String, names ≠ [] ∧ (∀ name ∈ names, IsPlainName name) ∧
    path = "/".intercalate names ∧ Path.components ⟨path⟩ = names.map .name

theorem isContained_of_plain (hne : names ≠ []) (h : ∀ name ∈ names, IsPlainName name) :
    IsContained ("/".intercalate names) where
  relative := isAbsolute_of_plain hne h
  names := ⟨names, hne, h, rfl, components_of_plain hne h⟩

end

/-! ## Bare names -/

namespace IsBareName

variable {name : String}

theorem dot_notMem (h : IsBareName name) : '.' ∉ name.toList :=
  fun hdot => (h.chars '.' hdot).2.2.1 rfl

theorem isPlainName (h : IsBareName name) : IsPlainName name where
  ne_empty := h.ne_empty
  ne_here := fun heq => h.dot_notMem (heq ▸ by decide)
  ne_up := fun heq => h.dot_notMem (heq ▸ by decide)
  chars := fun c hc => by
    obtain ⟨hslash, hback, _, hcontrol⟩ := h.chars c hc
    exact ⟨hslash, hback, hcontrol⟩

end IsBareName

/-- Nothing that can mean something in a path is left in the name made from an identifier. -/
theorem isBareName_fileStem (id : String) : IsBareName (fileStem id) := by
  constructor
  · intro hempty
    have hchars := congrArg String.toList hempty
    rw [fileStem, String.toList_ofList] at hchars
    exact fileStem_ne_nil _ hchars
  · intro c hc
    rw [fileStem, String.toList_ofList, fileStemChars.eq_def] at hc
    split at hc
    · obtain rfl : c = 'x' := by simpa using hc
      decide
    · obtain ⟨d, _, rfl⟩ := List.mem_map.1 hc
      by_cases hd : isUnsafeInName d = true
      · rw [if_pos hd]
        decide
      · rw [if_neg hd]
        refine ⟨?_, ?_, ?_, ?_⟩
        · intro heq
          subst heq
          exact hd (by decide)
        · intro heq
          subst heq
          exact hd (by decide)
        · intro heq
          subst heq
          exact hd (by decide)
        · rw [← Bool.not_eq_true]
          exact fun hcontrol => hd (by simp [isUnsafeInName, hcontrol])

theorem IsBareName.of_fileStem_eq {name : String} (h : fileStem name = name) :
    IsBareName name :=
  h ▸ isBareName_fileStem name

/-- The characters of a number mean nothing in a path. -/
theorem bare_of_isDigit {c : Char} (h : c.isDigit = true) :
    c ≠ '/' ∧ c ≠ '\\' ∧ c ≠ '.' ∧ isControl c = false := by
  have hrange : 48 ≤ c.toNat ∧ c.toNat ≤ 57 := by
    simpa [Char.isDigit, UInt32.le_iff_toNat_le] using h
  refine ⟨?_, ?_, ?_, ?_⟩
  · intro heq
    subst heq
    exact absurd h (by decide)
  · intro heq
    subst heq
    exact absurd h (by decide)
  · intro heq
    subst heq
    exact absurd h (by decide)
  · unfold isControl
    simp
    omega

/-- A number behind a bare name leaves it bare. -/
theorem IsBareName.append_numberSuffix {stem : String} (h : IsBareName stem) (n : Nat) :
    IsBareName (stem ++ DiagramFile.numberSuffix n) := by
  constructor
  · intro hempty
    exact h.ne_empty (String.append_eq_empty_iff.1 hempty).1
  · intro c hc
    rw [String.toList_append, List.mem_append] at hc
    rcases hc with hc | hc
    · exact h.chars c hc
    · cases n with
      | zero => simp [DiagramFile.numberSuffix] at hc
      | succ n =>
        rw [DiagramFile.numberSuffix, String.toList_append, List.mem_append] at hc
        rcases hc with hc | hc
        · obtain rfl : c = '-' := by simpa using hc
          decide
        · rw [Nat.toList_repr] at hc
          exact bare_of_isDigit (Nat.isDigit_of_mem_toDigits (by decide) (by decide) hc)

theorem extension_toList (kind : DiagramKind) :
    kind.extension.toList = ['m', 'd'] ∨ kind.extension.toList = ['m', 'm', 'd'] := by
  cases kind <;> simp [DiagramKind.extension]

theorem bare_of_mem_extension {kind : DiagramKind} {c : Char} (h : c ∈ kind.extension.toList) :
    c ≠ '/' ∧ c ≠ '\\' ∧ c ≠ '.' ∧ isControl c = false := by
  have hletter : c = 'm' ∨ c = 'd' := by
    rcases extension_toList kind with heq | heq <;> rw [heq] at h <;> simpa using h
  rcases hletter with rfl | rfl <;> decide

/-- A bare name with an extension is plain: it begins with a character that is not a dot. -/
theorem IsBareName.isPlainName_extension {stem : String} (h : IsBareName stem)
    (kind : DiagramKind) : IsPlainName (stem ++ "." ++ kind.extension) := by
  have hfirst : ∃ c cs, stem.toList = c :: cs := by
    apply List.exists_cons_of_ne_nil
    simpa using h.ne_empty
  obtain ⟨c, cs, hcs⟩ := hfirst
  have hhead : (stem ++ "." ++ kind.extension).toList.head? = some c := by
    rw [String.toList_append, String.toList_append, hcs, List.append_assoc, List.cons_append,
      List.head?_cons]
  have hdot : some c ≠ some '.' := by
    intro heq
    apply h.dot_notMem
    rw [hcs, ← Option.some.inj heq]
    exact List.mem_cons_self
  constructor
  · intro heq
    rw [heq] at hhead
    cases hhead
  · intro heq
    rw [heq] at hhead
    exact hdot hhead.symm
  · intro heq
    rw [heq] at hhead
    exact hdot hhead.symm
  · intro d hd
    rw [String.toList_append, String.toList_append, List.mem_append, List.mem_append] at hd
    rcases hd with (hd | hd) | hd
    · obtain ⟨hslash, hback, _, hcontrol⟩ := h.chars d hd
      exact ⟨hslash, hback, hcontrol⟩
    · obtain rfl : d = '.' := by simpa using hd
      decide
    · obtain ⟨hslash, hback, _, hcontrol⟩ := bare_of_mem_extension hd
      exact ⟨hslash, hback, hcontrol⟩

/-! ## The paths of diagram files -/

namespace DiagramFile

/-- A file whose folders and stem are bare names. -/
structure IsBare (file : DiagramFile) : Prop where
  folders : ∀ folder ∈ file.folders, IsBareName folder
  stem : IsBareName file.stem

/-- The names that the path of a file is put together from. -/
def names (file : DiagramFile) : List String :=
  file.folders ++ [file.stem ++ "." ++ file.kind.extension]

theorem path_eq (file : DiagramFile) : file.path = "/".intercalate file.names := rfl

theorem names_ne_nil (file : DiagramFile) : file.names ≠ [] := by
  simp [names]

namespace IsBare

variable {file other : DiagramFile}

theorem suffixed (h : file.IsBare) (n : Nat) : (file.suffixed n).IsBare := by
  cases n with
  | zero => exact h
  | succ n =>
    have hstem : (file.suffixed (n + 1)).stem = file.stem ++ numberSuffix (n + 1) := by
      simp [DiagramFile.suffixed, numberSuffix, toString, String.append_assoc]
    refine ⟨h.folders, ?_⟩
    rw [hstem]
    exact h.stem.append_numberSuffix (n + 1)

theorem isPlainName (h : file.IsBare) : ∀ name ∈ file.names, IsPlainName name := by
  intro name hname
  rcases List.mem_append.1 hname with hname | hname
  · exact (h.folders name hname).isPlainName
  · rw [List.mem_singleton.1 hname]
    exact h.stem.isPlainName_extension file.kind

theorem isContained (h : file.IsBare) : IsContained file.path :=
  isContained_of_plain file.names_ne_nil h.isPlainName

theorem names_eq_of_isPrefix (h : other.IsBare) (hstart : file.names <+: other.names) :
    file.names = other.names := by
  obtain ⟨rest, hrest⟩ := hstart
  rcases List.eq_nil_or_concat' rest with rfl | ⟨front, last, rfl⟩
  · rw [← hrest, List.append_nil]
  · have hfolders : file.names ++ front = other.folders := by
      rw [← List.append_assoc] at hrest
      exact (List.append_inj' hrest rfl).1
    have hmem : file.stem ++ "." ++ file.kind.extension ∈ other.folders := by
      rw [← hfolders, names]
      simp
    refine absurd ?_ (h.folders _ hmem).dot_notMem
    simp

/-- No path goes through a file: a name with a dot is the last one. -/
theorem path_eq_of_components (h : file.IsBare) (h' : other.IsBare)
    (hstart : Path.components ⟨file.path⟩ <+: Path.components ⟨other.path⟩) :
    file.path = other.path := by
  rw [path_eq, path_eq, components_of_plain file.names_ne_nil h.isPlainName,
    components_of_plain other.names_ne_nil h'.isPlainName] at hstart
  have hname : Function.Injective Component.name := fun _ _ heq => Component.name.inj heq
  have hnames := h'.names_eq_of_isPrefix ((List.prefix_map_iff_of_injective hname).1 hstart)
  rw [path_eq, path_eq, hnames]

theorem dot_notMem_directory_stem (h : file.IsBare) :
    '.' ∉ (file.directory ++ file.stem).toList := by
  have hdirectory : '.' ∉ file.directory.toList := by
    simpa [directory] using fun folder hfolder => (h.folders folder hfolder).dot_notMem
  rw [String.toList_append, List.mem_append]
  intro hdot
  rcases hdot with hdot | hdot
  · exact hdirectory hdot
  · exact h.stem.dot_notMem hdot

theorem path_eq_directory (file : DiagramFile) :
    file.path = file.directory ++ file.stem ++ "." ++ file.kind.extension := by
  have hpath := file.path_suffixed 0
  rw [numberSuffix, String.append_empty] at hpath
  exact hpath

/-- The text of a path does not go on after an extension. -/
theorem path_eq_of_isPrefix (h : other.IsBare)
    (hstart : file.path.toList <+: other.path.toList) : file.path = other.path := by
  obtain ⟨rest, hrest⟩ := hstart
  have hchars : ∀ f : DiagramFile,
      f.path.toList = (f.directory ++ f.stem).toList ++ '.' :: f.kind.extension.toList := by
    intro f
    rw [path_eq_directory]
    simp
  have hdotless : '.' ∉ other.kind.extension.toList :=
    fun hdot => (bare_of_mem_extension hdot).2.2.1 rfl
  rw [hchars, hchars, List.append_assoc, List.cons_append] at hrest
  obtain ⟨hfront, _, hextension⟩ :=
    (List.append_cons_inj_of_notMem h.dot_notMem_directory_stem hdotless).1 hrest.symm
  have hsame : file.kind.extension.toList = other.kind.extension.toList := by
    rcases extension_toList file.kind with hfile | hfile <;>
      rcases extension_toList other.kind with hother | hother <;>
      rw [hfile, hother] at hextension ⊢ <;> simp at hextension
  apply String.toList_inj.1
  rw [hchars, hchars, hfront, hsame]

end IsBare

end DiagramFile

end ManifestAtlas
