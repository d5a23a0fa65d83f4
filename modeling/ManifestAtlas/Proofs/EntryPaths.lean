import ManifestAtlas.Proofs.FollowedPaths

/-!
# Paths of entries

The path of an entry stands one name behind the path of its directory, both in
the segments that are followed (`Path.segments_child`) and in the components
that are compared (`Path.components_child`).

Links may be on the way to the directory.  Where a path leads to a directory,
anything behind it is followed from there (`FileTree.exists_follow_append`), so
that the path of an entry leads to the entry (`Disk.resolve_child`).  Putting a
file in the place of another one changes nothing else that a path leads to
(`Disk.resolve_put`).
-/

namespace ManifestAtlas

open FileTree

/-- A name of an entry that stands for itself in a path. -/
structure IsFileName (name : String) : Prop extends IsEntryName name where
  noSlash : '/' ∉ name.toList
  noNul : '\x00' ∉ name.toList

instance (name : String) : Decidable (IsFileName name) :=
  decidable_of_iff (isIdle name = false ∧ name ≠ ".." ∧ name.utf8ByteSize ≤ maxNameBytes ∧
      '/' ∉ name.toList ∧ '\x00' ∉ name.toList)
    ⟨fun ⟨hidle, hup, hsize, hslash, hnul⟩ => ⟨⟨hidle, hup, hsize⟩, hslash, hnul⟩,
      fun h => ⟨h.notIdle, h.ne_up, h.bounded, h.noSlash, h.noNul⟩⟩

theorem IsFileName.ne_empty {name : String} (h : IsFileName name) : name ≠ "" := by
  rintro rfl
  simpa [isIdle] using h.notIdle

theorem IsFileName.isAbsolute {name : String} (h : IsFileName name) :
    Path.isAbsolute ⟨name⟩ = false := by
  rw [Path.isAbsolute]
  cases hchars : name.toList with
  | nil => rfl
  | cons c rest =>
    have hc : c ≠ '/' := fun heq => h.noSlash (by rw [hchars, heq]; exact List.mem_cons_self)
    simpa using hc

namespace Path

variable {base : Path} {name : String}

/-! ## Segments and components -/

theorem child_eq (hname : IsFileName name) (base : Path) :
    base.child name = ⟨base.lead ++ name⟩ :=
  join_eq hname.isAbsolute base

theorem isAbsolute_child (hname : IsFileName name) (hbase : base.text ≠ "") :
    (base.child name).isAbsolute = base.isAbsolute :=
  isAbsolute_join hname.isAbsolute hbase

/-- The three ways in which a name is put behind a directory: alone, behind the slash that is
there, or behind a new one. -/
theorem text_child (hname : IsFileName name) (base : Path) :
    base.text = "" ∧ base.child name = ⟨name⟩ ∨
    (∃ front, base.text.toList = front ++ ['/'] ∧
      (base.child name).text.toList = front ++ '/' :: name.toList) ∨
    (base.child name).text.toList = base.text.toList ++ '/' :: name.toList := by
  rw [child, join, hname.isAbsolute, Bool.false_or]
  split
  · rename_i hempty
    exact .inl ⟨by simpa using hempty, rfl⟩
  · split
    · rename_i hslash
      obtain ⟨front, hfront⟩ : ∃ front, base.text.toList = front ++ ['/'] :=
        List.getLast?_eq_some_iff.1 (by simpa using hslash)
      exact .inr (.inl ⟨front, hfront, by simp [hfront]⟩)
    · exact .inr (.inr (by simp))

/-- The characters that are split into segments. -/
def body (p : Path) : List Char :=
  if p.isAbsolute then p.text.toList.drop 1 else p.text.toList

theorem segments_eq (p : Path) : p.segments = (splitSlashes p.body).map String.ofList := rfl

theorem exists_text_eq (h : base.isAbsolute = true) : base.text.toList = '/' :: base.body := by
  obtain ⟨cs, hcs⟩ : ∃ cs, base.text.toList = '/' :: cs :=
    List.head?_eq_some_iff.1 (by simpa [isAbsolute] using h)
  simp [body, h, hcs]

/-- Putting a name behind the characters that are split is the same, but nothing may be left of
them behind the first slash. -/
theorem body_child (hname : IsFileName name) (base : Path) :
    base.body = [] ∧ (base.child name).body = name.toList ∨
    (∃ front, base.body = front ++ ['/'] ∧
      (base.child name).body = front ++ '/' :: name.toList) ∨
    (base.child name).body = base.body ++ '/' :: name.toList := by
  by_cases hempty : base.text = ""
  · left
    have hbase : base.isAbsolute = false := by simp [isAbsolute, hempty]
    rcases text_child hname base with ⟨-, hchild⟩ | ⟨front, hfront, -⟩ | hchild
    · simp [body, hchild, hname.isAbsolute, hbase, hempty]
    · simp [hempty] at hfront
    · have hself : base.child name = ⟨name⟩ := by simp [child, join, hempty]
      have hlength := congrArg List.length hchild
      simp [hself, hempty] at hlength
  · have habsolute := isAbsolute_child hname hempty
    cases hbase : base.isAbsolute with
    | true =>
      have hbody := exists_text_eq hbase
      have hchildBody := exists_text_eq (habsolute.trans hbase)
      rcases text_child hname base with ⟨hnone, -⟩ | ⟨front, hfront, hchild⟩ | hchild
      · exact absurd hnone hempty
      · rw [hbody] at hfront
        rw [hchildBody] at hchild
        cases front with
        | nil => exact .inl ⟨by simpa using hfront, by simpa using hchild⟩
        | cons c front =>
          exact .inr (.inl ⟨front, (List.cons.inj hfront).2, (List.cons.inj hchild).2⟩)
      · rw [hbody, hchildBody] at hchild
        exact .inr (.inr (List.cons.inj hchild).2)
    | false =>
      have hbody : base.body = base.text.toList := by simp [body, hbase]
      have hchildBody : (base.child name).body = (base.child name).text.toList := by
        simp [body, habsolute.trans hbase]
      rw [hbody, hchildBody]
      rcases text_child hname base with ⟨hnone, -⟩ | hslash | hchild
      · exact absurd hnone hempty
      · exact .inr (.inl hslash)
      · exact .inr (.inr hchild)

/-- The name of an entry is the segment behind those of its directory; an empty one at their end
is dropped. -/
theorem segments_child (hname : IsFileName name) (base : Path) :
    ∃ front, (base.child name).segments = front ++ [name] ∧
      (base.segments = front ∨ base.segments = front ++ [""]) := by
  have hsplit : splitSlashes name.toList = [name.toList] := splitSlashes_of_notMem hname.noSlash
  simp only [segments_eq]
  rcases body_child hname base with ⟨hbase, hchild⟩ | ⟨front, hbase, hchild⟩ | hchild
  · exact ⟨[], by simp [hchild, hsplit], .inr (by simp [hbase, splitSlashes])⟩
  · refine ⟨(splitSlashes front).map String.ofList, ?_, .inr ?_⟩
    · simp [hchild, splitSlashes_append_cons, hsplit]
    · simp [hbase, splitSlashes_append_cons, splitSlashes]
  · exact ⟨(splitSlashes base.body).map String.ofList,
      by simp [hchild, splitSlashes_append_cons, hsplit], .inl rfl⟩

/-- The components of the segments that lead somewhere. -/
def named (segments : List String) : List Component :=
  (segments.filter fun s => !isIdle s).map Component.ofSegment

theorem components_of_isAbsolute (h : base.isAbsolute = true) :
    base.components = .root :: named base.segments := by
  rw [components, if_pos h]
  rfl

theorem named_append (front back : List String) :
    named (front ++ back) = named front ++ named back := by
  simp [named]

theorem named_empty : named [""] = [] := by decide

theorem named_name (hname : IsFileName name) : named [name] = [.name name] := by
  simp [named, hname.notIdle, Component.ofSegment, hname.ne_up]

/-- The components of relative segments: a dot at the start counts. -/
def relativeComponents : List String → List Component
  | "." :: rest => .here :: named rest
  | segments => named segments

theorem components_of_relative (h : base.isAbsolute = false) :
    base.components = relativeComponents base.segments := by
  rw [components, if_neg (by simp [h])]
  rfl

theorem relativeComponents_append {front : List String} (back : List String) (h : front ≠ []) :
    relativeComponents (front ++ back) = relativeComponents front ++ named back := by
  obtain ⟨first, rest, rfl⟩ := List.exists_cons_of_ne_nil h
  by_cases hfirst : first = "."
  · subst hfirst
    simp [relativeComponents, named_append]
  · rw [List.cons_append, relativeComponents, relativeComponents, ← List.cons_append, named_append]
    · simpa using hfirst
    · simpa using hfirst

/-- The name of an entry is the component behind those of its directory. -/
theorem components_child (hname : IsFileName name) (base : Path) :
    (base.child name).components = base.components ++ [.name name] := by
  obtain ⟨front, hchild, hbase⟩ := segments_child hname base
  have hnamed : named base.segments = named front := by
    rcases hbase with hbase | hbase <;> simp [hbase, named_append, named_empty]
  have hdot : name ≠ "." := by
    rintro rfl
    simpa [isIdle] using hname.notIdle
  have hrelative (habsolute : base.isAbsolute = false)
      (hchildAbsolute : (base.child name).isAbsolute = false) :
      (base.child name).components = base.components ++ [.name name] := by
    rw [components_of_relative habsolute, components_of_relative hchildAbsolute, hchild]
    cases front with
    | nil =>
      have hnone : relativeComponents base.segments = [] := by
        rcases hbase with hbase | hbase
        · exact absurd hbase (segments_ne_nil base)
        · rw [hbase]
          decide
      rw [hnone, List.nil_append, relativeComponents, named_name hname, List.nil_append]
      simpa using hdot
    | cons first rest =>
      rw [relativeComponents_append _ (by simp), named_name hname]
      rcases hbase with hbase | hbase
      · rw [hbase]
      · rw [hbase, relativeComponents_append _ (by simp), named_empty, List.append_nil]
  by_cases hempty : base.text = ""
  · have habsolute : base.isAbsolute = false := by simp [isAbsolute, hempty]
    refine hrelative habsolute ?_
    have hself : base.child name = ⟨name⟩ := by simp [child, join, hempty]
    rw [hself, hname.isAbsolute]
  · have habsolute := isAbsolute_child hname hempty
    cases hroot : base.isAbsolute with
    | true =>
      rw [components_of_isAbsolute hroot, components_of_isAbsolute (habsolute.trans hroot), hchild,
        named_append, named_name hname, hnamed]
      rfl
    | false => exact hrelative hroot (habsolute.trans hroot)

/-- The path of an entry has room for the path of its directory and the name. -/
theorem utf8ByteSize_add_le_child (hname : IsFileName name) (base : Path) :
    base.text.utf8ByteSize + name.utf8ByteSize ≤ (base.child name).text.utf8ByteSize := by
  rw [child, join, hname.isAbsolute, Bool.false_or]
  split
  · rename_i hempty
    simp [show base.text = "" by simpa using hempty]
  · split <;> simp

theorem utf8ByteSize_child_le (hname : IsFileName name) (base : Path) :
    (base.child name).text.utf8ByteSize ≤ base.text.utf8ByteSize + 1 + name.utf8ByteSize := by
  have hslash : "/".utf8ByteSize = 1 := by decide
  rw [child, join, hname.isAbsolute, Bool.false_or]
  split
  · simp
  · split
    · simp
    · simp [hslash]

theorem utf8ByteSize_le_child (hname : IsFileName name) (base : Path) :
    base.text.utf8ByteSize ≤ (base.child name).text.utf8ByteSize :=
  Nat.le_trans (Nat.le_add_right _ _) (utf8ByteSize_add_le_child hname base)

end Path

/-! ## Following -/

namespace FileTree

variable {tree : FileTree} {place q : Place} {links : Nat} {segments : List String}

/-- Where segments lead to a directory, anything behind them is followed from there. -/
theorem exists_follow_append
    (h : tree.follow .look links place segments = .ok (.present q .directory)) :
    ∃ left, ∀ rest,
      tree.follow .look links place (segments ++ rest) = tree.follow .look left q rest := by
  -- `left` is how many links may still be followed at the directory; it does not depend on `rest`
  fun_induction follow tree .look links place segments with
  | case1 links place =>
    cases h
    exact ⟨links, fun rest => rfl⟩
  | case2 links place name more hidle ih =>
    obtain ⟨left, hleft⟩ := ih h
    refine ⟨left, fun rest => ?_⟩
    rw [List.cons_append, FileTree.follow, if_pos hidle, hleft]
  | case3 links place more hidle ih =>
    obtain ⟨left, hleft⟩ := ih h
    refine ⟨left, fun rest => ?_⟩
    rw [List.cons_append, FileTree.follow, if_neg hidle, if_pos rfl, hleft]
  | case10 links place name more hidle hup _ hsize hfind ih =>
    obtain ⟨left, hleft⟩ := ih h
    refine ⟨left, fun rest => ?_⟩
    rw [List.cons_append, FileTree.follow, if_neg hidle, if_neg hup, if_neg (by simp),
      if_neg hsize]
    simp only [hfind, hleft]
  | case12 place name more hidle hup _ hsize target hfind _ links ih =>
    obtain ⟨left, hleft⟩ := ih h
    refine ⟨left, fun rest => ?_⟩
    rw [List.cons_append, FileTree.follow, if_neg hidle, if_neg hup, if_neg (by simp),
      if_neg hsize]
    simp only [hfind, Purpose.followsLink, if_true, dite_eq_ite, ← hleft, List.append_assoc]
  | case13 _ _ _ _ _ _ _ _ _ _ hfollows => exact absurd rfl hfollows
  | case4 | case5 | case6 | case7 | case8 | case9 | case11 => cases h

/-- Where segments with a name behind them lead somewhere, the segments lead to a directory. -/
theorem exists_follow_of_append {name : String} {target : Target} (hname : name ≠ "")
    (h : tree.follow .look links place (segments ++ [name]) = .ok target) :
    ∃ q, tree.follow .look links place segments = .ok (.present q .directory) := by
  have hlast : ∀ more, isLast (more ++ [name]) = false := fun more => by
    simp [isLast, hname]
  have hend : ∀ more, Purpose.endsAtFile .look (more ++ [name]) = false := fun more => by
    simp [Purpose.endsAtFile]
  fun_induction follow tree .look links place segments with
  | case1 _ place => exact ⟨place, rfl⟩
  | case2 _ _ _ _ hidle ih =>
    rw [List.cons_append, FileTree.follow, if_pos hidle] at h
    exact ih h
  | case3 _ _ _ hidle ih =>
    rw [List.cons_append, FileTree.follow, if_neg hidle, if_pos rfl] at h
    exact ih h
  | case4 _ _ _ _ _ _ hwrite => exact absurd hwrite (by simp)
  | case5 _ _ _ _ hidle hup _ hsize =>
    rw [List.cons_append, FileTree.follow] at h
    simp [hidle, hup, hsize] at h
  | case6 _ _ _ _ hidle hup _ hsize hfind | case7 _ _ _ _ hidle hup _ hsize hfind =>
    rw [List.cons_append, FileTree.follow] at h
    simp [hidle, hup, hsize, hfind, hlast] at h
  | case8 _ _ _ _ hidle hup _ hsize _ hfind | case9 _ _ _ _ hidle hup _ hsize _ hfind =>
    rw [List.cons_append, FileTree.follow] at h
    simp [hidle, hup, hsize, hfind, hend] at h
  | case10 _ _ _ _ hidle hup _ hsize hfind ih =>
    rw [List.cons_append, FileTree.follow] at h
    simp only [hidle, hup, hsize, hfind] at h
    exact ih (by simpa using h)
  | case11 _ _ _ hidle hup _ hsize _ hfind =>
    rw [List.cons_append, FileTree.follow] at h
    simp [hidle, hup, hsize, hfind, Purpose.followsLink] at h
  | case12 _ _ _ hidle hup _ hsize _ hfind _ _ ih =>
    rw [List.cons_append, FileTree.follow] at h
    refine ih ?_
    simpa [hidle, hup, hsize, hfind, Purpose.followsLink] using h
  | case13 _ _ _ _ _ _ _ _ _ _ hfollows => exact absurd rfl hfollows

/-- An empty segment in front of others leads nowhere. -/
theorem follow_append_empty {rest : List String} (hrest : rest ≠ []) :
    tree.follow .look links place (segments ++ "" :: rest) =
      tree.follow .look links place (segments ++ rest) := by
  have hlast : ∀ more, isLast (more ++ "" :: rest) = isLast (more ++ rest) := fun more => by
    simp [isLast]
  have hend : ∀ more, Purpose.endsAtFile .look (more ++ "" :: rest) =
      Purpose.endsAtFile .look (more ++ rest) := fun more => by
    cases more <;> simp [Purpose.endsAtFile, hrest]
  fun_induction follow tree .look links place segments with
  | case1 => rw [List.nil_append, FileTree.follow, if_pos (by decide), List.nil_append]
  | case2 _ _ _ _ hidle ih =>
    rw [List.cons_append, List.cons_append, FileTree.follow, if_pos hidle, ih, FileTree.follow,
      if_pos hidle]
  | case3 _ _ _ hidle ih =>
    rw [List.cons_append, List.cons_append, FileTree.follow, if_neg hidle, if_pos rfl, ih,
      FileTree.follow, if_neg hidle, if_pos rfl]
  | case4 _ _ _ _ _ _ hwrite => exact absurd hwrite (by simp)
  | case5 _ _ _ _ hidle hup _ hsize =>
    rw [List.cons_append, List.cons_append, FileTree.follow, FileTree.follow]
    simp [hidle, hup, hsize]
  | case6 _ _ _ _ hidle hup _ hsize hfind | case7 _ _ _ _ hidle hup _ hsize hfind =>
    rw [List.cons_append, List.cons_append, FileTree.follow, FileTree.follow]
    simp [hidle, hup, hsize, hfind, hlast]
  | case8 _ _ _ _ hidle hup _ hsize _ hfind | case9 _ _ _ _ hidle hup _ hsize _ hfind =>
    rw [List.cons_append, List.cons_append, FileTree.follow, FileTree.follow]
    simp [hidle, hup, hsize, hfind, hend]
  | case10 _ _ _ _ hidle hup _ hsize hfind ih =>
    rw [List.cons_append, List.cons_append, FileTree.follow, FileTree.follow]
    simp [hidle, hup, hsize, hfind, ih]
  | case11 _ _ _ hidle hup _ hsize _ hfind =>
    rw [List.cons_append, List.cons_append, FileTree.follow, FileTree.follow]
    simp [hidle, hup, hsize, hfind, Purpose.followsLink]
  | case12 _ _ _ hidle hup _ hsize target hfind _ _ ih =>
    rw [List.cons_append, List.cons_append, FileTree.follow, FileTree.follow]
    simpa [hidle, hup, hsize, hfind, Purpose.followsLink] using ih
  | case13 _ _ _ _ _ _ _ _ _ _ hfollows => exact absurd rfl hfollows

/-- The path of an entry is followed like that of its directory with the name behind it. -/
theorem follow_segments_child {name : String} (hname : IsFileName name) (p : Path) :
    tree.follow .look links place (p.child name).segments =
      tree.follow .look links place (p.segments ++ [name]) := by
  obtain ⟨front, hchild, hbase⟩ := Path.segments_child hname p
  rw [hchild]
  -- a slash at the end of the directory's path leaves an empty segment, which the name replaces
  rcases hbase with hbase | hbase
  · rw [hbase]
  · rw [hbase, List.append_assoc, List.singleton_append, follow_append_empty (by simp)]

/-- A name leads to the entry that has it, unless that is a link. -/
theorem follow_name {name : String} (hname : IsFileName name)
    (hlink : ∀ target, tree.find? (place ++ [name]) ≠ some (.link target)) :
    tree.follow .look links place [name] =
      .ok (match tree.find? (place ++ [name]) with
        | none => .free (place ++ [name])
        | some entry => .present (place ++ [name]) entry) := by
  rw [FileTree.follow, if_neg (by simp [hname.notIdle]), if_neg hname.ne_up, if_neg (by simp),
    if_neg (Nat.not_lt.2 hname.bounded)]
  cases hfind : tree.find? (place ++ [name]) with
  | none => rfl
  | some entry =>
    cases entry with
    | file content => rfl
    | directory => simp [FileTree.follow]
    | link target => exact absurd hfind (hlink target)

/-- Inspecting stops at a link that looking follows to a directory, and is the same otherwise. -/
theorem follow_inspect_of_look
    (h : tree.follow .look links place segments = .ok (.present q .directory)) :
    tree.follow .inspect links place segments = .ok (.present q .directory) ∨
      ∃ p target, tree.follow .inspect links place segments = .ok (.present p (.link target)) := by
  fun_induction follow tree .look links place segments with
  | case1 => exact .inl (by rw [FileTree.follow, h])
  | case2 _ _ _ _ hidle ih =>
    rw [FileTree.follow, if_pos hidle]
    exact ih h
  | case3 _ _ _ hidle ih =>
    rw [FileTree.follow, if_neg hidle, if_pos rfl]
    exact ih h
  | case10 _ _ _ _ hidle hup _ hsize hfind ih =>
    rw [FileTree.follow, if_neg hidle, if_neg hup, if_neg (by simp), if_neg hsize]
    simp only [hfind]
    exact ih h
  | case12 place name more hidle hup _ hsize target hfind _ links ih =>
    rw [FileTree.follow, if_neg hidle, if_neg hup, if_neg (by simp), if_neg hsize]
    simp only [hfind, Purpose.followsLink]
    -- Inspecting follows a link as well, unless it is the last name.
    cases more with
    | nil => exact .inr ⟨_, _, rfl⟩
    | cons next more => simpa using ih (by simpa using h)
  | case13 _ _ _ _ _ _ _ _ _ _ hfollows => exact absurd rfl hfollows
  | case4 | case5 | case6 | case7 | case8 | case9 | case11 => cases h

/-- Looking never comes to an end at a link. -/
theorem follow_look_ne_link {target : Path} :
    tree.follow .look links place segments ≠ .ok (.present q (.link target)) := by
  intro h
  fun_induction follow tree .look links place segments with
  | case2 _ _ _ _ _ ih | case3 _ _ _ _ ih | case10 _ _ _ _ _ _ _ _ _ ih => exact ih h
  | case12 _ _ _ _ _ _ _ _ _ _ _ ih => exact ih (by simpa using h)
  | case13 _ _ _ _ _ _ _ _ _ _ hfollows => exact hfollows rfl
  | case1 | case4 | case5 | case6 | case7 | case8 | case9 | case11 => cases h

/-- Another content in a file changes nothing for what leads elsewhere. -/
theorem follow_insert {purpose : Purpose} {content other : ByteArray} {target : Target}
    (hfile : tree.find? q = some (.file content))
    (h : tree.follow purpose links place segments = .ok target) (htarget : target.place ≠ q) :
    (tree.insert q (.file other)).follow purpose links place segments = .ok target := by
  have hfind : ∀ p, tree.find? p ≠ some (.file content) →
      (tree.insert q (.file other)).find? p = tree.find? p := fun p hp =>
    find?_insert_of_ne (by rintro rfl; exact hp hfile) _
  -- A find sees the change only at `q` itself, and a walk that comes to a file ends there.
  fun_induction follow tree purpose links place segments with
  | case1 => rw [FileTree.follow, h]
  | case2 _ _ _ _ hidle ih =>
    rw [FileTree.follow, if_pos hidle]
    exact ih h
  | case3 _ _ _ hidle ih =>
    rw [FileTree.follow, if_neg hidle, if_pos rfl]
    exact ih h
  | case6 _ place name _ hidle hup hon hsize hnone hlast =>
    rw [FileTree.follow, if_neg hidle, if_neg hup, if_neg hon, if_neg hsize,
      hfind _ (by simp [hnone])]
    simpa [hnone, hlast] using h
  | case8 _ place name _ hidle hup hon hsize found hfound hend =>
    cases h
    have hplace : place ++ [name] ≠ q := htarget
    rw [FileTree.follow, if_neg hidle, if_neg hup, if_neg hon, if_neg hsize,
      find?_insert_of_ne hplace]
    simp [hfound, hend]
  | case10 _ _ _ _ hidle hup hon hsize hdirectory ih =>
    rw [FileTree.follow, if_neg hidle, if_neg hup, if_neg hon, if_neg hsize,
      hfind _ (by simp [hdirectory])]
    simp only [hdirectory]
    exact ih h
  | case12 _ _ _ hidle hup hon hsize _ hlink hfollows _ ih =>
    rw [FileTree.follow, if_neg hidle, if_neg hup, if_neg hon, if_neg hsize,
      hfind _ (by simp [hlink])]
    simp only [hlink, hfollows, if_true]
    simpa using ih (by simpa using h)
  | case13 _ _ _ _ hidle hup hon hsize _ hlink hfollows =>
    rw [FileTree.follow, if_neg hidle, if_neg hup, if_neg hon, if_neg hsize,
      hfind _ (by simp [hlink])]
    simpa [hlink, hfollows] using h
  | case4 | case5 | case7 | case9 | case11 => cases h

end FileTree

/-! ## Disks -/

namespace Disk

variable {disk : Disk} {p : Path} {q : Place} {name : String}

theorem resolve_of_isUsable (h : p.IsUsable) (purpose : Purpose) :
    disk.resolve purpose p = disk.tree.follow purpose maxLinks (disk.startOf p) p.segments := by
  rw [resolve, if_neg (by simp [h.noNul]), if_neg (by simp [h.notEmpty]),
    if_neg (Nat.not_lt.2 h.bounded), startOf]

theorem isUsable_of_resolve {purpose : Purpose} {target : Target}
    (h : disk.resolve purpose p = .ok target) : p.IsUsable := by
  rw [resolve] at h
  split at h
  · cases h
  · split at h
    · cases h
    · split at h
      · cases h
      · rename_i hnul hempty hlong
        exact ⟨by simpa using hnul, by simpa using hempty, Nat.not_lt.1 hlong⟩

/-- Where the system sees a directory, the path leads to one. -/
theorem exists_resolve_of_status (h : disk.status p = .ok .directory) :
    ∃ place, disk.resolve .look p = .ok (.present place .directory) := by
  rw [status] at h
  cases hresolve : disk.resolve .look p with
  | error e => simp [hresolve] at h
  | ok target =>
    rw [hresolve] at h
    match target, h, hresolve with
    | .present place .directory, _, _ => exact ⟨place, rfl⟩
    | .present place (.link target), _, hlink =>
      rw [resolve_of_isUsable (isUsable_of_resolve hlink)] at hlink
      exact absurd hlink follow_look_ne_link

theorem isUsable_child (hname : IsFileName name) (h : p.IsUsable)
    (hsize : (p.child name).text.utf8ByteSize ≤ maxPathBytes) : (p.child name).IsUsable := by
  have hchild := Path.child_eq hname p
  have hlead : '\x00' ∉ p.lead.toList := by
    have hnul := h.noNul
    rw [Path.lead, Path.join]
    split
    · simp
    · split <;> simp_all
  refine ⟨?_, ?_, hsize⟩
  · rw [hchild]
    simpa using ⟨hlead, hname.noNul⟩
  · rw [hchild]
    simp [hname.ne_empty]

/-- The path of an entry leads to the entry, unless it is a link. -/
theorem resolve_child (hname : IsFileName name)
    (h : disk.resolve .look p = .ok (.present q .directory))
    (hsize : (p.child name).text.utf8ByteSize ≤ maxPathBytes)
    (hlink : ∀ target, disk.tree.find? (q ++ [name]) ≠ some (.link target)) :
    disk.resolve .look (p.child name) =
      .ok (match disk.tree.find? (q ++ [name]) with
        | none => .free (q ++ [name])
        | some entry => .present (q ++ [name]) entry) := by
  have husable := isUsable_of_resolve h
  have hstart : disk.startOf (p.child name) = disk.startOf p := by
    have hempty : p.text ≠ "" := by simpa using husable.notEmpty
    rw [startOf, startOf, Path.isAbsolute_child hname hempty]
  rw [resolve_of_isUsable husable] at h
  obtain ⟨left, hleft⟩ := exists_follow_append h
  rw [resolve_of_isUsable (isUsable_child hname husable hsize), hstart,
    follow_segments_child hname, hleft, follow_name hname hlink]

/-- What a path that is too long leads to is not a matter of the disk. -/
theorem resolve_congr_of_long {purpose : Purpose} (h : maxPathBytes < p.text.utf8ByteSize)
    (disk other : Disk) : disk.resolve purpose p = other.resolve purpose p := by
  simp only [resolve, if_pos h]

/-- A file takes the place of another one, and everything else that a path leads to is as
before. -/
theorem resolve_put {purpose : Purpose} {content other : ByteArray} {target : Target}
    (hfile : disk.tree.find? q = some (.file content))
    (h : disk.resolve purpose p = .ok target) (htarget : target.place ≠ q) :
    (disk.put q (.file other)).resolve purpose p = .ok target := by
  have husable := isUsable_of_resolve h
  rw [resolve_of_isUsable husable] at h ⊢
  exact follow_insert hfile h htarget

end Disk

end ManifestAtlas
