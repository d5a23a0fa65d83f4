import ManifestAtlas.Proofs.DiskChanges

/-!
# Written files

A run that writes a file makes the directories that it lies in, one after the
other from the outside in, and then the file.  Each step has a lemma about the
disk that it leaves; together they give `writeFile_spec`: the file is stored,
and it can be stored again in every later disk that has lost nothing.  Where a
file can be stored, `run_writeFile_of_canStore` says that it is.
-/

namespace ManifestAtlas

namespace Path

theorem exists_ancestors_eq (p : Path) : ∃ outer, p.ancestors = p :: outer := by
  rw [ancestors]
  cases p.segments.length with
  | zero => exact ⟨[], rfl⟩
  | succ fuel =>
    rw [ancestorsWithin]
    cases p.parent? with
    | none => exact ⟨[], rfl⟩
    | some up => exact ⟨ancestorsWithin fuel up, rfl⟩

theorem ancestors_of_none {p : Path} (h : p.parent? = none) : p.ancestors = [p] := by
  rw [ancestors]
  cases p.segments.length with
  | zero => rfl
  | succ fuel => rw [ancestorsWithin, h]

end Path

namespace Session

variable {s s' t : Session} {p : Path} {text : String}

/-! ## Directories -/

/-- What is settled well has changed nothing; it was fine, or the directory is there. -/
theorem settle_spec {outcome : Except OsError Unit}
    (h : (FileSystem.settle p outcome : StateM Session _).run s = (.ok (), s')) :
    s' = s ∧ (outcome = .ok () ∨ (s.disk.status p).isOk = true) := by
  cases outcome with
  | ok =>
    cases h
    exact ⟨rfl, .inl rfl⟩
  | error e =>
    cases e with
    | «exists» =>
      rw [FileSystem.settle, run_bind, run_isDirectory] at h
      cases hstatus : s.disk.status p with
      | error e =>
        rw [hstatus] at h
        cases h
      | ok kind =>
        cases kind with
        | file =>
          rw [hstatus] at h
          cases h
        | directory =>
          rw [hstatus] at h
          cases h
          exact ⟨rfl, .inr rfl⟩
    | _ => cases h

/-- After a directory was made and the outcome was settled well, it is there. -/
theorem makeDirectory_spec (hs : s.disk.tree.IsLinkFree)
    {outcome : Except OsError Unit}
    (hmake : (FileSystem.makeDirectory p : StateM Session _).run s = (outcome, t))
    (h : (FileSystem.settle p outcome : StateM Session _).run t = (.ok (), s')) :
    s.disk.ChangesOnly s'.disk [] ∧ (s'.disk.status p).isOk = true := by
  obtain ⟨rfl, hsettled⟩ := settle_spec h
  rw [run_makeDirectory] at hmake
  cases hdisk : s.disk.makeDirectory p with
  | ok disk =>
    rw [hdisk] at hmake
    cases hmake
    obtain ⟨hchanges, hstatus⟩ := Disk.changesOnly_of_makeDirectory hs hdisk
    exact ⟨hchanges, hstatus⟩
  | error e =>
    rw [hdisk] at hmake
    cases hmake
    rcases hsettled with hok | hstatus
    · cases hok
    · exact ⟨.refl _, hstatus⟩

/-- Directories are made from the outside in, and after that the first of them is there. -/
theorem makeAll_spec {paths : List Path} (hs : s.disk.tree.IsLinkFree)
    (h : (FileSystem.makeAll paths : StateM Session _).run s = (.ok (), s')) :
    s.disk.ChangesOnly s'.disk [] ∧ ∀ p ∈ paths.head?, (s'.disk.status p).isOk = true := by
  -- An attempt that misses something changes nothing, and is made again behind the outer ones.
  induction paths generalizing s s' with
  | nil =>
    cases h
    exact ⟨.refl _, by simp⟩
  | cons p outer ih =>
    rw [FileSystem.makeAll, run_bind] at h
    cases hmake : (FileSystem.makeDirectory p : StateM Session (Except OsError Unit)).run s with
    | mk outcome t =>
    rw [hmake] at h
    dsimp only at h
    split at h
    · have ht : t = s := by
        rw [run_makeDirectory] at hmake
        split at hmake <;> cases hmake
        rfl
      subst ht
      rw [run_bind] at h
      cases houter : (FileSystem.makeAll outer : StateM Session (Except OsError Unit)).run t with
      | mk made u =>
      rw [houter] at h
      cases made with
      | error e => cases h
      | ok =>
        obtain ⟨hmakes, _⟩ := ih hs houter
        rw [run_bind] at h
        obtain ⟨hlast, hstatus⟩ := makeDirectory_spec (hmakes.isLinkFree_of_nil hs) rfl h
        exact ⟨hmakes.trans hlast, by simpa using hstatus⟩
    · obtain ⟨hmakes, hstatus⟩ := makeDirectory_spec hs hmake h
      exact ⟨hmakes, by simpa using hstatus⟩

/-- Making a directory with all that it lies in makes it, if there is something that it lies in. -/
theorem makeDirectories_spec (hs : s.disk.tree.IsLinkFree)
    (h : (FileSystem.makeDirectories p : StateM Session _).run s = (.ok (), s')) :
    s.disk.ChangesOnly s'.disk [] ∧ (p.parent?.isSome = true → (s'.disk.status p).isOk = true) := by
  obtain ⟨hmakes, hstatus⟩ := makeAll_spec hs h
  refine ⟨hmakes, fun hparent => hstatus p ?_⟩
  obtain ⟨outer, houter⟩ := p.exists_ancestors_eq
  simp [houter, hparent]

theorem run_makeDirectories_of_none (hparent : p.parent? = none) (s : Session) :
    (FileSystem.makeDirectories p : StateM Session _).run s = (.ok (), s) := by
  rw [FileSystem.makeDirectories, p.ancestors_of_none hparent,
    List.filter_cons_of_neg (by simp [hparent]), List.filter_nil]
  rfl

/-- Making sure that a directory is there makes it, unless it is one that is never made. -/
theorem ensureDirectory_spec (hs : s.disk.tree.IsLinkFree)
    (h : (ensureDirectory p : StateM Session _).run s = (.ok (), s')) :
    s.disk.ChangesOnly s'.disk [] ∧ ((s'.disk.status p).isOk = true ∨ p.parent? = none) := by
  rw [ensureDirectory, run_bind, run_isPresent] at h
  by_cases hstatus : (s.disk.status p).isOk = true
  · rw [hstatus] at h
    cases h
    exact ⟨.refl _, .inl hstatus⟩
  · rw [if_neg hstatus, run_bind] at h
    cases hmake : (FileSystem.makeDirectories p : StateM Session (Except OsError Unit)).run s with
    | mk made t =>
    rw [hmake] at h
    cases made with
    | error e => cases h
    | ok =>
      cases h
      obtain ⟨hmakes, hpresent⟩ := makeDirectories_spec hs hmake
      refine ⟨hmakes, ?_⟩
      cases hparent : p.parent? with
      | none => exact .inr rfl
      | some up => exact .inl (hpresent (by rw [hparent]; rfl))

theorem run_ensureDirectory (h : (s.disk.status p).isOk = true ∨ p.parent? = none) :
    (ensureDirectory p : StateM Session _).run s = (.ok (), s) := by
  rw [ensureDirectory, run_bind, run_isPresent]
  by_cases hstatus : (s.disk.status p).isOk = true
  · rw [hstatus]
    rfl
  · rw [if_neg hstatus, run_bind, run_makeDirectories_of_none (h.resolve_left hstatus)]
    rfl

/-! ## Files -/

theorem writeInPlace_spec (h : (writeInPlace p text : StateM Session _).run s = (.ok (), s')) :
    s.disk.write p text = .ok s'.disk := by
  rw [writeInPlace, run_bind, run_write] at h
  cases hwrite : s.disk.write p text with
  | error e =>
    rw [hwrite] at h
    cases h
  | ok disk =>
    rw [hwrite] at h
    cases h
    rfl

/-- Writing a file stores it, and it can be written again, whatever is stored in between. -/
theorem writeFile_spec (hs : s.disk.tree.IsLinkFree)
    (h : (writeFile p text : StateM Session _).run s = (.ok (), s')) :
    s.disk.Stores s'.disk p text.toUTF8 ∧
      ∀ later : Disk, later.tree.IsLinkFree → s'.disk.Keeps later → later.CanStore p := by
  cases hdirectory : directoryOf? p with
  | none =>
    rw [writeFile, hdirectory] at h
    have hwrite := writeInPlace_spec h
    refine ⟨(Disk.stores_of_write hs hwrite).1, fun later _ hkeeps => ?_⟩
    exact Disk.canStore_of_write hs hwrite hkeeps fun _ hsome => by simp [hdirectory] at hsome
  | some directory =>
    rw [writeFile, hdirectory] at h
    dsimp only at h
    rw [run_bind] at h
    cases hensure : (ensureDirectory directory : StateM Session _).run s with
    | mk ensured u =>
    rw [hensure] at h
    cases ensured with
    | error problem => cases h
    | ok =>
      obtain ⟨hmakes, hpresent⟩ := ensureDirectory_spec hs hensure
      have hu := hmakes.isLinkFree_of_nil hs
      have hwrite := writeInPlace_spec h
      obtain ⟨hstores, _⟩ := Disk.stores_of_write hu hwrite
      refine ⟨hmakes.stores hstores, fun later hlater hkeeps => ?_⟩
      refine Disk.canStore_of_write hu hwrite hkeeps fun other hother => ?_
      obtain rfl : directory = other := Option.some.inj (hdirectory.symm.trans hother)
      exact hpresent.imp_left ((hstores.keeps.trans hkeeps).isOk_status hu hlater)

/-- A file is written where one can be, and nothing else is changed. -/
theorem run_writeFile_of_canStore (hs : s.disk.tree.IsLinkFree) (h : s.disk.CanStore p)
    (text : String) :
    ∃ s', (writeFile p text : StateM Session _).run s = (.ok (), s') ∧
      s'.disk = s.disk.put (s.disk.placeOf p) (.file text.toUTF8) := by
  refine ⟨{ s with disk := s.disk.put (s.disk.placeOf p) (.file text.toUTF8) }, ?_, rfl⟩
  have hwrite : (writeInPlace p text : StateM Session _).run s =
      (.ok (), { s with disk := s.disk.put (s.disk.placeOf p) (.file text.toUTF8) }) := by
    rw [writeInPlace, run_bind, run_write, h.write hs text]
    rfl
  cases hdirectory : directoryOf? p with
  | none => rw [writeFile, hdirectory, hwrite]
  | some directory =>
    rw [writeFile, hdirectory]
    dsimp only
    rw [run_bind, run_ensureDirectory (h.directory directory hdirectory)]
    exact hwrite

end Session

end ManifestAtlas
