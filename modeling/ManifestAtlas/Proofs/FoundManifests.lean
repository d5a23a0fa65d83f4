import ManifestAtlas.Proofs.LoadedConfigs
import ManifestAtlas.Proofs.LongPaths
import ManifestAtlas.Proofs.PathOrder
import ManifestAtlas.Proofs.TreeWalks
import ManifestAtlas.Workspace.Load

/-!
# Finding every manifest

A walk for manifests goes through the directories that are not skipped for their
names (`enters_isSearched_iff`).  The files it comes to that have the name of a
manifest are found (`mem_manifestsOf_walk`), and sorting them by their paths puts
every one of them before the next (`pairwise_manifestsOf`).  A scan loads each of
them as it is on the disk (`run_scan`), so that another content in one file is
seen in its own entry only (`scanned_put`, `manifestsOf_walk_put`).

A directory is opened by the path that leads to it from the root of the walk.
Where that path is longer than the system takes (`Path.IsOpenable`), the walk
warns of the directory and goes on: the manifest of `longNameDisk` is not found.
-/

namespace ManifestAtlas

open FileTree

/-! ## Manifests below a directory -/

theorem isManifestName_iff {name : String} :
    isManifestName name = true ↔ name = manifestName ∨ name = manifestOtherName := by
  simp [isManifestName]

/-- There is a manifest below a place: a file with the name of a manifest, in a directory that no
skipped directory leads to. -/
structure FileTree.HasManifest (tree : FileTree) (place : Place) (front : List String)
    (name : String) : Prop where
  isManifest : name = manifestName ∨ name = manifestOtherName
  notSkipped : ∀ folder ∈ front, folder ∉ skippedNames
  isFile : ∃ content, tree.find? (place ++ (front ++ [name])) = some (.file content)

/-- Below its root, a walk for manifests enters the directories that are not skipped for their
names. -/
theorem enters_isSearched_iff {depth : Nat} {p : Path} {front : List String} :
    Enters isSearched depth p front ↔ ∀ folder ∈ front, folder ∉ skippedNames := by
  induction front generalizing depth p with
  | nil => simp [Enters]
  | cons folder front ih =>
    rw [Enters, ih, List.forall_mem_cons]
    refine and_congr_left fun _ => ?_
    simp [isSearched]

theorem isSearched_of_file {e : WalkEntry} (h : e.type = .file) : isSearched e = true := by
  simp [isSearched, h]

theorem isSearched_root (root : Path) (type : EntryType) :
    isSearched (.root root type) = true := by
  simp [isSearched, WalkEntry.root]

/-! ## The list of manifests -/

section

variable {disk : Disk} {root p : Path} {place : Place}

theorem mem_manifestsOf {walked : List Walked} :
    p ∈ manifestsOf walked ↔
      ∃ e, .entry e ∈ walked ∧ e.type = .file ∧ isManifestName e.name = true ∧ p = e.path := by
  rw [manifestsOf, List.mem_mergeSort, List.mem_filterMap]
  constructor
  · rintro ⟨w, hw, hpath⟩
    cases w with
    | entry e =>
      dsimp only at hpath
      split at hpath
      · rename_i hfile
        exact ⟨e, hw, hfile.1, hfile.2, (Option.some.inj hpath).symm⟩
      · cases hpath
    | failure path e => cases hpath
  · rintro ⟨e, hw, htype, hname, rfl⟩
    exact ⟨_, hw, if_pos ⟨htype, hname⟩⟩

/-- An entry that is no file is no manifest. -/
theorem manifestsOf_cons {e : WalkEntry} (h : e.type ≠ .file) (walked : List Walked) :
    manifestsOf (.entry e :: walked) = manifestsOf walked := by
  simp [manifestsOf, h]

/-- Looking at a directory, through a link at the end of its path or not, a walk finds the manifests
below it. -/
theorem manifestsOf_walk (h : disk.resolve .look root = .ok (.present place .directory)) :
    manifestsOf (disk.walk root isSearched) =
      manifestsOf (disk.tree.walkBelow isSearched 0 place root) := by
  have husable := Disk.isUsable_of_resolve h
  have hlook := h
  rw [Disk.resolve_of_isUsable husable] at hlook
  rw [Disk.walk, Disk.resolve_of_isUsable husable]
  rcases follow_inspect_of_look hlook with hsame | ⟨q, target, hlink⟩
  · rw [hsame]
    dsimp only
    rw [if_pos (isSearched_root root .directory)]
    exact manifestsOf_cons (by simp [WalkEntry.root]) _
  · rw [hlink]
    dsimp only
    rw [h]
    dsimp only
    rw [Walked.ifKept, if_pos (isSearched_root root .link)]
    exact manifestsOf_cons (by simp [WalkEntry.root]) _

/-- The manifests that are found are those that no skipped directory leads to, in directories that
can be opened. -/
theorem mem_manifestsOf_walk (htree : disk.tree.IsProper)
    (h : disk.resolve .look root = .ok (.present place .directory)) :
    p ∈ manifestsOf (disk.walk root isSearched) ↔
      ∃ front name, p = (root.below front).child name ∧ disk.tree.HasManifest place front name ∧
        (root.below front).IsOpenable := by
  rw [manifestsOf_walk h, mem_manifestsOf]
  constructor
  · rintro ⟨e, hentry, htype, hname, rfl⟩
    obtain ⟨front, name, entry, hmem, rfl, -, henters, hopen⟩ :=
      htree.entry_mem_walkBelow_iff.1 hentry
    obtain ⟨content, rfl⟩ := FileEntry.type_eq_file_iff.1 htype
    have hfile := (htree.find?_eq_some_iff (by simp)).2 hmem
    exact ⟨front, name, rfl,
      ⟨isManifestName_iff.1 hname, enters_isSearched_iff.1 henters, content, hfile⟩, hopen⟩
  · rintro ⟨front, name, rfl, ⟨hname, hkept, content, hfile⟩, hopen⟩
    have hmem := (htree.find?_eq_some_iff (by simp)).1 hfile
    refine ⟨entryBehind 0 root front name .file, ?_, rfl, isManifestName_iff.2 hname, rfl⟩
    exact htree.entry_mem_walkBelow_iff.2 ⟨front, name, .file content, hmem, rfl,
      isSearched_of_file rfl, enters_isSearched_iff.2 hkept, hopen⟩

/-- The manifests that a walk finds come one before the other. -/
theorem pairwise_manifestsOf (htree : disk.tree.IsProper)
    (h : disk.resolve .look root = .ok (.present place .directory)) :
    (manifestsOf (disk.walk root isSearched)).Pairwise Path.Precedes := by
  rw [manifestsOf_walk h]
  refine Path.pairwise_precedes_sorted ?_
  rw [List.Nodup, List.pairwise_map, List.pairwise_filterMap]
  refine htree.pairwise_walkBelow.imp fun {v w} happart p hp q hq => ?_
  cases v with
  | entry e =>
    cases w with
    | entry f =>
      dsimp only at hp hq
      split at hp
      · split at hq
        · obtain rfl := Option.some.inj hp
          obtain rfl := Option.some.inj hq
          exact happart e f rfl rfl
        · cases hq
      · cases hp
    | failure => cases hq
  | failure => cases hp

end

/-! ## Runs -/

/-- The manifest that is loaded from a file, or the reason why it cannot be. -/
def Disk.loadedManifest (disk : Disk) (p : Path) : Except ManifestProblem Manifest :=
  match disk.read p with
  | .error e => .error (.unreadable p e)
  | .ok bytes =>
    match String.fromUTF8? bytes with
    | some text => Manifest.decode text
    | none => .error (.unreadable p (.other "stream did not contain valid UTF-8"))

/-- The entry of a scan for a file. -/
def Disk.scanned (disk : Disk) (p : Path) : ScannedManifest :=
  ⟨p, (disk.loadedManifest p).mapError ManifestProblem.message⟩

section

variable (s : Session) {root : Path}

theorem run_loadManifest (p : Path) :
    ((Manifest.load p : StateM Session _).run s).1 = s.disk.loadedManifest p ∧
      ((Manifest.load p : StateM Session _).run s).2.disk = s.disk := by
  rw [Manifest.load, Session.run_bind, Session.run_readText, Disk.loadedManifest]
  cases s.disk.read p with
  | error e => exact ⟨rfl, rfl⟩
  | ok bytes =>
    dsimp only
    cases String.fromUTF8? bytes with
    | none => exact ⟨rfl, rfl⟩
    | some text =>
      dsimp only
      cases Manifest.decode text with
      | error problem => exact ⟨rfl, rfl⟩
      | ok manifest => exact ⟨rfl, rfl⟩

/-- Each file is loaded as it is on the disk, which stays as it is. -/
theorem run_loadEach (paths : List Path) :
    ((loadEach paths : StateM Session _).run s).1 = paths.map s.disk.scanned ∧
      ((loadEach paths : StateM Session _).run s).2.disk = s.disk := by
  induction paths generalizing s with
  | nil => exact ⟨rfl, rfl⟩
  | cons p paths ih =>
    obtain ⟨hload, hdisk⟩ := run_loadManifest s p
    obtain ⟨hrest, hrestDisk⟩ := ih ((Manifest.load p : StateM Session _).run s).2
    rw [hdisk] at hrest hrestDisk
    rw [loadEach, Session.run_bind, Session.run_bind]
    refine ⟨?_, hrestDisk⟩
    rw [List.map_cons, ← hrest, Disk.scanned, ← hload]
    rfl

theorem run_reportFailures (walked : List Walked) :
    ((reportFailures walked : StateM Session Unit).run s).2.disk = s.disk := by
  induction walked generalizing s with
  | nil => rfl
  | cons w walked ih =>
    cases w with
    | entry e => exact ih s
    | failure path e =>
      rw [reportFailures, Session.run_bind]
      exact ih _

theorem run_findManifestsBelow (h : s.disk.status root = .ok .directory) :
    ((findManifestsBelow root : StateM Session _).run s).1 =
        .ok (manifestsOf (s.disk.walk root isSearched)) ∧
      ((findManifestsBelow root : StateM Session _).run s).2.disk = s.disk := by
  have hwalk : (FileSystem.walk root isSearched : StateM Session _).run s =
      (s.disk.walk root isSearched, s) := rfl
  have hdisk := run_reportFailures s (s.disk.walk root isSearched)
  rw [findManifestsBelow, Session.run_bind, hwalk]
  dsimp only
  rw [Session.run_bind, Session.run_bind, Session.run_isDirectory, hdisk, h]
  simp only [Bool.not_true, Bool.and_false]
  exact ⟨rfl, hdisk⟩

theorem run_scan (h : s.disk.status root = .ok .directory) :
    ((scan root : StateM Session _).run s).1 =
        .ok ((manifestsOf (s.disk.walk root isSearched)).map s.disk.scanned) ∧
      ((scan root : StateM Session _).run s).2.disk = s.disk := by
  obtain ⟨hfound, hdisk⟩ := run_findManifestsBelow s h
  rw [scan, Session.run_bind, hfound]
  generalize ((findManifestsBelow root : StateM Session _).run s).2 = after at hdisk ⊢
  obtain ⟨disk, events⟩ := after
  obtain rfl : disk = s.disk := hdisk
  have hentries := fun events => run_loadEach ⟨s.disk, events⟩
    (manifestsOf (s.disk.walk root isSearched))
  exact ⟨congrArg Except.ok (hentries (events ++ [_])).1, (hentries (events ++ [_])).2⟩

end

/-! ## Changed files -/

section

variable {disk : Disk} {root : Path} {place q : Place} {front : List String} {name : String}
  {content other : ByteArray}

theorem isFileName_of_hasManifest (htree : disk.tree.IsProper)
    (h : disk.tree.HasManifest place front name) : ∀ n ∈ front ++ [name], IsFileName n := by
  obtain ⟨content, hfile⟩ := h.isFile
  have hmem := (htree.find?_eq_some_iff (by simp)).1 hfile
  exact fun n hn => htree.names _ hmem n (List.mem_append_right _ hn)

/-- The path of a manifest that is found leads to it, if it is short enough. -/
theorem resolve_manifest (htree : disk.tree.IsProper)
    (hroot : disk.resolve .look root = .ok (.present place .directory))
    (h : disk.tree.HasManifest place front name)
    (hfile : disk.tree.find? (place ++ (front ++ [name])) = some (.file content))
    (hopen : ((root.below front).child name).IsOpenable) :
    disk.resolve .look ((root.below front).child name) =
      .ok (.present (place ++ (front ++ [name])) (.file content)) := by
  have hnames := List.forall_mem_append.1 (isFileName_of_hasManifest htree h)
  have hname : IsFileName name := hnames.2 name (by simp)
  have hmem := (htree.find?_eq_some_iff (by simp)).1 hfile
  have hdirectories : ∀ above rest, front = above ++ rest → above ≠ [] →
      disk.tree.find? (place ++ above) = some .directory := by
    rintro above rest rfl -
    have hbelow : (place ++ above ++ (rest ++ [name]), .file content) ∈ disk.tree.entries := by
      simpa using hmem
    exact htree.find?_prefix (by simp) hbelow
  have hfolder := Disk.resolve_below hroot hnames.1 hdirectories
    (Nat.le_trans (Path.utf8ByteSize_le_child hname _) hopen)
  rw [← List.append_assoc] at hfile ⊢
  rw [Disk.resolve_child hname hfolder hopen fun target => by rw [hfile]; simp, hfile]

/-- Another content in a file changes nothing for the other manifests. -/
theorem scanned_put (htree : disk.tree.IsProper)
    (hroot : disk.resolve .look root = .ok (.present place .directory))
    (h : disk.tree.HasManifest place front name)
    (hq : disk.tree.find? q = some (.file content)) (hne : place ++ (front ++ [name]) ≠ q) :
    (disk.put q (.file other)).scanned ((root.below front).child name) =
      disk.scanned ((root.below front).child name) := by
  have hread : (disk.put q (.file other)).read ((root.below front).child name) =
      disk.read ((root.below front).child name) := by
    rw [Disk.read, Disk.read]
    by_cases hopen : ((root.below front).child name).IsOpenable
    · obtain ⟨found, hfile⟩ := h.isFile
      have hresolve := resolve_manifest htree hroot h hfile hopen
      rw [Disk.resolve_put hq hresolve hne, hresolve]
    · rw [Disk.resolve_congr_of_long (Nat.lt_of_not_le hopen) (disk.put q (.file other)) disk]
  simp only [Disk.scanned, Disk.loadedManifest, hread]

theorem hasManifest_put (hq : disk.tree.find? q = some (.file content)) :
    (disk.put q (.file other)).tree.HasManifest place front name ↔
      disk.tree.HasManifest place front name := by
  have hfiles : ∀ p, (∃ c, (disk.put q (.file other)).tree.find? p = some (.file c)) ↔
      ∃ c, disk.tree.find? p = some (.file c) := by
    intro p
    by_cases hp : p = q
    · subst hp
      have hne : p ≠ [] := by
        rintro rfl
        simp [find?] at hq
      exact ⟨fun _ => ⟨content, hq⟩, fun _ => ⟨other, find?_insert_self hne _⟩⟩
    · have hsame : (disk.put q (.file other)).tree.find? p = disk.tree.find? p :=
        find?_insert_of_ne hp _
      rw [hsame]
  constructor
  · rintro ⟨hname, hkept, hfile⟩
    exact ⟨hname, hkept, (hfiles _).1 hfile⟩
  · rintro ⟨hname, hkept, hfile⟩
    exact ⟨hname, hkept, (hfiles _).2 hfile⟩

/-- The same manifests are found when a file has another content. -/
theorem manifestsOf_walk_put (htree : disk.tree.IsProper)
    (hroot : disk.resolve .look root = .ok (.present place .directory))
    (hq : disk.tree.find? q = some (.file content)) (hne : place ≠ q) :
    manifestsOf ((disk.put q (.file other)).walk root isSearched) =
      manifestsOf (disk.walk root isSearched) := by
  have htree' : (disk.put q (.file other)).tree.IsProper := htree.insert hq
  have hroot' : (disk.put q (.file other)).resolve .look root = .ok (.present place .directory) :=
    Disk.resolve_put hq hroot hne
  refine Path.eq_of_pairwise_precedes ?_ ?_ fun p => ?_
  · exact pairwise_manifestsOf htree' hroot'
  · exact pairwise_manifestsOf htree hroot
  · rw [mem_manifestsOf_walk htree' hroot', mem_manifestsOf_walk htree hroot]
    simp only [hasManifest_put hq]

end

/-! ## The scan of a directory -/

/-- For every proper tree and every root that leads to a directory, the manifests that are found
come one before the other, component by component.  They are the files with the name of a manifest
that no skipped directory leads to, as long as the directories they lie in can be opened by their
paths.  The scan has one entry for each, in the same order, and another content in one of the files
changes no entry but its own. -/
theorem scan_lists_every_manifest {s : Session} {root : Path} (htree : s.disk.tree.IsProper)
    (hroot : s.disk.status root = .ok .directory) :
    ∃ place found, s.disk.resolve .look root = .ok (.present place .directory) ∧
      ((findManifestsBelow root : StateM Session _).run s).1 = .ok found ∧
      found.Pairwise Path.Precedes ∧
      (∀ p, p ∈ found ↔ ∃ front name, p = (root.below front).child name ∧
        s.disk.tree.HasManifest place front name ∧ (root.below front).IsOpenable) ∧
      ((scan root : StateM Session _).run s).1 = .ok (found.map s.disk.scanned) ∧
      ∀ front name content events, s.disk.tree.HasManifest place front name →
        ((scan root : StateM Session _).run
            ⟨s.disk.put (place ++ (front ++ [name])) (.file content), events⟩).1 =
          .ok (found.map fun p =>
            if p = (root.below front).child name then
              (s.disk.put (place ++ (front ++ [name])) (.file content)).scanned p
            else s.disk.scanned p) := by
  obtain ⟨place, hplace⟩ := Disk.exists_resolve_of_status hroot
  have hmem : ∀ p, p ∈ manifestsOf (s.disk.walk root isSearched) ↔ _ := fun p =>
    mem_manifestsOf_walk htree hplace
  refine ⟨place, manifestsOf (s.disk.walk root isSearched), hplace,
    (run_findManifestsBelow s hroot).1, ?_, hmem, (run_scan s hroot).1, ?_⟩
  · exact pairwise_manifestsOf htree hplace
  · intro front name content events hfound
    -- the list stays as it is, and an entry that changes is the one for the file itself
    obtain ⟨before, hfile⟩ := hfound.isFile
    have hne : place ≠ place ++ (front ++ [name]) := by simp
    have hstatus : (s.disk.put (place ++ (front ++ [name])) (.file content)).status root =
        .ok .directory := by
      rw [Disk.status, Disk.resolve_put hfile hplace hne]
    refine (run_scan ⟨s.disk.put _ _, events⟩ hstatus).1.trans ?_
    rw [manifestsOf_walk_put htree hplace hfile hne]
    congr 1
    refine List.map_congr_left fun p hp => ?_
    split
    · rfl
    · rename_i hother
      obtain ⟨above, other, rfl, hmanifest, -⟩ := (hmem p).1 hp
      refine scanned_put htree hplace hmanifest hfile fun heq => hother ?_
      rw [← Path.below_append, ← Path.below_append, List.append_cancel_left heq]

/-- A project with a manifest of its own, one in a part of it, and one among what was built. -/
def shopDisk : Disk :=
  ⟨⟨[(["shop"], .directory), (["shop", "manifest.json"], .file ByteArray.empty),
    (["shop", "target"], .directory), (["shop", "target", "manifest.json"], .file ByteArray.empty),
    (["shop", "cart"], .directory),
    (["shop", "cart", "logic-manifest.json"], .file ByteArray.empty)]⟩, []⟩

theorem shopDisk_isProper : shopDisk.tree.IsProper := by
  refine ⟨by decide +kernel, by decide +kernel, by decide +kernel, ?_⟩
  simp [shopDisk, find?]

/-- The two manifests that nothing skipped leads to are found, in the order of their paths. -/
theorem shopDisk_lists_two_manifests :
    shopDisk.tree.IsProper ∧ shopDisk.status ⟨"/shop"⟩ = .ok .directory ∧
      ((findManifestsBelow ⟨"/shop"⟩ : StateM Session _).run (.start shopDisk)).1 =
        .ok [⟨"/shop/cart/logic-manifest.json"⟩, ⟨"/shop/manifest.json"⟩] := by
  have htree := shopDisk_isProper
  have hresolve : shopDisk.resolve .look ⟨"/shop"⟩ = .ok (.present ["shop"] .directory) := by
    simp +decide [Disk.resolve, Path.segments, splitSlashes, FileTree.follow, FileTree.find?,
      shopDisk]
  have hstatus : shopDisk.status ⟨"/shop"⟩ = .ok .directory := by
    rw [Disk.status, hresolve]
  refine ⟨htree, hstatus, ?_⟩
  obtain ⟨place, found, hplace, hfound, hsorted, hmem, -⟩ :=
    @scan_lists_every_manifest (.start shopDisk) ⟨"/shop"⟩ htree hstatus
  obtain rfl : ["shop"] = place := by
    injection hresolve.symm.trans hplace with hpresent
    injection hpresent
  rw [hfound]
  congr 1
  refine Path.eq_of_pairwise_precedes hsorted (by decide +kernel) fun p => ?_
  rw [hmem, List.mem_pair]
  constructor
  · rintro ⟨front, name, rfl, ⟨-, hkept, content, hfile⟩, -⟩
    have hentry := (htree.find?_eq_some_iff (by simp)).1 hfile
    obtain ⟨hnames, -⟩ | ⟨hnames, -⟩ | ⟨hnames, -⟩ :
        front ++ [name] = [] ++ ["manifest.json"] ∧ content = .empty ∨
        front ++ [name] = ["target"] ++ ["manifest.json"] ∧ content = .empty ∨
        front ++ [name] = ["cart"] ++ ["logic-manifest.json"] ∧ content = .empty := by
      simpa [shopDisk] using hentry
    · obtain ⟨rfl, hlast⟩ := List.append_inj' hnames rfl
      obtain rfl := List.singleton_inj.1 hlast
      exact .inr (by decide +kernel)
    · obtain ⟨rfl, -⟩ := List.append_inj' hnames rfl
      exact absurd (hkept "target" (by simp)) (by decide)
    · obtain ⟨rfl, hlast⟩ := List.append_inj' hnames rfl
      obtain rfl := List.singleton_inj.1 hlast
      exact .inl (by decide +kernel)
  · rintro (rfl | rfl)
    · exact ⟨["cart"], "logic-manifest.json", by decide +kernel,
        ⟨.inl rfl, by decide, ByteArray.empty, rfl⟩, by decide +kernel⟩
    · exact ⟨[], "manifest.json", by decide +kernel,
        ⟨.inr rfl, by decide, ByteArray.empty, rfl⟩, by decide +kernel⟩

/-! ## Directories that cannot be opened -/

theorem longName_notMem_skippedNames : longName ∉ skippedNames := by
  have hsize : ∀ name ∈ skippedNames, name.utf8ByteSize ≠ 200 := by decide
  exact fun h => longName_ne (hsize _ h) rfl

/-- A directory with a long name that has a manifest in it. -/
def longNameDisk : Disk :=
  ⟨⟨[([longName], .directory), ([longName, "manifest.json"], .file ByteArray.empty)]⟩, []⟩

theorem longNameDisk_isProper : longNameDisk.tree.IsProper := by
  have hname : IsFileName "manifest.json" := by decide
  refine ⟨by simp [longNameDisk], by simp [longNameDisk], ?_, ?_⟩
  · simp [longNameDisk, isFileName_longName, hname]
  · simp [longNameDisk, find?]

/-- From a root that is spelled with too many slashes, the only manifest there is is not found: the
path of its directory is too long. -/
theorem longNameDisk_lists_nothing :
    longNameDisk.tree.IsProper ∧ longNameDisk.status (.slashes 3999) = .ok .directory ∧
      longNameDisk.resolve .look (.slashes 3999) = .ok (.present [] .directory) ∧
      longNameDisk.tree.HasManifest [] [longName] "manifest.json" ∧
      ((findManifestsBelow (.slashes 3999) : StateM Session _).run (.start longNameDisk)).1 =
        .ok [] := by
  have htree := longNameDisk_isProper
  have hroot := Disk.resolve_slashes (by decide : 3999 < maxPathBytes) longNameDisk
  have hstatus : longNameDisk.status (.slashes 3999) = .ok .directory := by
    rw [Disk.status, hroot]
  refine ⟨htree, hstatus, hroot, ⟨.inr rfl, ?_, ByteArray.empty, ?_⟩, ?_⟩
  · exact List.forall_mem_singleton.2 longName_notMem_skippedNames
  · exact (htree.find?_eq_some_iff (by simp)).2 (by simp [longNameDisk])
  · rw [(run_findManifestsBelow (.start longNameDisk) hstatus).1]
    congr 1
    refine List.eq_nil_iff_forall_not_mem.2 fun p hp => ?_
    obtain ⟨front, name, -, ⟨-, -, content, hfile⟩, hopen⟩ :=
      (mem_manifestsOf_walk htree hroot).1 hp
    have hentry := (htree.find?_eq_some_iff (by simp)).1 hfile
    obtain ⟨hnames, -⟩ : front ++ [name] = [longName] ++ ["manifest.json"] ∧ content = .empty := by
      simpa [longNameDisk, Session.start] using hentry
    obtain ⟨rfl, -⟩ := List.append_inj' hnames rfl
    exact not_isOpenable_longName (by decide) hopen

end ManifestAtlas
