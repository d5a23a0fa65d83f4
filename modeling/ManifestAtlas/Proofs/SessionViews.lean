import ManifestAtlas.CommandLine.Run

/-!
# What a step leaves alone

A view shows some part of a session.  `Leaves view step` says that the step
changes nothing that the view shows, wherever it starts.  Two views matter: the
file tree, and the `products` of a run, which are its file tree and its
standard output.

A step of several parts leaves what all of its parts leave (`Leaves.bind`,
`leaves_run_bind`), so that what is said about a whole command follows the
command's own text.  Looking at files leaves everything, the log leaves the
products, and so does everything that finds and loads configurations and
manifests (`leaves_loadManifest`, `leaves_scan`).
-/

namespace ManifestAtlas

namespace Session

/-- A step changes nothing that a view shows of the session. -/
def Leaves {α β : Type} (view : Session → β) (step : StateM Session α) : Prop :=
  ∀ s, view (step.run s).2 = view s

/-- What a run is for: its file tree and its standard output. -/
def products (s : Session) : Disk × String :=
  (s.disk, s.stdout)

section

variable {α β γ : Type} {view : Session → γ} {step : StateM Session α}

namespace Leaves

/-- A step that ends where it started leaves everything. -/
theorem of_run (h : ∀ s, (step.run s).2 = s) : Leaves view step :=
  fun s => congrArg view (h s)

theorem pure (a : α) : Leaves view (Pure.pure a : StateM Session α) :=
  fun _ => rfl

theorem bind {next : α → StateM Session β} (h : Leaves view step)
    (hnext : ∀ a, Leaves view (next a)) : Leaves view (step >>= next) := by
  intro s
  rw [run_bind]
  exact (hnext _ _).trans (h s)

theorem map (f : α → β) (h : Leaves view step) : Leaves view (f <$> step) :=
  h

/-- What leaves the products leaves the file tree. -/
theorem disk (h : Leaves products step) : Leaves Session.disk step :=
  fun s => congrArg Prod.fst (h s)

end Leaves

/-! ## Single operations -/

theorem leaves_disk_emit (event : Event) :
    Leaves Session.disk (Console.emit event : StateM Session Unit) :=
  fun _ => rfl

theorem stdout_emit (event : Event) (s : Session) :
    ((Console.emit event : StateM Session Unit).run s).2.stdout = s.stdout ++ event.stdout := by
  have hevents : ((Console.emit event : StateM Session Unit).run s).2.events =
      s.events ++ [event] := rfl
  rw [stdout, stdout, hevents, List.map_append, String.join_append]
  simp

/-- An event that is not for the standard output leaves the products. -/
theorem leaves_products_emit {event : Event} (h : event.stdout = "") :
    Leaves products (Console.emit event : StateM Session Unit) := by
  intro s
  rw [products, products, stdout_emit, h, String.append_empty]
  rfl

theorem leaves_log (level : Level) (text : String) :
    Leaves products (Console.log level text : StateM Session Unit) :=
  leaves_products_emit rfl

theorem leaves_isPresent (p : Path) : Leaves view (FileSystem.isPresent p : StateM Session Bool) :=
  .of_run fun _ => rfl

theorem leaves_isFile (p : Path) : Leaves view (FileSystem.isFile p : StateM Session Bool) :=
  .of_run fun _ => rfl

theorem leaves_isDirectory (p : Path) :
    Leaves view (FileSystem.isDirectory p : StateM Session Bool) :=
  .of_run fun _ => rfl

theorem leaves_walk (p : Path) (keeps : WalkEntry → Bool) :
    Leaves view (FileSystem.walk p keeps : StateM Session _) :=
  .of_run fun _ => rfl

theorem leaves_readText (p : Path) : Leaves view (FileSystem.readText p : StateM Session _) := by
  have hread : Leaves view (FileSystem.read p : StateM Session _) := .of_run fun _ => rfl
  rw [FileSystem.readText]
  refine hread.bind fun bytes => ?_
  cases bytes <;> exact .pure _

end

end Session

open Session

/-! ## Configurations -/

section

variable {γ : Type} {view : Session → γ}

theorem leaves_loadConfig (p : Path) : Leaves view (Config.load p : StateM Session _) := by
  rw [Config.load]
  refine (leaves_readText p).bind fun text => ?_
  cases text <;> exact .pure _

theorem leaves_loadOrDefault (p : Path) :
    Leaves products (Config.loadOrDefault p : StateM Session Config) := by
  rw [Config.loadOrDefault]
  refine (leaves_isPresent p).bind fun present => ?_
  cases present with
  | false => exact .pure _
  | true =>
    refine (leaves_loadConfig p).bind fun loaded => ?_
    cases loaded with
    | ok config => exact .pure _
    | error problem => exact (leaves_log _ _).bind fun _ => .pure _

theorem leaves_loadMerged (globalFile : Option Path) (projectRoot : Path) :
    Leaves products (Config.loadMerged globalFile projectRoot : StateM Session Config) := by
  have hproject : ∀ base : Config, Leaves products (do
      let project ← Config.loadOrDefault (Config.fileOf projectRoot)
      Pure.pure (base.merge (project.anchor projectRoot)) : StateM Session Config) :=
    fun base => (leaves_loadOrDefault _).bind fun _ => .pure _
  rw [Config.loadMerged.eq_def]
  cases globalFile with
  | none => exact (Leaves.pure _).bind hproject
  | some p => exact (leaves_loadOrDefault p).bind fun _ => (Leaves.pure _).bind hproject

theorem leaves_within (home : Option Path) (directory : Path) :
    Leaves products (Context.within home directory : StateM Session Context) :=
  (leaves_loadMerged _ directory).bind fun _ => .pure _

/-! ## Manifests -/

theorem leaves_findManifestIn (directory : Path) :
    Leaves view (findManifestIn directory : StateM Session _) := by
  rw [findManifestIn]
  refine (leaves_isFile _).bind fun first => (leaves_isFile _).bind fun second => ?_
  cases first <;> cases second <;> exact .pure _

theorem leaves_findManifestAmong (start : Path) (directories : List Path) :
    Leaves view (findManifestAmong start directories : StateM Session _) := by
  induction directories with
  | nil => exact .pure _
  | cons directory directories ih =>
    rw [findManifestAmong]
    refine (leaves_findManifestIn directory).bind fun found => ?_
    split
    · exact ih
    · exact .pure _

theorem leaves_resolveManifest (context : Context) (named : Option Path) :
    Leaves view (context.resolveManifest named : StateM Session _) := by
  rw [Context.resolveManifest]
  split
  · exact .pure _
  · exact leaves_findManifestAmong _ _

theorem leaves_load (p : Path) : Leaves products (Manifest.load p : StateM Session _) := by
  rw [Manifest.load]
  refine (leaves_readText p).bind fun text => ?_
  split
  · exact .pure _
  · split
    · exact .pure _
    · exact (leaves_log _ _).bind fun _ => .pure _

theorem leaves_loadManifest (context : Context) (named : Option Path) :
    Leaves products (context.loadManifest named : StateM Session _) := by
  rw [Context.loadManifest]
  refine (leaves_resolveManifest context named).bind fun resolved => ?_
  split
  · exact .pure _
  · refine (leaves_log _ _).bind fun _ => (leaves_load _).bind fun loaded => ?_
    split <;> exact .pure _

theorem leaves_reportFailures (walked : List Walked) :
    Leaves products (reportFailures walked : StateM Session Unit) := by
  induction walked with
  | nil => exact .pure _
  | cons w walked ih =>
    cases w with
    | entry e => exact ih
    | failure path e => exact (leaves_log _ _).bind fun _ => ih

theorem leaves_findManifestsBelow (root : Path) :
    Leaves products (findManifestsBelow root : StateM Session _) := by
  rw [findManifestsBelow]
  refine (leaves_walk root _).bind fun walked => (leaves_reportFailures walked).bind fun _ => ?_
  refine (leaves_isDirectory root).bind fun isDirectory => ?_
  split <;> exact .pure _

theorem leaves_loadEach (paths : List Path) :
    Leaves products (loadEach paths : StateM Session _) := by
  induction paths with
  | nil => exact .pure _
  | cons p paths ih => exact (leaves_load p).bind fun _ => ih.bind fun _ => .pure _

theorem leaves_scan (root : Path) : Leaves products (scan root : StateM Session _) := by
  rw [scan]
  refine (leaves_findManifestsBelow root).bind fun found => ?_
  split
  · exact .pure _
  · exact (leaves_log _ _).bind fun _ => (leaves_loadEach _).bind fun _ => .pure _

theorem leaves_loadIndex (p : Path) : Leaves view (ProjectIndex.load p : StateM Session _) := by
  rw [ProjectIndex.load]
  refine (leaves_readText p).bind fun text => ?_
  cases text <;> exact .pure _

end

/-! ## Commands in progress -/

namespace CommandLine

variable {α β ε γ : Type} {view : Session → γ}

/-- A step that no problem ends hands its value on. -/
theorem run_bind_of_ok {action : Action (StateM Session) α} {next : α → Action (StateM Session) β}
    {s : Session} {a : α} (h : (action.run.run s).1 = .ok a) :
    (action >>= next).run.run s = (next a).run.run (action.run.run s).2 := by
  rw [ExceptT.run_bind, run_bind, h]

theorem leaves_run_bind {action : Action (StateM Session) α} {next : α → Action (StateM Session) β}
    (h : Leaves view action.run) (hnext : ∀ a, Leaves view (next a).run) :
    Leaves view (action >>= next).run := by
  rw [ExceptT.run_bind]
  refine h.bind fun result => ?_
  cases result with
  | ok a => exact hnext a
  | error problem => exact .pure _

theorem leaves_attempt {step : StateM Session (Except ε α)} (problem : ε → Problem)
    (h : Leaves view step) : Leaves view (attempt problem step).run :=
  h.bind fun _ => .pure _

theorem leaves_present {event : Event}
    (h : Leaves view (Console.emit event : StateM Session Unit)) :
    Leaves view (present event : Action (StateM Session) Unit).run :=
  h.map _

theorem leaves_remark (lines : List String) :
    Leaves products (remark lines : Action (StateM Session) Unit).run := by
  induction lines with
  | nil => exact .pure _
  | cons line lines ih => exact leaves_run_bind (leaves_present (leaves_log _ _)) fun _ => ih

theorem leaves_showDiagnostics (coloured : Bool) (place : Path) (ds : List Diagnostic) :
    Leaves products (showDiagnostics coloured place ds : Action (StateM Session) Unit).run := by
  induction ds with
  | nil => exact .pure _
  | cons d ds ih => exact leaves_run_bind (leaves_present (leaves_products_emit rfl)) fun _ => ih

end CommandLine

end ManifestAtlas
