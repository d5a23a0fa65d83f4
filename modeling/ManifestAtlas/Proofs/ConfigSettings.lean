import ManifestAtlas.Proofs.LoadedConfigs

/-!
# What a configuration file sets

A `ConfigKey` is looked at in two ways: what a text sets it to
(`ConfigKey.settingOf`), and what a configuration holds for it
(`ConfigKey.held`).  A decoded text holds what it sets, and the default for the
rest (`held_of_decode`).

The rule for two files is `ConfigKey.precedence`: the project's setting, or else
the global one, or else the default.  The main statement says how far the merged
configuration follows it: always, but for a project that lifts the global denial
of warnings, which stays in force.
-/

namespace ManifestAtlas

/-- A key of a configuration file. -/
inductive ConfigKey where
  | manifest
  | outDir
  | denyWarnings
  deriving DecidableEq, Repr

/-- What a key is set to. -/
inductive Setting where
  | path (p : Path)
  | flag (value : Bool)
  deriving DecidableEq, Repr

/-- The setting that a TOML value is. -/
def Setting.ofValue? : Toml.Value → Option Setting
  | .string s => some (.path ⟨s⟩)
  | .boolean b => some (.flag b)
  | _ => none

/-- The value under a key of a table. -/
def Toml.memberOf (key : String) (members : List (String × Toml.Value)) : Option Toml.Value :=
  (members.find? fun m => m.1 = key).map Prod.snd

/-- The value of a group with a single key: under the key, or first in an array. -/
def Toml.groupMember? (key : String) : Toml.Value → Option Toml.Value
  | .table members => memberOf key members
  | .array entries => entries.head?
  | _ => none

namespace ConfigKey

/-- The value of a key in a document. -/
def valueIn (members : List (String × Toml.Value)) : ConfigKey → Option Toml.Value
  | .manifest => Toml.memberOf "manifest" members
  | .outDir => (Toml.memberOf "render" members).bind (Toml.groupMember? "out_dir")
  | .denyWarnings => (Toml.memberOf "lint" members).bind (Toml.groupMember? "deny_warnings")

/-- What a text sets a key to, if it does. -/
def settingOf (key : ConfigKey) (text : String) : Option Setting :=
  (Toml.decode text).bind fun members => (key.valueIn members).bind Setting.ofValue?

/-- What a configuration holds for a key. -/
def held (config : Config) : ConfigKey → Option Setting
  | .manifest => config.manifest.map .path
  | .outDir => config.outDir.map .path
  | .denyWarnings => some (.flag config.denyWarnings)

/-- A setting as it counts outside the project's directory: the path of a manifest is seen from
there. -/
def anchored (root : Path) : ConfigKey → Setting → Setting
  | .manifest, .path p => .path (root.join p)
  | _, setting => setting

/-- What holds for a key when the project takes precedence over the global settings, and these
over the default. -/
def precedence (key : ConfigKey) (root : Path) (global project : String) : Option Setting :=
  ((key.settingOf project).map (key.anchored root)).or
    ((key.settingOf global).or (key.held .default))

end ConfigKey

/-! ## One file -/

namespace Config

variable {α : Type} {key : String} {decode : Toml.Value → Option α}

/-- A member that was decoded is what stands under the key. -/
theorem member?_eq_some {members : List (String × Toml.Value)} {o : Option α}
    (h : member? key decode members = some o) {view : Toml.Value → Option Setting}
    {f : α → Option Setting} (hview : ∀ v a, decode v = some a → view v = f a) :
    (Toml.memberOf key members).bind view = o.bind f := by
  rw [member?] at h
  rw [Toml.memberOf]
  cases hfind : members.find? (fun m => m.1 = key) with
  | none =>
    rw [hfind] at h
    cases h
    rfl
  | some m =>
    rw [hfind] at h
    obtain ⟨a, ha, rfl⟩ := Option.map_eq_some_iff.1 h
    exact hview _ a ha

theorem group?_eq_some {v : Toml.Value} {o : Option α} (h : group? key decode v = some o)
    {view : Toml.Value → Option Setting} {f : α → Option Setting}
    (hview : ∀ v a, decode v = some a → view v = f a) :
    (Toml.groupMember? key v).bind view = o.bind f := by
  match v with
  | .table members => exact member?_eq_some h hview
  | .array [] =>
    cases h
    rfl
  | .array (v :: _) =>
    obtain ⟨a, ha, rfl⟩ := Option.map_eq_some_iff.1 h
    exact hview v a ha
  | .quantity (.moment _) =>
    cases h
    rfl

theorem ofValue?_of_path? {v : Toml.Value} {p : Path} (h : path? v = some p) :
    Setting.ofValue? v = some (.path p) := by
  cases v <;> cases h
  rfl

theorem ofValue?_of_boolean? {v : Toml.Value} {b : Bool} (h : boolean? v = some b) :
    Setting.ofValue? v = some (.flag b) := by
  cases v <;> cases h
  rfl

end Config

open Config in
/-- A configuration that was decoded holds what its text sets, and else the default. -/
theorem ConfigKey.held_of_decode {text : String} {config : Config}
    (h : Config.decode text = some config) (key : ConfigKey) :
    key.held config = (key.settingOf text).or (key.held .default) := by
  obtain ⟨members, hmembers, h⟩ := Option.bind_eq_some_iff.1 h
  obtain ⟨manifest, hmanifest, h⟩ := Option.bind_eq_some_iff.1 h
  obtain ⟨outDir, houtDir, h⟩ := Option.bind_eq_some_iff.1 h
  obtain ⟨denyWarnings, hdeny, h⟩ := Option.bind_eq_some_iff.1 h
  cases h
  rw [settingOf, hmembers, Option.bind_some]
  cases key with
  | manifest =>
    rw [valueIn, member?_eq_some hmanifest fun v p => ofValue?_of_path?]
    cases manifest <;> rfl
  | outDir =>
    have hgroup := member?_eq_some houtDir fun v o ho =>
      group?_eq_some ho fun v p => ofValue?_of_path?
    rw [valueIn, Option.bind_assoc, hgroup]
    rcases outDir with _ | _ | p <;> rfl
  | denyWarnings =>
    have hgroup := member?_eq_some hdeny fun v o ho =>
      group?_eq_some ho fun v b => ofValue?_of_boolean?
    rw [valueIn, Option.bind_assoc, hgroup]
    rcases denyWarnings with _ | _ | b <;> rfl

/-! ## Two files -/

/-- A project lifts the global denial of warnings. -/
def LiftsDenial (global project : String) : Prop :=
  ConfigKey.denyWarnings.settingOf project = some (.flag false) ∧
    ConfigKey.denyWarnings.settingOf global = some (.flag true)

instance (global project : String) : Decidable (LiftsDenial global project) :=
  inferInstanceAs (Decidable (_ ∧ _))

namespace ConfigKey

variable {global project : String} {base own : Config}

/-- The paths of a project's configuration come before the global ones. -/
theorem held_merge_of_ne (hglobal : Config.decode global = some base)
    (hproject : Config.decode project = some own) {key : ConfigKey} (hkey : key ≠ .denyWarnings)
    (root : Path) :
    key.held (base.merge (own.anchor root)) = key.precedence root global project := by
  have hbase := held_of_decode hglobal key
  have hown := held_of_decode hproject key
  cases key with
  | denyWarnings => exact absurd rfl hkey
  | manifest =>
    simp only [held, Config.default, Option.map_none, Option.or_none] at hbase hown
    rw [precedence, ← hbase, ← hown, held, Config.merge, Config.anchor]
    cases own.manifest <;> cases base.manifest <;> rfl
  | outDir =>
    simp only [held, Config.default, Option.map_none, Option.or_none] at hbase hown
    rw [precedence, ← hbase, ← hown, held, Config.merge, Config.anchor]
    cases own.outDir <;> cases base.outDir <;> rfl

theorem settingOf_denyWarnings {text : String} {config : Config}
    (h : Config.decode text = some config) :
    settingOf .denyWarnings text = none ∧ config.denyWarnings = false ∨
      settingOf .denyWarnings text = some (.flag config.denyWarnings) := by
  have hheld := held_of_decode h .denyWarnings
  cases hsetting : settingOf .denyWarnings text with
  | none =>
    rw [hsetting] at hheld
    exact .inl ⟨rfl, by simpa [held, Config.default] using hheld⟩
  | some setting =>
    rw [hsetting, Option.some_or] at hheld
    exact .inr hheld.symm

/-- A denial of warnings in either file is in force, also one that the project lifts. -/
theorem held_merge_denyWarnings (hglobal : Config.decode global = some base)
    (hproject : Config.decode project = some own) (root : Path) :
    held (base.merge (own.anchor root)) .denyWarnings =
      if LiftsDenial global project then some (.flag true)
      else precedence .denyWarnings root global project := by
  have hmerged : held (base.merge (own.anchor root)) .denyWarnings =
      some (.flag (base.denyWarnings || own.denyWarnings)) := rfl
  have hdefault : held .default .denyWarnings = some (.flag false) := rfl
  simp only [hmerged, LiftsDenial, precedence, hdefault]
  rcases settingOf_denyWarnings hproject with ⟨hown, hfalse⟩ | hown
  · rw [hown, hfalse, Bool.or_false]
    rcases settingOf_denyWarnings hglobal with ⟨hbase, hfalse⟩ | hbase
    · simp [hbase, hfalse]
    · simp [hbase]
  · rw [hown]
    cases own.denyWarnings with
    | true => simp [anchored]
    | false =>
      rw [Bool.or_false]
      rcases settingOf_denyWarnings hglobal with ⟨hbase, hfalse⟩ | hbase
      · simp [hbase, hfalse, anchored]
      · cases hdeny : base.denyWarnings <;> simp [hbase, hdeny, anchored]

end ConfigKey

/-- For two texts that decode, the merged configuration holds for every key what the project sets,
or else what the global text sets, or else the default; except that a project cannot lift the
global denial of warnings. -/
theorem loadMerged_follows_precedence {s : Session} {globalFile root : Path}
    {global project : String} (hglobalFile : s.disk.read globalFile = .ok global.toUTF8)
    (hprojectFile : s.disk.read (Config.fileOf root) = .ok project.toUTF8)
    (hglobal : (Config.decode global).isSome = true)
    (hproject : (Config.decode project).isSome = true) (key : ConfigKey) :
    key.held ((Config.loadMerged (some globalFile) root : StateM Session Config).run s).1 =
      if key = .denyWarnings ∧ LiftsDenial global project then some (.flag true)
      else key.precedence root global project := by
  obtain ⟨base, hbase⟩ := Option.isSome_iff_exists.1 hglobal
  obtain ⟨own, hown⟩ := Option.isSome_iff_exists.1 hproject
  rw [(Session.run_loadMerged _ _ s).1, Disk.mergedConfig, Option.elim_some,
    Disk.configAt_of_read hglobalFile hbase, Disk.configAt_of_read hprojectFile hown]
  by_cases hkey : key = .denyWarnings
  · subst hkey
    simpa using ConfigKey.held_merge_denyWarnings hbase hown root
  · rw [if_neg fun h => hkey h.1]
    exact ConfigKey.held_merge_of_ne hbase hown hkey root

/-- A run with a configuration file in the home directory and one in a project. -/
def configuredSession (global project : String) : Session :=
  .start ⟨⟨[(["home"], .directory), (["home", ".logicmap"], .directory),
    (["home", ".logicmap", "config.toml"], .file global.toUTF8),
    (["shop"], .directory), (["shop", ".logicmap"], .directory),
    (["shop", ".logicmap", "config.toml"], .file project.toUTF8)]⟩, []⟩

theorem read_configuredSession (global project : String) :
    (configuredSession global project).disk.read (Config.fileOf ⟨"/home"⟩) = .ok global.toUTF8 ∧
      (configuredSession global project).disk.read (Config.fileOf ⟨"/shop"⟩) =
        .ok project.toUTF8 := by
  have hhome : Config.fileOf ⟨"/home"⟩ = ⟨"/home/.logicmap/config.toml"⟩ := by decide +kernel
  have hshop : Config.fileOf ⟨"/shop"⟩ = ⟨"/shop/.logicmap/config.toml"⟩ := by decide +kernel
  rw [hhome, hshop]
  constructor <;>
    simp +decide [Disk.read, Disk.resolve, Path.segments, splitSlashes, FileTree.follow,
      FileTree.find?, configuredSession, Session.start]

/-- Global settings for rendering and linting. -/
def homeText : String := "[render]\nout_dir = \"out\"\n[lint]\ndeny_warnings = true\n"

/-- A project that names its manifest. -/
def shopText : String := "manifest = \"docs/m.json\"\n"

/-- A project that lets warnings pass. -/
def lenientText : String := "[lint]\ndeny_warnings = false\n"

/-- The configuration of the project `/shop`, with that of `/home` as the global one. -/
def shopConfig (s : Session) : Config :=
  ((Config.loadMerged (some (Config.fileOf ⟨"/home"⟩)) ⟨"/shop"⟩ : StateM Session Config).run s).1

theorem shopText_completed_by_homeText :
    ConfigKey.manifest.held (shopConfig (configuredSession homeText shopText)) =
        some (.path ⟨"/shop/docs/m.json"⟩) ∧
      ConfigKey.outDir.held (shopConfig (configuredSession homeText shopText)) =
        some (.path ⟨"out"⟩) ∧
      ConfigKey.denyWarnings.held (shopConfig (configuredSession homeText shopText)) =
        some (.flag true) := by
  obtain ⟨hhome, hshop⟩ := read_configuredSession homeText shopText
  have hheld := loadMerged_follows_precedence hhome hshop (by decide +kernel) (by decide +kernel)
  exact ⟨(hheld .manifest).trans (by decide +kernel), (hheld .outDir).trans (by decide +kernel),
    (hheld .denyWarnings).trans (by decide +kernel)⟩

/-- A project that sets `deny_warnings` to false does not get that value under a global
configuration that sets it to true. -/
theorem lenientText_denied_by_homeText :
    (configuredSession homeText lenientText).disk.read (Config.fileOf ⟨"/home"⟩) =
        .ok homeText.toUTF8 ∧
      (configuredSession homeText lenientText).disk.read (Config.fileOf ⟨"/shop"⟩) =
        .ok lenientText.toUTF8 ∧
      (Config.decode homeText).isSome = true ∧ (Config.decode lenientText).isSome = true ∧
      ConfigKey.denyWarnings.settingOf lenientText = some (.flag false) ∧
      ConfigKey.denyWarnings.precedence ⟨"/shop"⟩ homeText lenientText = some (.flag false) ∧
      ConfigKey.denyWarnings.held (shopConfig (configuredSession homeText lenientText)) =
        some (.flag true) := by
  obtain ⟨hhome, hshop⟩ := read_configuredSession homeText lenientText
  have hbase : Config.decode homeText = some ⟨none, some ⟨"out"⟩, true⟩ := by decide +kernel
  have hown : Config.decode lenientText = some ⟨none, none, false⟩ := by decide +kernel
  refine ⟨hhome, hshop, by rw [hbase]; rfl, by rw [hown]; rfl, by decide +kernel,
    by decide +kernel, ?_⟩
  rw [shopConfig, (Session.run_loadMerged _ _ _).1, Disk.mergedConfig, Option.elim_some,
    Disk.configAt_of_read hhome hbase, Disk.configAt_of_read hshop hown]
  rfl

end ManifestAtlas
