import Mathlib.Data.List.Forall2
import ManifestAtlas.Report.Listing

/-!
# The rows of the catalog

The catalog draws the modules of a manifest as a tree, and below each module
its flows and then its state machines.  `Manifest.catalogRows` says which rows
these are, without anything that is drawn in front of them, and
`CatalogRow.IsShownBy` how a line shows a row: a module stands behind a branch,
and a part of it behind an indentation and a branch.

Main statement: the lines of the catalog show its rows, one line for each row
and in order (`catalogLines_show_rows`).
-/

namespace ManifestAtlas

/-! ## Rows -/

/-- A part of a manifest that can be drawn, by the identifiers that select it. -/
inductive Selection where
  | flow (module flow : String)
  | states (module machine : String)
  deriving DecidableEq, Repr

/-- A row of the catalog. -/
inductive CatalogRow where
  | project (name : String) (modules : Nat)
  | module (id name : String)
  | part (selection : Selection) (name : String)
  deriving DecidableEq, Repr

/-- The rows of a module: its own, and one for each flow and each state machine. -/
def Module.catalogRows (module : Module) : List CatalogRow :=
  .module module.id module.name ::
    (module.flows.map fun f => .part (.flow module.id f.id) f.name) ++
    module.stateMachines.map fun m => .part (.states module.id m.id) m.name

/-- The rows of the catalog of a manifest. -/
def Manifest.catalogRows (manifest : Manifest) : List CatalogRow :=
  .project manifest.project.name manifest.modules.length ::
    manifest.modules.flatMap Module.catalogRows

/-- What a row offers for selection. -/
def CatalogRow.selection? : CatalogRow → Option Selection
  | .part selection _ => some selection
  | _ => none

/-- Everything that the catalog lists for selection, in order. -/
def Manifest.listedSelections (manifest : Manifest) : List Selection :=
  manifest.catalogRows.filterMap CatalogRow.selection?

/-- How the catalog names a selection below its module. -/
def Selection.label : Selection → String
  | .flow _ id => "flow " ++ id
  | .states _ id => "states " ++ id

/-! ## Lines -/

/-- What stands in front of an item of a tree. -/
def branchMarks : List String := ["├── ", "└── "]

/-- What stands in front of the lines below an item of a tree. -/
def indentMarks : List String := ["│   ", "    "]

/-- A line shows a row of the catalog. -/
def CatalogRow.IsShownBy (line : String) : CatalogRow → Prop
  | .project name modules => line = s!"{name} ({modules} modules)"
  | .module id name => ∃ branch ∈ branchMarks, line = branch ++ s!"{id} ({name})"
  | .part selection name => ∃ indent ∈ indentMarks, ∃ branch ∈ branchMarks,
      line = indent ++ (branch ++ s!"{selection.label} ({name})")

/-- The lines of a tree stand for its items and what is below them, when each item does behind
either branch and each line below it behind either indentation. -/
theorem forall₂_branches {ρ : Type} {shows : String → ρ → Prop}
    {items : List (String × List String)} {rows : List (ρ × List ρ)}
    (h : List.Forall₂ (fun item row =>
      (∀ branch ∈ branchMarks, shows (branch ++ item.1) row.1) ∧
      List.Forall₂ (fun line below => ∀ indent ∈ indentMarks, shows (indent ++ line) below)
        item.2 row.2) items rows) :
    List.Forall₂ shows (branches items) (rows.flatMap fun row => row.1 :: row.2) := by
  induction h with
  | nil => exact .nil
  | @cons item row items rows hitem hrest ih =>
    obtain ⟨hbranch, hbelow⟩ := hitem
    have hindented : ∀ indent ∈ indentMarks,
        List.Forall₂ shows (item.2.map (indent ++ ·)) row.2 := by
      intro indent hindent
      rw [List.forall₂_map_left_iff]
      exact hbelow.imp fun _ _ hline => hline indent hindent
    rw [List.flatMap_cons]
    cases hrest with
    | nil =>
      rw [branches, List.flatMap_nil, List.append_nil]
      exact .cons (hbranch _ (by decide)) (hindented _ (by decide))
    | cons =>
      rw [branches]
      · exact .cons (hbranch _ (by decide)) (List.rel_append (hindented _ (by decide)) ih)
      · simp

/-- The lines of a tree without any lines below its items. -/
theorem forall₂_leaves {ρ : Type} {shows : String → ρ → Prop} {texts : List String} {rows : List ρ}
    (h : List.Forall₂ (fun text row => ∀ branch ∈ branchMarks, shows (branch ++ text) row)
      texts rows) :
    List.Forall₂ shows (branches (texts.map fun text => (text, []))) rows := by
  have hrows : (rows.map fun row => (row, ([] : List ρ))).flatMap (fun row => row.1 :: row.2) =
      rows := by
    simp [List.flatMap_map]
  have hitems : List.Forall₂ (fun item row =>
      (∀ branch ∈ branchMarks, shows (branch ++ item.1) row.1) ∧
      List.Forall₂ (fun line below => ∀ indent ∈ indentMarks, shows (indent ++ line) below)
        item.2 row.2) (texts.map fun text => (text, [])) (rows.map fun row => (row, [])) := by
    rw [List.forall₂_map_left_iff, List.forall₂_map_right_iff]
    exact h.imp fun _ _ hshows => ⟨hshows, .nil⟩
  have hlines := forall₂_branches hitems
  rwa [hrows] at hlines

/-- The lines below a module stand for its flows and state machines. -/
theorem forall₂_drawableParts (module : Module) :
    List.Forall₂ (fun line row => ∀ indent ∈ indentMarks, CatalogRow.IsShownBy (indent ++ line) row)
      (branches ((drawableParts module).map fun part => (part, [])))
      module.catalogRows.tail := by
  have hpart : ∀ (selection : Selection) (name : String), ∀ branch ∈ branchMarks,
      ∀ indent ∈ indentMarks, (CatalogRow.part selection name).IsShownBy
        (indent ++ (branch ++ s!"{selection.label} ({name})")) :=
    fun _ _ branch hbranch indent hindent => ⟨indent, hindent, branch, hbranch, rfl⟩
  refine forall₂_leaves ?_
  rw [drawableParts, Module.catalogRows, List.cons_append, List.tail_cons]
  refine List.rel_append ?_ ?_
  · rw [List.forall₂_map_left_iff, List.forall₂_map_right_iff, List.forall₂_same]
    exact fun f _ => hpart (.flow module.id f.id) f.name
  · rw [List.forall₂_map_left_iff, List.forall₂_map_right_iff, List.forall₂_same]
    exact fun m _ => hpart (.states module.id m.id) m.name

/-- Each line of the catalog shows one row, in order. -/
theorem catalogLines_show_rows (manifest : Manifest) :
    List.Forall₂ CatalogRow.IsShownBy (catalogLines manifest) manifest.catalogRows := by
  have hrows : manifest.modules.flatMap Module.catalogRows =
      (manifest.modules.map fun m => (CatalogRow.module m.id m.name, m.catalogRows.tail)).flatMap
        fun row => row.1 :: row.2 := by
    rw [List.flatMap_map]
    rfl
  rw [catalogLines, Manifest.catalogRows, hrows]
  refine .cons rfl (forall₂_branches ?_)
  rw [List.forall₂_map_left_iff, List.forall₂_map_right_iff, List.forall₂_same]
  intro module _
  exact ⟨fun branch hbranch => ⟨branch, hbranch, rfl⟩, forall₂_drawableParts module⟩

end ManifestAtlas
