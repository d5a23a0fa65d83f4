import Mathlib
import ManifestAtlas.Proofs.CatalogRows
import ManifestAtlas.Proofs.TextLines
import ManifestAtlas.Workspace.Load

/-!
# The lines of listings

An index, a scan and a catalog are listed with a line feed behind each entry.
The texts that an entry shows stand in its line as they are, so that a line
feed in one of them breaks the line in two.  `ListsByLine` says that this is
all there is to it: a listing has as many lines as entries and line feeds in
their texts together, and it has one line for each entry, in order, just if no
text holds a line feed.

Main statement: `listings_break_at_texts`.
-/

namespace ManifestAtlas

/-! ## Line feeds -/

/-- The number of line feeds in a text. -/
def lineFeeds (text : String) : Nat :=
  text.toList.count '\n'

@[simp] theorem lineFeeds_append (a b : String) :
    lineFeeds (a ++ b) = lineFeeds a + lineFeeds b := by
  simp [lineFeeds]

theorem lineFeeds_eq_zero_iff {text : String} : lineFeeds text = 0 ↔ IsOneLine text :=
  List.count_eq_zero

@[simp] theorem lineFeeds_repr (n : Nat) : lineFeeds n.repr = 0 :=
  lineFeeds_eq_zero_iff.2 (isOneLine_repr n)

theorem splitLines_of_isOneLine {text : String} (h : IsOneLine text) :
    splitLines text = [text] := by
  rw [splitLines, List.splitOn_eq_singleton h, List.map_singleton, String.ofList_toList]

/-- A line feed ends a piece. -/
theorem splitLines_append_lineFeed (a b : String) :
    splitLines (a ++ "\n" ++ b) = splitLines a ++ splitLines b := by
  have hlist : (a ++ "\n" ++ b).toList = a.toList ++ '\n' :: b.toList := by simp
  rw [splitLines, hlist, List.splitOn_append_cons_self, List.map_append]
  rfl

theorem length_splitOn (c : Char) (text : List Char) :
    (text.splitOn c).length = text.count c + 1 := by
  induction text with
  | nil => rfl
  | cons x rest ih =>
    rw [List.splitOn_cons_eq_if_modifyHead]
    split
    · rename_i hx
      rw [beq_iff_eq.1 hx, List.length_cons, ih, List.count_cons_self]
    · rename_i hx
      rw [List.length_modifyHead, ih, List.count_cons_of_ne (by simpa using hx)]

theorem length_splitLines (text : String) : (splitLines text).length = lineFeeds text + 1 := by
  rw [splitLines, List.length_map, length_splitOn, lineFeeds]

/-- The pieces of a listing are the pieces of its lines, and an empty one behind them. -/
theorem splitLines_unlines (lines : List String) :
    splitLines (unlines lines) = lines.flatMap splitLines ++ [""] := by
  induction lines with
  | nil => rfl
  | cons line lines ih =>
    have hcons : unlines (line :: lines) = line ++ "\n" ++ unlines lines := by
      simp [unlines]
    rw [hcons, splitLines_append_lineFeed, ih, List.flatMap_cons, List.append_assoc]

theorem length_splitLines_unlines (lines : List String) :
    (splitLines (unlines lines)).length = lines.length + (lines.map lineFeeds).sum + 1 := by
  have hpieces : (lines.map fun line => (splitLines line).length).sum =
      (lines.map lineFeeds).sum + lines.length := by
    simp [length_splitLines, List.sum_map_add]
  rw [splitLines_unlines, List.length_append, List.length_flatMap, hpieces, List.length_singleton]
  omega

/-! ## Listings by line -/

/-- A listing shows entries, each with certain texts in its line.  Every line feed in a text gives
the listing one more line. -/
structure ListsByLine (listing : String) (entries texts : List String) : Prop where
  lines : (splitLines listing).length = entries.length + (texts.map lineFeeds).sum + 1
  oriented_iff : splitLines listing = entries ++ [""] ↔ ∀ text ∈ texts, IsOneLine text

theorem sum_lineFeeds_eq_zero_iff {texts : List String} :
    (texts.map lineFeeds).sum = 0 ↔ ∀ text ∈ texts, IsOneLine text := by
  rw [List.sum_eq_zero_iff, List.forall_mem_map]
  exact forall₂_congr fun _ _ => lineFeeds_eq_zero_iff

/-- It is enough that each line has the line feeds of the texts that it shows. -/
theorem listsByLine_unlines {ρ : Type} {entries : List String} {rows : List ρ}
    {texts : ρ → List String}
    (h : List.Forall₂ (fun line row => lineFeeds line = ((texts row).map lineFeeds).sum)
      entries rows) :
    ListsByLine (unlines entries) entries (rows.flatMap texts) := by
  have hfeeds : (entries.map lineFeeds).sum = ((rows.flatMap texts).map lineFeeds).sum := by
    induction h with
    | nil => rfl
    | cons hline _ ih =>
      rw [List.map_cons, List.sum_cons, hline, ih, List.flatMap_cons, List.map_append,
        List.sum_append]
  refine ⟨hfeeds ▸ length_splitLines_unlines entries, ?_⟩
  rw [← sum_lineFeeds_eq_zero_iff, ← hfeeds]
  constructor
  · intro horiented
    have hlength := length_splitLines_unlines entries
    rw [horiented, List.length_append, List.length_singleton] at hlength
    omega
  · intro hnone
    have hlines := sum_lineFeeds_eq_zero_iff.1 hnone
    rw [splitLines_unlines, List.flatMap_congr fun line hline =>
      splitLines_of_isOneLine (hlines line hline), List.flatMap_singleton']

/-! ## Indexes -/

/-- The texts that an index shows of a project. -/
def ProjectSummary.listedTexts (project : ProjectSummary) : List String :=
  project.id :: (project.name.toList ++ project.manifest.toList)

theorem lineFeeds_projectLine (project : ProjectSummary) :
    lineFeeds (projectLine project) = (project.listedTexts.map lineFeeds).sum := by
  obtain ⟨id, name, description, manifest⟩ := project
  cases name <;> cases manifest <;>
    simp [projectLine, ProjectSummary.listedTexts, lineFeeds, toString]

/-! ## Scans -/

/-- The texts that a scan shows of a manifest: the path as seen from `root`, and the name of the
project or the reason why there is none. -/
def ScannedManifest.listedTexts (root : Path) (entry : ScannedManifest) : List String :=
  [((entry.path.relativeTo? root).getD entry.path).text,
    match entry.manifest with
    | .ok manifest => manifest.project.name
    | .error reason => reason]

theorem scanListing_eq (root : Path) (scanned : List ScannedManifest) :
    scanListing root scanned = unlines (scanned.map (ScannedManifest.line root)) := by
  rw [scanListing, unlines, List.map_map]
  rfl

theorem lineFeeds_scanLine (root : Path) (entry : ScannedManifest) :
    lineFeeds (entry.line root) = ((entry.listedTexts root).map lineFeeds).sum := by
  obtain ⟨path, manifest⟩ := entry
  cases manifest with
  | ok manifest =>
    have hmarks : lineFeeds ": " = 0 ∧ lineFeeds " (" = 0 ∧ lineFeeds " modules)" = 0 := by decide
    simp [ScannedManifest.line, ScannedManifest.listedTexts, toString, hmarks]
  | error reason =>
    simp [ScannedManifest.line, ScannedManifest.listedTexts, lineFeeds, toString]

/-! ## Catalogs -/

/-- The texts that a row of a catalog shows. -/
def CatalogRow.listedTexts : CatalogRow → List String
  | .project name _ => [name]
  | .module id name => [id, name]
  | .part (.flow _ id) name => [id, name]
  | .part (.states _ id) name => [id, name]

theorem lineFeeds_of_isShownBy {line : String} {row : CatalogRow} (h : row.IsShownBy line) :
    lineFeeds line = (row.listedTexts.map lineFeeds).sum := by
  have hbranch : ∀ branch ∈ branchMarks, lineFeeds branch = 0 := by decide
  have hindent : ∀ indent ∈ indentMarks, lineFeeds indent = 0 := by decide
  have hmarks : lineFeeds " (" = 0 ∧ lineFeeds ")" = 0 ∧ lineFeeds " modules)" = 0 ∧
      lineFeeds "flow " = 0 ∧ lineFeeds "states " = 0 := by decide
  cases row with
  | project name modules =>
    obtain rfl : line = _ := h
    simp [CatalogRow.listedTexts, toString, hmarks]
  | module id name =>
    obtain ⟨branch, hmark, rfl⟩ := h
    simp [CatalogRow.listedTexts, toString, hmarks, hbranch branch hmark]
  | part selection name =>
    obtain ⟨indent, hmark, branch, hmark', rfl⟩ := h
    cases selection <;>
      simp [CatalogRow.listedTexts, Selection.label, toString, hmarks, hindent indent hmark,
        hbranch branch hmark']

/-- A catalog has a row for the project, one for each module and one for each flow and each state
machine. -/
theorem length_catalogRows (manifest : Manifest) :
    manifest.catalogRows.length = 1 + manifest.modules.length +
      (manifest.modules.map fun m => m.flows.length + m.stateMachines.length).sum := by
  have hmodule (module : Module) : module.catalogRows.length =
      module.flows.length + module.stateMachines.length + 1 := by
    simp [Module.catalogRows, Nat.add_assoc]
  have hrows : (manifest.modules.map fun m => m.catalogRows.length).sum =
      (manifest.modules.map fun m => m.flows.length + m.stateMachines.length).sum +
        manifest.modules.length := by
    simp [hmodule, List.sum_map_add]
  rw [Manifest.catalogRows, List.length_cons, List.length_flatMap, hrows]
  omega

/-! ## All listings -/

/-- Indexes, scans and catalogs are listed by line, but for line feeds in the texts that they show.
The rows of a catalog are the project, the modules, and the flows and state machines of each. -/
theorem listings_break_at_texts (index : ProjectIndex) (root : Path)
    (scanned : List ScannedManifest) (manifest : Manifest) :
    ListsByLine (indexListing index) (index.projects.map projectLine)
      (index.projects.flatMap ProjectSummary.listedTexts) ∧
    ListsByLine (scanListing root scanned) (scanned.map (ScannedManifest.line root))
      (scanned.flatMap (ScannedManifest.listedTexts root)) ∧
    ListsByLine (catalog manifest) (catalogLines manifest)
      (manifest.catalogRows.flatMap CatalogRow.listedTexts) ∧
    List.Forall₂ CatalogRow.IsShownBy (catalogLines manifest) manifest.catalogRows ∧
    manifest.catalogRows.length = 1 + manifest.modules.length +
      (manifest.modules.map fun m => m.flows.length + m.stateMachines.length).sum := by
  refine ⟨?_, ?_, ?_, catalogLines_show_rows manifest, length_catalogRows manifest⟩
  · refine listsByLine_unlines ?_
    rw [List.forall₂_map_left_iff, List.forall₂_same]
    exact fun project _ => lineFeeds_projectLine project
  · rw [scanListing_eq]
    refine listsByLine_unlines ?_
    rw [List.forall₂_map_left_iff, List.forall₂_same]
    exact fun entry _ => lineFeeds_scanLine root entry
  · exact listsByLine_unlines
      ((catalogLines_show_rows manifest).imp fun _ _ => lineFeeds_of_isShownBy)

/-- A manifest of a project with a line feed in its name. -/
def brokenManifest : Manifest where
  project := ⟨"a\nb", none, none, none, none⟩
  modules := []
  entities := []
  dataModels := []
  glossary := .empty
  changelog := []

/-- One entry takes two lines in each kind of listing: in an index by the identifier of a project,
in a scan by the name of a project or a reason, and in a catalog by the name of the project. -/
theorem brokenManifest_takes_two_lines :
    splitLines (indexListing ⟨[.ofId "a\nb"]⟩) = ["a", "b", ""] ∧
    splitLines (scanListing ⟨"/p"⟩ [⟨⟨"/p/manifest.json"⟩, .ok brokenManifest⟩]) =
      ["manifest.json: a", "b (0 modules)", ""] ∧
    splitLines (scanListing ⟨"/p"⟩ [⟨⟨"/p/manifest.json"⟩, .error "a\nb"⟩]) =
      ["manifest.json: invalid (a", "b)", ""] ∧
    splitLines (catalog brokenManifest) = ["a", "b (0 modules)", ""] := by
  decide

end ManifestAtlas
