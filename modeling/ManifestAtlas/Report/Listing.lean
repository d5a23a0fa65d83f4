import ManifestAtlas.Manifest.Index
import ManifestAtlas.Manifest.Project

/-!
# Listings

What can be selected from a manifest, as a tree, and the projects of an index,
one on each line.
-/

namespace ManifestAtlas

/-- Lines, each ended by a line feed. -/
def unlines (lines : List String) : String :=
  String.join (lines.map (· ++ "\n"))

/-- The parts of a module that can be drawn. -/
def drawableParts (module : Module) : List String :=
  module.flows.map (fun f => s!"flow {f.id} ({f.name})") ++
  module.stateMachines.map (fun m => s!"states {m.id} ({m.name})")

/-- The branches of a tree: each item behind a branch, followed by the lines below it.  The last
branch is drawn differently, and so is the indentation of the lines below it. -/
def branches : List (String × List String) → List String
  | [] => []
  | [(last, below)] => ("└── " ++ last) :: below.map ("    " ++ ·)
  | (item, below) :: rest => ("├── " ++ item) :: below.map ("│   " ++ ·) ++ branches rest

/-- The tree of a manifest: its modules with their flows and state machines. -/
def catalogLines (manifest : Manifest) : List String :=
  s!"{manifest.project.name} ({manifest.modules.length} modules)" ::
    branches (manifest.modules.map fun m =>
      (s!"{m.id} ({m.name})", branches ((drawableParts m).map fun part => (part, []))))

/-- The text of the tree of a manifest. -/
def catalog (manifest : Manifest) : String :=
  unlines (catalogLines manifest)

/-- The line of a project: its identifier, its name and the place of its manifest. -/
def projectLine (project : ProjectSummary) : String :=
  project.id ++ (project.name.elim "" fun name => s!" ({name})") ++
    (project.manifest.elim "" fun place => s!" -> {place}")

/-- The text of an index. -/
def indexListing (index : ProjectIndex) : String :=
  unlines (index.projects.map projectLine)

end ManifestAtlas
