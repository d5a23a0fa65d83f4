import ManifestAtlas.Json.Value

/-!
# The project index

An index lists the projects whose manifests are published.  It is a list of
entries, or an object that holds such a list under `projects`; an entry is the
identifier of a project, an object with details, or a list with the same
details in a fixed order.  All shapes decode to the same summaries.
-/

namespace ManifestAtlas

open Json

/-- A project in the index.  The place of its manifest is relative to the index. -/
structure ProjectSummary where
  id : String
  name : Option String
  description : Option String
  manifest : Option String
  deriving DecidableEq, Repr

/-- A decoded index. -/
structure ProjectIndex where
  projects : List ProjectSummary
  deriving DecidableEq, Repr

/-- Why an index was refused: its text is not JSON, or the value in it has another shape. -/
inductive IndexProblem where
  | malformed (failure : Failure)
  | shape
  deriving DecidableEq, Repr

/-- The name to show for a project. -/
def ProjectSummary.displayName (project : ProjectSummary) : String :=
  project.name.getD project.id

/-- The summary of a project of which only the identifier is known. -/
def ProjectSummary.ofId (id : String) : ProjectSummary :=
  ⟨id, none, none, none⟩

/-- The members of an object under one key. -/
def valuesAt (key : String) (members : List (String × Value)) : List Value :=
  (members.filter fun m => m.1 = key).map Prod.snd

/-- A text. -/
def text? : Value → Option String
  | .string s => some s
  | _ => none

/-- A text or `null`. -/
def optionalText? : Value → Option (Option String)
  | .null => some none
  | v => (text? v).map some

/-- The text under a key that may be missing, but not repeated. -/
def optionalMember? (key : String) (members : List (String × Value)) : Option (Option String) :=
  match valuesAt key members with
  | [] => some none
  | [v] => optionalText? v
  | _ => none

/-- The summary in an object. -/
def summaryOfMembers? (members : List (String × Value)) : Option ProjectSummary :=
  match valuesAt "id" members with
  | [id] => do
    some ⟨← text? id, ← optionalMember? "name" members, ← optionalMember? "description" members,
      ← optionalMember? "manifest" members⟩
  | _ => none

/-- The summary in a list of one to four details. -/
def summaryOfList? : List Value → Option ProjectSummary
  | [id] => do some (.ofId (← text? id))
  | [id, name] => do some ⟨← text? id, ← optionalText? name, none, none⟩
  | [id, name, description] => do
    some ⟨← text? id, ← optionalText? name, ← optionalText? description, none⟩
  | [id, name, description, manifest] => do
    some ⟨← text? id, ← optionalText? name, ← optionalText? description,
      ← optionalText? manifest⟩
  | _ => none

/-- The summary in an entry of the index. -/
def summary? : Value → Option ProjectSummary
  | .string id => some (.ofId id)
  | .object members => summaryOfMembers? members
  | .array details => summaryOfList? details
  | _ => none

/-- The summaries in a list of entries. -/
def summaries? : Value → Option (List ProjectSummary)
  | .array entries => entries.mapM summary?
  | _ => none

/-- The summaries in an index of either shape. -/
def projects? : Value → Option (List ProjectSummary)
  | .object members =>
    match valuesAt "projects" members with
    | [entries] => summaries? entries
    | _ => none
  | v => summaries? v

/-- Decodes the text of an index.  The shape is looked at before anything after the value. -/
def ProjectIndex.decode (text : String) : Except IndexProblem ProjectIndex :=
  match value text.toList with
  | .error failure => .error (.malformed failure)
  | .ok r =>
    match projects? r.value with
    | none => .error .shape
    | some projects =>
      match ahead r.rest with
      | .done => .ok ⟨projects⟩
      | .next c rest _ => .error (.malformed (.on .trailingCharacters c rest))

/-- A member for a text, if there is one. -/
def textMember (key : String) (text : Option String) : List (String × Value) :=
  text.toList.map fun t => (key, .string t)

/-- A project as a JSON value. -/
def ProjectSummary.value (project : ProjectSummary) : Value :=
  .object (("id", .string project.id) :: (textMember "name" project.name ++
    textMember "description" project.description ++ textMember "manifest" project.manifest))

/-- What is wrong with the text of an index. -/
def IndexProblem.message (problem : IndexProblem) (text : String) : String :=
  match problem with
  | .malformed failure => failure.message text
  | .shape => "data did not match any variant of untagged enum IndexDocument"

end ManifestAtlas
