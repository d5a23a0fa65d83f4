import ManifestAtlas.Toml.Document

/-!
# The tables of a TOML document

Statements build up a tree of tables.  A table comes into being in one of three
ways: by a header of its own, implied by a longer header, or implied by a key
of several parts.  Which statements may add to a table depends on that: a
header may complete an implied table, unless a key implied it, and a key may
only go through tables that keys implied.  No key may be set twice.
-/

namespace ManifestAtlas.Toml

/-- How a table came into being. -/
inductive Origin where
  | header
  | impliedByHeader
  | impliedByKey
  deriving DecidableEq, Repr

/-- A member of a table while the document is put together: a value, a table, or an array of
tables, the last one first. -/
inductive Node where
  | value (v : Value)
  | table (origin : Origin) (members : List (String × Node))
  | tables (entries : List (List (String × Node)))

/-- The members of a table. -/
abbrev Nodes := List (String × Node)

/-- The node under a key. -/
def lookup (name : String) (nodes : Nodes) : Option Node :=
  (nodes.find? fun m => m.1 = name).map Prod.snd

/-- The members with a node under a key, in place of any earlier one. -/
def set (name : String) (node : Node) : Nodes → Nodes
  | [] => [(name, node)]
  | m :: rest => if m.1 = name then (name, node) :: rest else m :: set name node rest

/-- Changes the table at the end of a path, given how it came into being.  Missing tables on the
way are implied; `byKey` says whether a key or a header implies them. -/
def within (byKey : Bool) (change : Origin → Nodes → Option Nodes) :
    (path : List String) → Origin → Nodes → Option Nodes
  | [], origin, nodes => change origin nodes
  | name :: path, _, nodes =>
    match lookup name nodes with
    | none => do
      let origin := if byKey then .impliedByKey else .impliedByHeader
      let inner ← within byKey change path origin []
      some (set name (.table origin inner) nodes)
    | some (.value _) => none
    | some (.table origin inner) =>
      if byKey ∧ origin = .header then none
      else do some (set name (.table origin (← within byKey change path origin inner)) nodes)
    | some (.tables []) => none
    | some (.tables (last :: earlier)) => do
      let last ← within byKey change path .header last
      some (set name (.tables (last :: earlier)) nodes)

/-- Splits a path into what leads to its last part, and that part. -/
def splitLast : List String → Option (List String × String)
  | [] => none
  | [last] => some ([], last)
  | name :: path => do
    let (front, last) ← splitLast path
    some (name :: front, last)

/-- Sets a key of a table.  A key of several parts ends in a table that keys implied, and a key
of one part does not. -/
def setKey (key : List String) (v : Value) (origin : Origin) (nodes : Nodes) : Option Nodes := do
  let (path, name) ← splitLast key
  let assign (origin : Origin) (nodes : Nodes) : Option Nodes :=
    if decide (origin = .impliedByKey) == path.isEmpty then none
    else
      match lookup name nodes with
      | some _ => none
      | none => some (nodes ++ [(name, .value v)])
  within true assign path origin nodes

/-- Opens a table by its header. -/
def openTable (key : List String) (root : Nodes) : Option Nodes := do
  let (path, name) ← splitLast key
  let declare (_ : Origin) (nodes : Nodes) : Option Nodes :=
    match lookup name nodes with
    | none => some (set name (.table .header []) nodes)
    | some (.table .impliedByHeader inner) => some (set name (.table .header inner) nodes)
    | some _ => none
  within false declare path .header root

/-- Opens a new entry of an array of tables by its header. -/
def openEntry (key : List String) (root : Nodes) : Option Nodes := do
  let (path, name) ← splitLast key
  let declare (_ : Origin) (nodes : Nodes) : Option Nodes :=
    match lookup name nodes with
    | none => some (set name (.tables [[]]) nodes)
    | some (.tables entries) => some (set name (.tables ([] :: entries)) nodes)
    | some _ => none
  within false declare path .header root

mutual

/-- A node as a value. -/
def Node.toValue : Node → Value
  | .value v => v
  | .table _ nodes => .table (membersOf nodes)
  | .tables entries => .array (entriesOf entries).reverse

/-- The members of a table as values. -/
def membersOf : List (String × Node) → List (String × Value)
  | [] => []
  | (name, node) :: rest => (name, node.toValue) :: membersOf rest

/-- The entries of an array of tables as values. -/
def entriesOf : List (List (String × Node)) → List Value
  | [] => []
  | nodes :: rest => .table (membersOf nodes) :: entriesOf rest

end

mutual

/-- The value of an expression; an inline table must not set a key twice. -/
def Expression.value? : Expression → Option Value
  | .string s => some (.string s)
  | .boolean b => some (.boolean b)
  | .quantity q => some (.quantity q)
  | .array es => (entryValues? es).map .array
  | .inlineTable ps => (inlineNodes? [] ps).map fun nodes => .table (membersOf nodes)

/-- The values of the entries of an array. -/
def entryValues? : List Expression → Option (List Value)
  | [] => some []
  | e :: es => do some ((← e.value?) :: (← entryValues? es))

/-- The members of an inline table with more pairs added. -/
def inlineNodes? (nodes : Nodes) : List (List String × Expression) → Option Nodes
  | [] => some nodes
  | (key, e) :: ps => do inlineNodes? (← setKey key (← e.value?) .header nodes) ps

end

/-- The tables of a document, and the path of the table that pairs are added to. -/
structure Assembly where
  root : Nodes
  current : List String

/-- Sets a key in the table at the end of a path. -/
def setIn (path key : List String) (v : Value) (root : Nodes) : Option Nodes :=
  within false (setKey key v) path .header root

/-- Adds a statement. -/
def Assembly.add (a : Assembly) : Statement → Option Assembly
  | .pair key e => do some { a with root := ← setIn a.current key (← e.value?) a.root }
  | .table key => do some ⟨← openTable key a.root, key⟩
  | .tableEntry key => do some ⟨← openEntry key a.root, key⟩

/-- Decodes a document to the members of its root table. -/
def decode (text : String) : Option (List (String × Value)) := do
  let a ← (← parse text).foldlM Assembly.add ⟨[], []⟩
  some (membersOf a.root)

end ManifestAtlas.Toml
