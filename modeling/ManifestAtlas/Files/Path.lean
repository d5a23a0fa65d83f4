/-!
# Paths

A path is kept as it was written.  It is looked at in two ways: as segments,
the texts between slashes, and as components, which leave out empty segments
and single dots.  Two paths with the same components name the same place.

Main statements: joining an absolute path gives that path
(`join_of_isAbsolute`); a text without slashes is one segment
(`splitSlashes_of_notMem`), and a slash behind one ends it
(`splitSlashes_append`).
-/

namespace ManifestAtlas

/-- A path, as it was written. -/
structure Path where
  text : String
  deriving DecidableEq, Repr

/-- A part of a path that says where to go. -/
inductive Component where
  | root
  | here
  | up
  | name (text : String)
  deriving DecidableEq, Repr

/-- The texts between slashes. -/
def splitSlashes : List Char → List (List Char)
  | [] => [[]]
  | c :: rest =>
    if c = '/' then [] :: splitSlashes rest
    else
      match splitSlashes rest with
      | [] => [[c]]
      | first :: more => (c :: first) :: more

/-- Whether a segment leads nowhere: it is empty, or a single dot. -/
def isIdle (segment : String) : Bool :=
  segment == "" || segment == "."

/-- The segments without idle ones at the end. -/
def trimIdle (segments : List String) : List String :=
  (segments.reverse.dropWhile isIdle).reverse

/-- The component that a segment stands for. -/
def Component.ofSegment (segment : String) : Component :=
  if segment = ".." then .up else .name segment

/-- The rank of a component among others. -/
def Component.rank : Component → Nat
  | .root => 0
  | .here => 1
  | .up => 2
  | .name _ => 3

/-- The order of components: by rank, and names by their text. -/
def Component.before (a b : Component) : Bool :=
  match a, b with
  | .name s, .name t => decide (s < t)
  | _, _ => decide (a.rank < b.rank)

/-- Whether a list of components comes no later than another. -/
def componentsLE : List Component → List Component → Bool
  | [], _ => true
  | _ :: _, [] => false
  | a :: as, b :: bs => a.before b || (!b.before a && componentsLE as bs)

namespace Path

/-- Whether a path starts at the root. -/
def isAbsolute (p : Path) : Bool :=
  p.text.toList.head? == some '/'

/-- The segments of a path, after the root if it has one. -/
def segments (p : Path) : List String :=
  let chars := if p.isAbsolute then p.text.toList.drop 1 else p.text.toList
  (splitSlashes chars).map String.ofList

/-- The path below the root, or the relative path, with the given segments. -/
def ofSegments (absolute : Bool) (segments : List String) : Path :=
  ⟨(if absolute then "/" else "") ++ "/".intercalate segments⟩

/-- Segments without idle ones at the end; a relative path keeps a dot at its start. -/
def trimmed (absolute : Bool) : List String → List String
  | "." :: rest => if absolute then trimIdle ("." :: rest) else "." :: trimIdle rest
  | segments => trimIdle segments

/-- The components of a path. -/
def components (p : Path) : List Component :=
  let follow (segments : List String) : List Component :=
    (segments.filter fun s => !isIdle s).map Component.ofSegment
  if p.isAbsolute then .root :: follow p.segments
  else
    match p.segments with
    | "." :: rest => .here :: follow rest
    | segments => follow segments

/-- The name at the end of a path, unless it ends at a root, a dot or two dots. -/
def fileName? (p : Path) : Option String :=
  match p.components.getLast? with
  | some (.name text) => some text
  | _ => none

/-- A path seen from another one: itself if it is absolute. -/
def join (base rel : Path) : Path :=
  if rel.isAbsolute || base.text.isEmpty then rel
  else if base.text.toList.getLast? == some '/' then ⟨base.text ++ rel.text⟩
  else ⟨base.text ++ "/" ++ rel.text⟩

/-- The path of an entry of a directory. -/
def child (base : Path) (name : String) : Path :=
  base.join ⟨name⟩

/-- The path that names lead to from a directory. -/
def below (base : Path) (names : List String) : Path :=
  names.foldl child base

/-- The path without its last component; none for the root and for the empty path. -/
def parent? (p : Path) : Option Path :=
  match (trimmed p.isAbsolute p.segments).reverse with
  | [] => none
  | _ :: front => some (ofSegments p.isAbsolute (trimmed p.isAbsolute front.reverse))

/-- A path and at most `fuel` of the paths that it leads through, from the inside out. -/
def ancestorsWithin : (fuel : Nat) → Path → List Path
  | 0, p => [p]
  | fuel + 1, p =>
    match p.parent? with
    | none => [p]
    | some up => p :: ancestorsWithin fuel up

/-- A path and all the paths that it leads through, from the inside out.  Every step up drops a
segment, so that there are no more steps than segments. -/
def ancestors (p : Path) : List Path :=
  ancestorsWithin p.segments.length p

/-- The segments after the first `n` that are not idle. -/
def dropNamed : (n : Nat) → List String → List String
  | _, [] => []
  | n, s :: rest =>
    if isIdle s then dropNamed n rest
    else
      match n with
      | 0 => s :: rest
      | n + 1 => dropNamed n rest

/-- The path seen from a directory above it. -/
def relativeTo? (p base : Path) : Option Path :=
  if base.components.isPrefixOf p.components then
    let passed := base.components.length - if p.isAbsolute then 1 else 0
    some (ofSegments false (trimIdle (dropNamed passed p.segments)))
  else none

/-- Whether a path comes no later than another, component by component. -/
def notAfter (a b : Path) : Bool :=
  componentsLE a.components b.components

theorem join_of_isAbsolute {rel : Path} (h : rel.isAbsolute = true) (base : Path) :
    base.join rel = rel := by
  simp [join, h]

theorem splitSlashes_of_notMem {cs : List Char} (h : '/' ∉ cs) : splitSlashes cs = [cs] := by
  induction cs with
  | nil => rfl
  | cons c rest ih =>
    have hc : c ≠ '/' := fun heq => h (heq ▸ List.mem_cons_self)
    have hrest := ih fun hmem => h (List.mem_cons_of_mem _ hmem)
    rw [splitSlashes, if_neg hc, hrest]

theorem splitSlashes_append {front : List Char} (h : '/' ∉ front) (back : List Char) :
    splitSlashes (front ++ '/' :: back) = front :: splitSlashes back := by
  induction front with
  | nil => rw [List.nil_append, splitSlashes, if_pos rfl]
  | cons c rest ih =>
    have hc : c ≠ '/' := fun heq => h (heq ▸ List.mem_cons_self)
    have hrest := ih fun hmem => h (List.mem_cons_of_mem _ hmem)
    rw [List.cons_append, splitSlashes, if_neg hc, hrest]

theorem splitSlashes_ne_nil (cs : List Char) : splitSlashes cs ≠ [] := by
  cases cs with
  | nil => simp [splitSlashes]
  | cons c rest =>
    unfold splitSlashes
    split
    · simp
    · split <;> simp

theorem segments_ne_nil (p : Path) : p.segments ≠ [] := by
  simp [segments, splitSlashes_ne_nil]

end Path

end ManifestAtlas
