import ManifestAtlas.Text.Blank

/-!
# Places in source code

An entry of a manifest may say where its code lives.  The place is shown as
text and never looked up.
-/

namespace ManifestAtlas

/-- A place in source code: a file, relative to the project, and perhaps a function and a line. -/
structure CodeRef where
  file : String
  function : Option String
  line : Option UInt32
  deriving DecidableEq, Repr

/-- The parts of a place that are shown. -/
def CodeRef.parts (place : CodeRef) : List String :=
  place.file :: ((nonempty? place.function).toList ++ (place.line.map toString).toList)

/-- A place as `file:function:line`, without the parts that are missing. -/
def CodeRef.display (place : CodeRef) : String :=
  ":".intercalate place.parts

/-- A place that may be missing, which then shows as nothing. -/
def displayPlace : Option CodeRef → String
  | none => ""
  | some place => place.display

end ManifestAtlas
