/-!
# Why and where a JSON text is refused

A `Cause` says what is wrong with a text, either with its syntax or with the
shape of the value in it.  A `Failure` adds how many bytes of the text were
still unread, and `Position.of` turns that into a line and a column.  Lines
count from one; a column is the number of bytes read since the last line feed.

Main statement: a position never lies beyond the text
(`Position.line_of_le`: the line is at most one more than the number of line
feeds).
-/

namespace ManifestAtlas.Json

/-- The kind of value that stands where another kind was wanted. -/
inductive Found where
  | null
  | boolean (value : Bool)
  | integer (value : Int)
  | float (text : String)
  | string (quoted : String)
  | sequence
  | map
  deriving DecidableEq, Repr

/-- What is wrong with a JSON text. -/
inductive Cause where
  | eofValue
  | eofList
  | eofObject
  | eofString
  | expectedValue
  | expectedIdent
  | expectedColon
  | expectedListEnd
  | expectedObjectEnd
  | keyNotString
  | trailingComma
  | trailingCharacters
  | invalidNumber
  | numberOutOfRange
  | invalidEscape
  | hexEscapeEnd
  | loneSurrogate
  | controlCharacter
  | tooDeep
  | invalidType (found : Found) (wanted : String)
  | invalidInteger (found : Int) (wanted : String)
  | invalidLength (length : Nat) (record : String) (fields : Nat)
  | unknownVariant (name : String) (known : List String)
  | missingField (name : String)
  | duplicateField (name : String)
  deriving DecidableEq, Repr

/-- The wording of a found value. -/
def Found.message : Found → String
  | .null => "null"
  | .boolean value => s!"boolean `{value}`"
  | .integer value => s!"integer `{value}`"
  | .float text => s!"floating point `{text}`"
  | .string quoted => s!"string {quoted}"
  | .sequence => "sequence"
  | .map => "map"

/-- A list of alternatives, each between backticks. -/
def alternatives (names : List String) : String :=
  match names.map fun name => s!"`{name}`" with
  | [] => "nothing"
  | [one] => one
  | [one, other] => s!"{one} or {other}"
  | many => "one of " ++ ", ".intercalate many

/-- The wording of a cause, without its position. -/
def Cause.message : Cause → String
  | .eofValue => "EOF while parsing a value"
  | .eofList => "EOF while parsing a list"
  | .eofObject => "EOF while parsing an object"
  | .eofString => "EOF while parsing a string"
  | .expectedValue => "expected value"
  | .expectedIdent => "expected ident"
  | .expectedColon => "expected `:`"
  | .expectedListEnd => "expected `,` or `]`"
  | .expectedObjectEnd => "expected `,` or `\x7d`"
  | .keyNotString => "key must be a string"
  | .trailingComma => "trailing comma"
  | .trailingCharacters => "trailing characters"
  | .invalidNumber => "invalid number"
  | .numberOutOfRange => "number out of range"
  | .invalidEscape => "invalid escape"
  | .hexEscapeEnd => "unexpected end of hex escape"
  | .loneSurrogate => "lone leading surrogate in hex escape"
  | .controlCharacter => "control character (\\u0000-\\u001F) found while parsing a string"
  | .tooDeep => "recursion limit exceeded"
  | .invalidType found wanted => s!"invalid type: {found.message}, expected {wanted}"
  | .invalidInteger found wanted => s!"invalid value: integer `{found}`, expected {wanted}"
  | .invalidLength length record fields =>
    let elements := if fields == 1 then "element" else "elements"
    s!"invalid length {length}, expected struct {record} with {fields} {elements}"
  | .unknownVariant name known => s!"unknown variant `{name}`, expected {alternatives known}"
  | .missingField name => s!"missing field `{name}`"
  | .duplicateField name => s!"duplicate field `{name}`"

/-- The number of bytes that a text takes in UTF-8. -/
def byteLength : List Char → Nat
  | [] => 0
  | c :: rest => c.utf8Size + byteLength rest

/-- A refused text: the cause, and the number of bytes left unread. -/
structure Failure where
  cause : Cause
  unread : Nat
  deriving DecidableEq, Repr

/-- A failure at the end of the text. -/
def Failure.atEnd (cause : Cause) : Failure :=
  ⟨cause, 0⟩

/-- A failure in front of what is left of the text. -/
def Failure.before (cause : Cause) (rest : List Char) : Failure :=
  ⟨cause, byteLength rest⟩

/-- A failure at a character whose first byte counts as read. -/
def Failure.on (cause : Cause) (c : Char) (rest : List Char) : Failure :=
  ⟨cause, byteLength (c :: rest) - 1⟩

/-- A place in a text: the line, counted from one, and the bytes read of it. -/
structure Position where
  line : Nat
  column : Nat
  deriving DecidableEq, Repr

/-- Moves a position over the first `bytes` bytes of a text. -/
def Position.advance : Position → (bytes : Nat) → List Char → Position
  | p, _, [] => p
  | p, bytes, c :: rest =>
    if bytes < c.utf8Size then ⟨p.line, p.column + bytes⟩
    else if c = '\n' then advance ⟨p.line + 1, 0⟩ (bytes - c.utf8Size) rest
    else advance ⟨p.line, p.column + c.utf8Size⟩ (bytes - c.utf8Size) rest

/-- The position at which `unread` bytes of the text are left. -/
def Position.of (text : List Char) (unread : Nat) : Position :=
  Position.advance ⟨1, 0⟩ (byteLength text - unread) text

/-- Where a failure lies in the text that it refuses. -/
def Failure.position (failure : Failure) (text : String) : Position :=
  Position.of text.toList failure.unread

/-- The wording of a failure, with its position in the text. -/
def Failure.message (failure : Failure) (text : String) : String :=
  let p := failure.position text
  s!"{failure.cause.message} at line {p.line} column {p.column}"

theorem Position.line_advance_le (p : Position) (bytes : Nat) (text : List Char) :
    (p.advance bytes text).line ≤ p.line + text.count '\n' := by
  induction text generalizing p bytes with
  | nil => simp [Position.advance]
  | cons c rest ih =>
    unfold Position.advance
    split
    · simp
    · split
      · rename_i hc
        have := ih ⟨p.line + 1, 0⟩ (bytes - c.utf8Size)
        simp only [hc, List.count_cons_self] at this ⊢
        omega
      · rename_i hc
        have := ih ⟨p.line, p.column + c.utf8Size⟩ (bytes - c.utf8Size)
        simp only [List.count_cons_of_ne hc] at this ⊢
        exact this

theorem Position.line_of_le (text : List Char) (unread : Nat) :
    (Position.of text unread).line ≤ 1 + text.count '\n' :=
  Position.line_advance_le _ _ _

end ManifestAtlas.Json
