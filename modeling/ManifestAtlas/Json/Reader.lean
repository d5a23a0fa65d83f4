import ManifestAtlas.Json.Failure

/-!
# Readers

A `Reader` takes a value off the front of a text.  It either refuses the text,
or returns the value with what is left, which is always shorter than the text:
this is what makes every loop over a list or an object come to an end.

Between two tokens stand any number of spaces, tabs and line ends; `ahead`
looks past them at the next character.

Main statements: skipping space never makes a text longer
(`length_skipSpace_le`), and what `ahead` sees is the text after the space
(`view_ahead`).
-/

namespace ManifestAtlas.Json

/-- A value that was read, with the rest of a text of less than `bound` characters. -/
structure Read (bound : Nat) (α : Type) where
  value : α
  rest : List Char
  shorter : rest.length < bound

/-- A way to take a value off the front of a text. -/
abbrev Reader (α : Type) := (text : List Char) → Except Failure (Read text.length α)

/-- The same rest, with another value. -/
def Read.map {bound : Nat} {α β : Type} (f : α → β) (r : Read bound α) : Read bound β :=
  ⟨f r.value, r.rest, r.shorter⟩

/-- The same value, read from a text that is at least as long. -/
def Read.within {bound : Nat} {α : Type} (r : Read bound α) {longer : Nat}
    (h : bound ≤ longer) : Read longer α :=
  ⟨r.value, r.rest, Nat.lt_of_lt_of_le r.shorter h⟩

/-- What was read behind another value, as read from the text in front of both. -/
def Read.followedBy {bound : Nat} {α β : Type} (first : Read bound α)
    (second : Read first.rest.length β) : Read bound β :=
  second.within (Nat.le_of_lt first.shorter)

/-- Applies a function to the value that a reader returns. -/
def Reader.map {α β : Type} (f : α → β) (reader : Reader α) : Reader β := fun text =>
  (reader text).map (Read.map f)

theorem length_le_self (text : List Char) : text.length ≤ text.length :=
  Nat.le_refl _

theorem length_lt_succ (text : List Char) : text.length < text.length + 1 :=
  Nat.lt_succ_self _

theorem length_le_of_lt {bound : Nat} {text : List Char} (h : text.length < bound) :
    text.length ≤ bound :=
  Nat.le_of_lt h

theorem rest_length_le {text rest : List Char} (h : rest.length < text.length) :
    rest.length ≤ text.length :=
  Nat.le_of_lt h

theorem length_lt_of_cons {bound : Nat} {text : List Char} (h : text.length + 1 < bound) :
    text.length < bound :=
  Nat.lt_of_succ_lt h

theorem length_lt_of_rest {bound : Nat} {text rest : List Char}
    (hr : rest.length < text.length) (h : text.length ≤ bound) : rest.length < bound :=
  Nat.lt_of_lt_of_le hr h

/-- The characters that may stand between two tokens. -/
def isSpace (c : Char) : Bool :=
  c == ' ' || c == '\n' || c == '\t' || c == '\r'

/-- The text from its first character that is not space. -/
def skipSpace : List Char → List Char
  | [] => []
  | c :: rest => if isSpace c then skipSpace rest else c :: rest

theorem length_skipSpace_le (text : List Char) : (skipSpace text).length ≤ text.length := by
  fun_induction skipSpace text with
  | case1 => simp
  | case2 _ _ _ ih => exact Nat.le_succ_of_le ih
  | case3 => simp

theorem length_lt_of_skipSpace {text rest : List Char} {c : Char}
    (h : skipSpace text = c :: rest) : rest.length < text.length := by
  have := length_skipSpace_le text
  rw [h] at this
  exact this

/-- What comes after the space at the front of a text of `bound` characters. -/
inductive Ahead (bound : Nat) where
  | done
  | next (c : Char) (rest : List Char) (shorter : rest.length < bound)

/-- Looks at the first character that is not space. -/
def ahead (text : List Char) : Ahead text.length :=
  match h : skipSpace text with
  | [] => .done
  | c :: rest => .next c rest (length_lt_of_skipSpace h)

/-- The text that is still to be read. -/
def Ahead.view {bound : Nat} : Ahead bound → List Char
  | .done => []
  | .next c rest _ => c :: rest

theorem view_ahead (text : List Char) : (ahead text).view = skipSpace text := by
  unfold ahead
  split <;> simp_all [Ahead.view]

/-- Reads the remaining letters of a word and returns `value`. -/
def literal {bound : Nat} {α : Type} (value : α) :
    (word text : List Char) → text.length < bound → Except Failure (Read bound α)
  | [], text, h => .ok ⟨value, text, h⟩
  | _ :: _, [], _ => .error (.atEnd .eofValue)
  | w :: word, c :: rest, h =>
    if c = w then literal value word rest (length_lt_of_cons h)
    else .error (.on .expectedIdent c rest)

/-- Reads a colon. -/
def colon : Reader Unit := fun text =>
  match ahead text with
  | .next ':' rest h => .ok ⟨(), rest, h⟩
  | .next c rest _ => .error (.on .expectedColon c rest)
  | .done => .error (.atEnd .eofObject)

end ManifestAtlas.Json
