import ManifestAtlas.Json.Number
import ManifestAtlas.Json.StringText

/-!
# Values that nobody asks for

A member with an unknown key is skipped, but its value has to be well formed.
Skipping keeps the open brackets in a list, so that nesting has no limit; a
skipped number has no range, and a skipped string is only skimmed.
-/

namespace ManifestAtlas.Json

/-- An open bracket inside a skipped value. -/
inductive Bracket where
  | array
  | object
  deriving DecidableEq, Repr

/-- The character that closes a bracket. -/
def Bracket.closing : Bracket → Char
  | .array => ']'
  | .object => '\x7d'

/-- What is wrong with a text that ends inside a bracket. -/
def Bracket.early : Bracket → Cause
  | .array => .eofList
  | .object => .eofObject

/-- What is wrong with a character that stands after a value in a bracket. -/
def Bracket.unfinished : Bracket → Cause
  | .array => .expectedListEnd
  | .object => .expectedObjectEnd

/-- Skips a key and its colon. -/
def skipKey : Reader Unit := fun text =>
  match ahead text with
  | .next '"' rest h => do
    let key ← skimString rest h
    (colon key.rest).map key.followedBy
  | .next c rest _ => .error (.on .keyNotString c rest)
  | .done => .error (.atEnd .eofObject)

/-- Skips a value other than an array or an object, which starts with `c`. -/
def skipScalar {bound : Nat} (c : Char) (rest : List Char) (h : rest.length < bound) :
    Except Failure (Read bound Unit) :=
  if c = 'n' then literal () "ull".toList rest h
  else if c = 't' then literal () "rue".toList rest h
  else if c = 'f' then literal () "alse".toList rest h
  else if c = '"' then skimString rest h
  else if opensNumeral c then (numeral .invalidNumber c rest h).map (Read.map fun _ => ())
  else .error (.on .expectedValue c rest)

/-- The bracket that a character opens. -/
def opens? (c : Char) : Option Bracket :=
  if c = '[' then some .array else if c = '\x7b' then some .object else none

/-- Where skipping stands: in front of a value, in front of a member, or inside a bracket, with
or without a value since it was opened. -/
inductive Stage where
  | value
  | member
  | inside (frame : Bracket) (afterValue : Bool)

/-- The stage in front of the next entry of a bracket. -/
def Bracket.entry : Bracket → Stage
  | .array => .value
  | .object => .member

/-- Skips the rest of a value; `frames` are the brackets that are open around it.  Inside a
bracket, the frame itself is part of the stage. -/
def skipFrom {bound : Nat} (stage : Stage) (frames : List Bracket) (text : List Char)
    (h : text.length ≤ bound) : Except Failure (Read bound Unit) :=
  match stage with
  | .value =>
    match ahead text with
    | .done => .error (.atEnd .eofValue)
    | .next c rest hc =>
      match opens? c with
      | some frame => skipFrom (.inside frame false) frames rest (by omega)
      | none =>
        match skipScalar c rest hc, frames with
        | .error e, _ => .error e
        | .ok r, [] => .ok (r.within h)
        | .ok r, frame :: frames =>
          have := r.shorter
          skipFrom (.inside frame true) frames r.rest (by omega)
  | .member =>
    match skipKey text with
    | .error e => .error e
    | .ok r =>
      have := r.shorter
      skipFrom .value frames r.rest (by omega)
  | .inside frame afterValue =>
    match ahead text with
    | .done => .error (.atEnd frame.early)
    | .next c rest hc =>
      if c = ',' ∧ afterValue then skipFrom frame.entry (frame :: frames) rest (by omega)
      else if c = frame.closing then
        match frames with
        | [] => .ok ⟨(), rest, by omega⟩
        | outer :: frames => skipFrom (.inside outer true) frames rest (by omega)
      else if afterValue then .error (.on frame.unfinished c rest)
      else skipFrom frame.entry (frame :: frames) text h
termination_by (text.length, match stage with | .inside _ _ => 1 | _ => 0)
decreasing_by
  all_goals first
    | (apply Prod.Lex.left; assumption)
    | (apply Prod.Lex.right; cases frame <;> simp [Bracket.entry])

/-- Skips a value. -/
def skip : Reader Unit := fun text =>
  skipFrom .value [] text (length_le_self text)

end ManifestAtlas.Json
