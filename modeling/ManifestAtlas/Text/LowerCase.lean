import ManifestAtlas.Text.CharTables

/-!
# Lower-case text

The lower-case form of a text, character by character.  Two characters need
more than a table: the capital I with a dot above becomes two characters, and
a capital sigma becomes the final form at the end of a word.
-/

namespace ManifestAtlas

/-- Whether the character has case. -/
def isCased (c : Char) : Bool :=
  inIntervals c.toNat casedIntervals

/-- Whether the character is looked past when the case of its neighbours matters. -/
def isCaseIgnorable (c : Char) : Bool :=
  inIntervals c.toNat caseIgnorableIntervals

/-- The lower-case form that a run of the table gives. -/
def CaseRun.lower? (run : CaseRun) (n : Nat) : Option Char :=
  if run.first ≤ n ∧ n ≤ run.last ∧ (n - run.first) % run.stride = 0 then
    some (Char.ofNat (run.lower + (n - run.first)))
  else none

/-- The lower-case form of a character, wherever it stands. -/
def lowerChar (c : Char) : List Char :=
  if c.toNat < 0x80 then [c.toLower]
  else if c = 'İ' then ['i', '\u0307']
  else [(caseRuns.findSome? (·.lower? c.toNat)).getD c]

/-- Whether the first character that is not looked past has case. -/
def meetsCased (text : List Char) : Bool :=
  match text.dropWhile isCaseIgnorable with
  | [] => false
  | c :: _ => isCased c

/-- The lower-case form of a text, given the characters in front of it, the nearest first. -/
def lowerFrom (before : List Char) : List Char → List Char
  | [] => []
  | c :: rest =>
    let lower :=
      if c = 'Σ' then
        if meetsCased before && !meetsCased rest then ['ς'] else ['σ']
      else lowerChar c
    lower ++ lowerFrom (c :: before) rest

/-- The lower-case form of a text. -/
def lowerCase (text : List Char) : List Char :=
  lowerFrom [] text

end ManifestAtlas
