/-!
# Text that cannot steer a terminal

Some characters are commands to a terminal.  There are two ways to show a text
that may hold them: the log spells them out (`spelledOut`), and usage errors
leave them out, together with the control sequences that they start
(`visible`).

Main statements: a text of plain characters is visible as it is
(`visible_of_plain`), and no control sequence is left in what is visible: every
character of it is plain (`isPlain_of_mem_visibleFrom`).
-/

namespace ManifestAtlas

/-- Whether the log spells the character out. -/
def isSpelledOut (c : Char) : Bool :=
  c = '\x07' || c = '\x08' || c = '\x0c' || c = '\x1b' || c = '\x7f' ||
    (0x80 ≤ c.toNat && c.toNat ≤ 0x9F)

/-- The number of a character, with a backslash in front; one beyond ASCII stands in braces. -/
def spellOut (c : Char) : List Char :=
  let digits := Nat.toDigits 16 c.toNat
  if c.toNat < 0x80 then ['\\', 'x'] ++ List.replicate (2 - digits.length) '0' ++ digits
  else "\\u\x7b".toList ++ digits ++ ['\x7d']

/-- The text with the commands to a terminal spelled out. -/
def spelledOut (text : String) : String :=
  String.ofList (text.toList.flatMap fun c => if isSpelledOut c then spellOut c else [c])

/-- Which part of a control sequence a character stands in. -/
inductive SequencePart where
  | outside
  | escaped
  | designation
  | parameters
  | deviceStart
  | deviceParameters
  | deviceDesignation
  | string
  | title
  deriving DecidableEq, Repr

/-- White space that moves to another place, other than the space itself. -/
def isLayout (c : Char) : Bool :=
  c = '\t' || c = '\n' || c = '\x0c' || c = '\r'

/-- Whether a character is visible outside of control sequences. -/
def isPlain (c : Char) : Bool :=
  isLayout c || (0x20 ≤ c.toNat && c.toNat ≠ 0x7F)

/-- Whether the code point of a character lies in an interval. -/
def isBetween (low high : Nat) (c : Char) : Bool :=
  low ≤ c.toNat && c.toNat ≤ high

/-- Whether one of the bytes of a character ends a string. -/
def endsString (c : Char) : Bool :=
  (String.singleton c).toUTF8.toList.contains 0x9C

namespace SequencePart

/-- The part that starts behind an escape character and the character `c`. -/
def afterEscape (c : Char) : SequencePart :=
  if isBetween 0x20 0x2F c then .designation
  else if c = '[' then .parameters
  else if c = ']' then .title
  else if c = 'P' then .deviceStart
  else if c = 'X' || c = '^' || c = '_' then .string
  else if isBetween 0x30 0x7E c then .outside
  else .escaped

/-- The part that the character behind `c` stands in.  An escape character starts a sequence
anywhere, and two characters end one anywhere. -/
def next (part : SequencePart) (c : Char) : SequencePart :=
  if c = '\x1b' then .escaped
  else if c = '\x18' || c = '\x1a' then .outside
  else
    match part with
    | .outside => .outside
    | .escaped => afterEscape c
    | .designation => if isBetween 0x30 0x7E c then .outside else .designation
    | .parameters => if isBetween 0x40 0x7E c then .outside else .parameters
    | .deviceStart =>
      if isBetween 0x20 0x2F c then .deviceDesignation
      else if isBetween 0x30 0x3F c then .deviceParameters
      else if isBetween 0x40 0x7E c then .string
      else .deviceStart
    | .deviceParameters =>
      if isBetween 0x20 0x2F c then .deviceDesignation
      else if isBetween 0x3C 0x7E c then .string
      else .deviceParameters
    | .deviceDesignation => if isBetween 0x30 0x7E c then .string else .deviceDesignation
    | .string => if endsString c then .outside else .string
    | .title => if c = '\x07' then .outside else .title

/-- Whether a character is visible in some part.  White space shows through the sequences that
hold no text of their own. -/
def shows (part : SequencePart) (c : Char) : Bool :=
  match part with
  | .outside => isPlain c
  | .escaped | .designation | .parameters => isLayout c
  | _ => false

end SequencePart

/-- What is visible of a text that goes on in some part.  A visible character interrupts a
sequence: plain characters show until the next command takes the sequence up again, and one
beyond ASCII ends it. -/
def visibleFrom (part : SequencePart) (interrupted : Bool) : List Char → List Char
  | [] => []
  | c :: rest =>
    if part.shows c || (interrupted && isPlain c) then
      c :: visibleFrom (if c.toNat < 0x80 then part else .outside) true rest
    else visibleFrom (part.next c) false rest

/-- The text without control sequences and without commands to a terminal. -/
def visible (text : String) : String :=
  String.ofList (visibleFrom .outside false text.toList)

theorem isPlain_of_isLayout {c : Char} (h : isLayout c = true) : isPlain c = true := by
  simp [isPlain, h]

theorem isPlain_of_shows {part : SequencePart} {c : Char} (h : part.shows c = true) :
    isPlain c = true := by
  cases part <;> simp only [SequencePart.shows, Bool.false_eq_true] at h
  all_goals first | exact h | exact isPlain_of_isLayout h

theorem isPlain_of_mem_visibleFrom {part : SequencePart} {interrupted : Bool} {text : List Char}
    {c : Char} (h : c ∈ visibleFrom part interrupted text) : isPlain c = true := by
  induction text generalizing part interrupted with
  | nil => simp [visibleFrom] at h
  | cons d rest ih =>
    unfold visibleFrom at h
    split at h
    · rename_i hd
      rcases List.mem_cons.1 h with rfl | h
      · rcases Bool.or_eq_true_iff.1 hd with hs | hp
        · exact isPlain_of_shows hs
        · exact (Bool.and_eq_true_iff.1 hp).2
      · exact ih h
    · exact ih h

theorem visibleFrom_outside_of_plain {text : List Char} (interrupted : Bool)
    (h : ∀ c ∈ text, isPlain c = true) : visibleFrom .outside interrupted text = text := by
  induction text generalizing interrupted with
  | nil => rfl
  | cons c rest ih =>
    have hc : SequencePart.outside.shows c = true := h c List.mem_cons_self
    simp only [visibleFrom, hc, Bool.true_or, if_true, ite_self]
    rw [ih true fun d hd => h d (List.mem_cons_of_mem c hd)]

theorem visible_of_plain {text : String} (h : ∀ c ∈ text.toList, isPlain c = true) :
    visible text = text := by
  simp [visible, visibleFrom_outside_of_plain false h]

end ManifestAtlas
