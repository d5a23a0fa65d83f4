import Mathlib
import ManifestAtlas.Report.Diagnostic

/-!
# Diagnostics without their colours

A coloured diagnostic is the plain one with control sequences around the
severity and around the word in front of the suggestions.  `eraseColours` takes
such sequences out of a text.

`ErasesTo` says of a coloured text and a plain one that erasing the colours of
the first gives the second, whatever comes behind them.  Texts without escape
characters erase to themselves (`erasesTo_self`), texts in a row to texts in a
row (`ErasesTo.append`), and so a coloured diagnostic erases to the plain one
(`erasesTo_text`).
-/

namespace ManifestAtlas

/-! ## Erasing colours -/

/-- Whether a character is a parameter of a colour sequence. -/
def isColourParameter (c : Char) : Bool :=
  c.isDigit || c == ';'

/-- What stands behind the colour sequence at the front of a text, if there is one: an escape
character, a bracket, parameters, and an `m`. -/
def behindColour? : List Char → Option (List Char)
  | '\x1b' :: '[' :: rest =>
    match rest.dropWhile isColourParameter with
    | 'm' :: after => some after
    | _ => none
  | _ => none

theorem length_behindColour? {text after : List Char} (h : behindColour? text = some after) :
    after.length < text.length := by
  unfold behindColour? at h
  split at h
  · rename_i rest
    split at h
    · rename_i hdrop
      cases h
      have hle := rest.dropWhile_suffix isColourParameter |>.length_le
      rw [hdrop, List.length_cons] at hle
      simp only [List.length_cons]
      omega
    · cases h
  · cases h

/-- The text without its colour sequences. -/
def eraseColours (text : List Char) : List Char :=
  match _h : behindColour? text with
  | some after => eraseColours after
  | none =>
    match text with
    | [] => []
    | c :: rest => c :: eraseColours rest
termination_by text.length
decreasing_by
  · exact length_behindColour? _h
  · simp

theorem eraseColours_nil : eraseColours [] = [] := by
  rw [eraseColours]
  rfl

theorem eraseColours_cons {c : Char} (h : c ≠ '\x1b') (rest : List Char) :
    eraseColours (c :: rest) = c :: eraseColours rest := by
  have hnone : behindColour? (c :: rest) = none := by
    unfold behindColour?
    split
    · rename_i heq
      exact absurd (List.cons.inj heq).1 h
    · rfl
  rw [eraseColours]
  split
  · rename_i hsome
    rw [hnone] at hsome
    cases hsome
  · rfl

theorem eraseColours_sequence {parameters : List Char}
    (h : ∀ c ∈ parameters, isColourParameter c = true) (rest : List Char) :
    eraseColours ('\x1b' :: '[' :: (parameters ++ 'm' :: rest)) = eraseColours rest := by
  have hsome : behindColour? ('\x1b' :: '[' :: (parameters ++ 'm' :: rest)) = some rest := by
    rw [behindColour?, List.dropWhile_append_of_pos h]
    rfl
  rw [eraseColours]
  split
  · rename_i hbehind
    rw [hsome] at hbehind
    rw [Option.some.inj hbehind]
  · rename_i hbehind
    rw [hsome] at hbehind
    cases hbehind

/-- The text without its colour sequences. -/
def withoutColours (text : String) : String :=
  String.ofList (eraseColours text.toList)

/-! ## Coloured and plain texts -/

/-- A text without escape characters. -/
def IsEscapeFree (text : String) : Prop :=
  '\x1b' ∉ text.toList

instance (text : String) : Decidable (IsEscapeFree text) :=
  inferInstanceAs (Decidable (_ ∉ _))

/-- Erasing the colours of one text gives another one, whatever comes behind. -/
def ErasesTo (coloured plain : String) : Prop :=
  ∀ rest, eraseColours (coloured.toList ++ rest) = plain.toList ++ eraseColours rest

theorem ErasesTo.append {a b c d : String} (h : ErasesTo a b) (h' : ErasesTo c d) :
    ErasesTo (a ++ c) (b ++ d) := by
  intro rest
  rw [String.toList_append, String.toList_append, List.append_assoc, h, h', List.append_assoc]

theorem erasesTo_self {text : String} (h : IsEscapeFree text) : ErasesTo text text := by
  intro rest
  have hchars : ∀ chars : List Char, '\x1b' ∉ chars →
      eraseColours (chars ++ rest) = chars ++ eraseColours rest := by
    intro chars hchars
    induction chars with
    | nil => rfl
    | cons c chars ih =>
      rw [List.mem_cons, not_or] at hchars
      rw [List.cons_append, eraseColours_cons (Ne.symm hchars.1), ih hchars.2, List.cons_append]
  exact hchars text.toList h

theorem ErasesTo.withoutColours_eq {coloured plain : String} (h : ErasesTo coloured plain) :
    withoutColours coloured = plain := by
  have hall := h []
  rw [List.append_nil, eraseColours_nil, List.append_nil] at hall
  rw [withoutColours, hall, String.ofList_toList]

theorem erasesTo_join {coloured plain : List String} (h : List.Forall₂ ErasesTo coloured plain) :
    ErasesTo (String.join coloured) (String.join plain) := by
  induction h with
  | nil => exact erasesTo_self (by decide)
  | cons hfirst _ ih =>
    rw [String.join_cons, String.join_cons]
    exact hfirst.append ih

/-! ## Diagnostics -/

/-- The texts that a diagnostic is made from. -/
def Diagnostic.texts (d : Diagnostic) : List String :=
  d.message :: (d.location.toList ++ (d.context ++ d.suggestions))

theorem erasesTo_sequence {parameters : List Char}
    (h : parameters.all isColourParameter = true) :
    ErasesTo (String.ofList ('\x1b' :: '[' :: (parameters ++ ['m']))) "" := by
  intro rest
  rw [String.toList_ofList, List.cons_append, List.cons_append, List.append_assoc,
    List.singleton_append, eraseColours_sequence (List.all_eq_true.1 h)]
  rfl

/-- The table of plain words has the names of the severities. -/
theorem plainWord_eq_word (severity : Severity) : severity.plainWord = severity.word := by
  cases severity <;> rfl

/-- The table of coloured words has the same names, each between a colour and its end. -/
theorem exists_colouredWord_eq (severity : Severity) : ∃ parameters : List Char,
    parameters.all isColourParameter = true ∧ severity.colouredWord =
      String.ofList ('\x1b' :: '[' :: (parameters ++ ['m'])) ++
        (severity.word ++ String.ofList ('\x1b' :: '[' :: (['0'] ++ ['m']))) := by
  cases severity with
  | error => exact ⟨['1', ';', '3', '1'], by decide, rfl⟩
  | warning => exact ⟨['1', ';', '3', '3'], by decide, rfl⟩
  | note => exact ⟨['1', ';', '3', '6'], by decide, rfl⟩
  | help => exact ⟨['1', ';', '3', '2'], by decide, rfl⟩

/-- The two tables agree but for the colours. -/
theorem erasesTo_show (severity : Severity) :
    ErasesTo (severity.show true) (severity.show false) := by
  obtain ⟨parameters, hparameters, hcoloured⟩ := exists_colouredWord_eq severity
  have hplain : severity.show false = "" ++ (severity.word ++ "") := by
    rw [String.append_empty, String.empty_append]
    exact plainWord_eq_word severity
  have hword : IsEscapeFree severity.word := by
    cases severity <;> decide
  rw [hplain, Severity.show, if_pos rfl, hcoloured]
  exact (erasesTo_sequence hparameters).append
    ((erasesTo_self hword).append (erasesTo_sequence (by decide)))

/-- Suggestions are introduced like a problem that is a help. -/
theorem helpPrefix_eq_show (coloured : Bool) :
    helpPrefix coloured = Severity.help.show coloured := by
  cases coloured <;> rfl

theorem isEscapeFree_append {a b : String} :
    IsEscapeFree (a ++ b) ↔ IsEscapeFree a ∧ IsEscapeFree b := by
  simp [IsEscapeFree]

/-- The decimal digits of a number. -/
theorem isEscapeFree_repr (n : Nat) : IsEscapeFree n.repr := by
  intro hmem
  rw [Nat.toList_repr] at hmem
  have hdigit := Nat.isDigit_of_mem_toDigits (by decide) (by decide) hmem
  exact absurd hdigit (by decide)

theorem isEscapeFree_numbered {i : Nat} {texts : List String} (h : ∀ t ∈ texts, IsEscapeFree t) :
    ∀ line ∈ Diagnostic.numbered i texts, IsEscapeFree line := by
  induction texts generalizing i with
  | nil => nofun
  | cons text texts ih =>
    rw [List.forall_mem_cons] at h
    rw [Diagnostic.numbered, List.forall_mem_cons]
    refine ⟨?_, ih h.2⟩
    simp only [isEscapeFree_append]
    exact ⟨⟨⟨by decide, isEscapeFree_repr i⟩, by decide⟩, h.1⟩

/-- The lines of a diagnostic erase one by one. -/
theorem erasesTo_lines {d : Diagnostic} (h : ∀ t ∈ d.texts, IsEscapeFree t) :
    List.Forall₂ ErasesTo (d.lines true) (d.lines false) := by
  simp only [Diagnostic.texts, List.forall_mem_cons, List.forall_mem_append] at h
  obtain ⟨hmessage, hlocation, hcontext, hsuggestions⟩ := h
  -- Only severities are coloured; a line without one is the same in both.
  have hplain : ∀ {mark : String} {texts : List String}, IsEscapeFree mark →
      (∀ t ∈ texts, IsEscapeFree t) →
      List.Forall₂ ErasesTo (texts.map (mark ++ ·)) (texts.map (mark ++ ·)) := by
    intro mark texts hmark htexts
    rw [List.forall₂_same, List.forall_mem_map]
    exact fun t ht => erasesTo_self (isEscapeFree_append.2 ⟨hmark, htexts t ht⟩)
  have hfirst : ErasesTo (d.severity.show true ++ ": " ++ d.message)
      (d.severity.show false ++ ": " ++ d.message) :=
    ((erasesTo_show d.severity).append (erasesTo_self (by decide))).append (erasesTo_self hmessage)
  have hlast : List.Forall₂ ErasesTo
      (if d.suggestions.isEmpty then []
        else s!"{helpPrefix true}: consider:" :: Diagnostic.numbered 1 d.suggestions)
      (if d.suggestions.isEmpty then []
        else s!"{helpPrefix false}: consider:" :: Diagnostic.numbered 1 d.suggestions) := by
    rw [helpPrefix_eq_show, helpPrefix_eq_show]
    split
    · exact .nil
    · refine .cons ((erasesTo_show .help).append (erasesTo_self (by decide))) ?_
      rw [List.forall₂_same]
      exact fun line hline => erasesTo_self (isEscapeFree_numbered hsuggestions line hline)
  refine .cons hfirst (List.rel_append (List.rel_append ?_ ?_) hlast)
  · exact hplain (by decide) hlocation
  · exact hplain (by decide) hcontext

/-- A coloured diagnostic is the plain one, but for its colours. -/
theorem erasesTo_text {d : Diagnostic} (h : ∀ t ∈ d.texts, IsEscapeFree t) :
    ErasesTo (d.text true) (d.text false) := by
  refine erasesTo_join ?_
  rw [List.forall₂_map_left_iff, List.forall₂_map_right_iff]
  exact (erasesTo_lines h).imp fun _ _ hline => hline.append (erasesTo_self (by decide))

end ManifestAtlas
