import Mathlib
import ManifestAtlas.Mermaid.NodeId

/-!
# Identifiers that share a node

Two identifiers share a node of a diagram when they give one word.  This module
says exactly which ones do.

* Masking alone lets two identifiers meet when they are as long as each other
  and differ only where neither has a letter or a digit
  (`maskNodeChars_eq_iff`).
* The empty identifier is written `x`, and so is `x`.
* A digit in front gets an underscore, and so such an identifier meets those
  that already have a masked character there (`PaddedAlike`).

`nodeWord_eq_iff` says that there is no other way.  The main statement is
`nodeId_eq_iff_meet`, which adds that words are kept as they are.
-/

namespace ManifestAtlas

/-! ## Characters -/

/-- A digit: `[0-9]`. -/
def IsAsciiDigit (c : Char) : Prop :=
  '0' ≤ c ∧ c ≤ '9'

/-- A letter: `[A-Za-z]`. -/
def IsAsciiLetter (c : Char) : Prop :=
  'A' ≤ c ∧ c ≤ 'Z' ∨ 'a' ≤ c ∧ c ≤ 'z'

/-- A letter or a digit: `[A-Za-z0-9]`. -/
def IsLetterOrDigit (c : Char) : Prop :=
  IsAsciiLetter c ∨ IsAsciiDigit c

instance : DecidablePred IsAsciiDigit :=
  fun _ => inferInstanceAs (Decidable (_ ∧ _))

instance : DecidablePred IsAsciiLetter :=
  fun _ => inferInstanceAs (Decidable (_ ∨ _))

instance : DecidablePred IsLetterOrDigit :=
  fun _ => inferInstanceAs (Decidable (_ ∨ _))

theorem isDigit_iff {c : Char} : c.isDigit = true ↔ IsAsciiDigit c := by
  simp [Char.isDigit, IsAsciiDigit, Char.le_def]

theorem isNodeChar_iff {c : Char} : isNodeChar c = true ↔ IsLetterOrDigit c ∨ c = '_' := by
  simp [isNodeChar, Char.isAlphanum, Char.isAlpha, Char.isUpper, Char.isLower, isDigit_iff,
    IsLetterOrDigit, IsAsciiLetter, Char.le_def]

/-- The character that stands for one of an identifier. -/
def maskChar (c : Char) : Char :=
  if isNodeChar c then c else '_'

theorem maskNodeChars_eq_map (raw : List Char) : maskNodeChars raw = raw.map maskChar := rfl

theorem maskChar_of_isLetterOrDigit {c : Char} (h : IsLetterOrDigit c) : maskChar c = c :=
  if_pos (isNodeChar_iff.2 (.inl h))

theorem maskChar_of_not_isLetterOrDigit {c : Char} (h : ¬ IsLetterOrDigit c) :
    maskChar c = '_' := by
  rw [maskChar]
  split
  · rename_i hc
    exact (isNodeChar_iff.1 hc).resolve_left h
  · rfl

theorem not_isLetterOrDigit_underscore : ¬ IsLetterOrDigit '_' := by decide

/-- Only what is neither a letter nor a digit is masked. -/
theorem maskChar_eq_underscore_iff {c : Char} : maskChar c = '_' ↔ ¬ IsLetterOrDigit c := by
  refine ⟨fun h hc => not_isLetterOrDigit_underscore ?_, maskChar_of_not_isLetterOrDigit⟩
  rwa [← h, maskChar_of_isLetterOrDigit hc]

/-- Two characters are masked alike when they are the same, or neither is a letter or a digit. -/
theorem maskChar_eq_iff {c d : Char} :
    maskChar c = maskChar d ↔ c = d ∨ ¬ IsLetterOrDigit c ∧ ¬ IsLetterOrDigit d := by
  by_cases hd : IsLetterOrDigit d
  · rw [maskChar_of_isLetterOrDigit hd, or_iff_left (fun h => h.2 hd)]
    by_cases hc : IsLetterOrDigit c
    · rw [maskChar_of_isLetterOrDigit hc]
    · rw [maskChar_of_not_isLetterOrDigit hc]
      constructor
      · rintro rfl
        exact absurd hd not_isLetterOrDigit_underscore
      · rintro rfl
        exact absurd hd hc
  · rw [maskChar_of_not_isLetterOrDigit hd, maskChar_eq_underscore_iff]
    constructor
    · intro hc
      exact .inr ⟨hc, hd⟩
    · rintro (rfl | ⟨hc, _⟩)
      · exact hd
      · exact hc

/-! ## Identifiers -/

/-- Two identifiers are as long as each other, and at every position their characters are the same
or neither is a letter or a digit. -/
def Alike (a b : List Char) : Prop :=
  List.Forall₂ (fun c d => c = d ∨ ¬ IsLetterOrDigit c ∧ ¬ IsLetterOrDigit d) a b

/-- One identifier starts with a digit, and the other is a character that is neither a letter nor a
digit, followed by something alike. -/
def PaddedAlike (a b : List Char) : Prop :=
  (∃ c ∈ a.head?, IsAsciiDigit c) ∧ ∃ c rest, b = c :: rest ∧ ¬ IsLetterOrDigit c ∧ Alike a rest

/-- The three ways in which two identifiers can give one word: they are alike, or they are the empty
identifier and the name that stands in for it, or one of them has a character in front of the digits
of the other. -/
def Meet (a b : List Char) : Prop :=
  Alike a b ∨ (a = [] ∧ b = ['x'] ∨ a = ['x'] ∧ b = []) ∨ PaddedAlike a b ∨ PaddedAlike b a

/-- A word that can name a node: `[A-Za-z_][A-Za-z0-9_]*`. -/
def IsNodeWord : List Char → Prop
  | [] => False
  | c :: rest => (IsAsciiLetter c ∨ c = '_') ∧ ∀ x ∈ rest, IsLetterOrDigit x ∨ x = '_'

theorem maskNodeChars_eq_iff {a b : List Char} : maskNodeChars a = maskNodeChars b ↔ Alike a b := by
  rw [maskNodeChars_eq_map, maskNodeChars_eq_map, ← List.forall₂_eq_eq_eq,
    List.forall₂_map_left_iff, List.forall₂_map_right_iff, Alike]
  simp only [maskChar_eq_iff]

theorem isDigit_maskChar (c : Char) : (maskChar c).isDigit = c.isDigit := by
  by_cases hc : IsLetterOrDigit c
  · rw [maskChar_of_isLetterOrDigit hc]
  · have hdigit : ¬ c.isDigit = true := fun h => hc (.inr (isDigit_iff.1 h))
    rw [maskChar_of_not_isLetterOrDigit hc, Bool.eq_false_iff.2 hdigit]
    rfl

theorem nodeWord_cons (c : Char) (rest : List Char) :
    nodeWord (c :: rest) =
      if c.isDigit then '_' :: maskNodeChars (c :: rest) else maskNodeChars (c :: rest) := by
  rw [← isDigit_maskChar c]
  rfl

/-- A digit in front gets an underscore. -/
theorem nodeWord_of_digit {raw : List Char} (h : ∃ c ∈ raw.head?, IsAsciiDigit c) :
    nodeWord raw = '_' :: maskNodeChars raw := by
  obtain ⟨c, hc, hdigit⟩ := h
  cases raw with
  | nil => cases hc
  | cons first rest =>
    obtain rfl := Option.some.inj hc
    rw [nodeWord_cons, if_pos (isDigit_iff.2 hdigit)]

/-- Anything else that is not empty is masked only. -/
theorem nodeWord_of_not_digit {raw : List Char} (hne : raw ≠ [])
    (h : ¬ ∃ c ∈ raw.head?, IsAsciiDigit c) : nodeWord raw = maskNodeChars raw := by
  cases raw with
  | nil => exact absurd rfl hne
  | cons first rest =>
    rw [nodeWord_cons, if_neg]
    exact fun hdigit => h ⟨first, rfl, isDigit_iff.1 hdigit⟩

/-- The three ways to a word: that of the empty identifier, that of a digit in front, and masking
alone. -/
theorem nodeWord_cases (raw : List Char) :
    raw = [] ∧ nodeWord raw = ['x'] ∨
      (∃ c ∈ raw.head?, IsAsciiDigit c) ∧ nodeWord raw = '_' :: maskNodeChars raw ∨
      nodeWord raw = maskNodeChars raw := by
  by_cases hdigit : ∃ c ∈ raw.head?, IsAsciiDigit c
  · exact .inr (.inl ⟨hdigit, nodeWord_of_digit hdigit⟩)
  · by_cases hempty : raw = []
    · subst hempty
      exact .inl ⟨rfl, rfl⟩
    · exact .inr (.inr (nodeWord_of_not_digit hempty hdigit))

/-! ## Which identifiers meet -/

/-- Identifiers that are alike give one word, since the word depends on the masked characters. -/
theorem nodeWord_of_alike {a b : List Char} (h : Alike a b) : nodeWord a = nodeWord b := by
  rw [nodeWord, nodeWord, maskNodeChars_eq_iff.2 h]

theorem nodeWord_of_paddedAlike {a b : List Char} (h : PaddedAlike a b) :
    nodeWord a = nodeWord b := by
  obtain ⟨hdigit, c, rest, rfl, hc, halike⟩ := h
  have hfirst : ¬ ∃ d ∈ (c :: rest).head?, IsAsciiDigit d := by
    rintro ⟨d, hd, hdigit⟩
    obtain rfl := Option.some.inj hd
    exact hc (.inr hdigit)
  rw [nodeWord_of_digit hdigit, nodeWord_of_not_digit (List.cons_ne_nil c rest) hfirst,
    maskNodeChars_eq_iff.2 halike, maskNodeChars_eq_map (c :: rest), List.map_cons,
    maskChar_of_not_isLetterOrDigit hc, maskNodeChars_eq_map]

theorem nodeWord_of_meet {a b : List Char} (h : Meet a b) : nodeWord a = nodeWord b := by
  rcases h with halike | (⟨rfl, rfl⟩ | ⟨rfl, rfl⟩) | hpadded | hpadded
  · exact nodeWord_of_alike halike
  · decide
  · decide
  · exact nodeWord_of_paddedAlike hpadded
  · exact (nodeWord_of_paddedAlike hpadded).symm

/-- What gives the word of an identifier with a digit in front by masking alone has a masked
character in place of the underscore. -/
theorem paddedAlike_of_cons_eq {a b : List Char} (ha : ∃ c ∈ a.head?, IsAsciiDigit c)
    (h : '_' :: maskNodeChars a = maskNodeChars b) : PaddedAlike a b := by
  cases b with
  | nil => cases h
  | cons c rest =>
    obtain ⟨hc, hrest⟩ := List.cons.inj h
    exact ⟨ha, c, rest, rfl, maskChar_eq_underscore_iff.1 hc.symm, maskNodeChars_eq_iff.1 hrest⟩

/-- Only `x` is masked as `x`. -/
theorem eq_of_maskNodeChars_eq {raw : List Char} (h : maskNodeChars raw = ['x']) : raw = ['x'] := by
  have hx : ['x'] = maskNodeChars ['x'] := by decide
  rw [hx, maskNodeChars_eq_iff] at h
  cases h with
  | cons hc hrest =>
    cases hrest
    rcases hc with rfl | ⟨_, hc⟩
    · rfl
    · exact absurd (by decide) hc

theorem meet_of_nodeWord_eq {a b : List Char} (h : nodeWord a = nodeWord b) : Meet a b := by
  rcases nodeWord_cases a with ⟨rfl, hwa⟩ | ⟨ha, hwa⟩ | hwa <;>
    rcases nodeWord_cases b with ⟨rfl, hwb⟩ | ⟨hb, hwb⟩ | hwb <;> replace h := hwa ▸ hwb ▸ h
  case inl.inl => exact .inl .nil
  case inl.inr.inl => exact absurd (List.cons.inj h).1 (by decide)
  case inl.inr.inr => exact .inr (.inl (.inl ⟨rfl, eq_of_maskNodeChars_eq h.symm⟩))
  case inr.inl.inl => exact absurd (List.cons.inj h).1 (by decide)
  case inr.inl.inr.inl => exact .inl (maskNodeChars_eq_iff.1 (List.cons.inj h).2)
  case inr.inl.inr.inr => exact .inr (.inr (.inl (paddedAlike_of_cons_eq ha h)))
  case inr.inr.inl => exact .inr (.inl (.inr ⟨eq_of_maskNodeChars_eq h, rfl⟩))
  case inr.inr.inr.inl => exact .inr (.inr (.inr (paddedAlike_of_cons_eq hb h.symm)))
  case inr.inr.inr.inr => exact .inl (maskNodeChars_eq_iff.1 h)

theorem nodeWord_eq_iff {a b : List Char} : nodeWord a = nodeWord b ↔ Meet a b :=
  ⟨meet_of_nodeWord_eq, nodeWord_of_meet⟩

theorem nodeId_eq_iff {tag a b : String} :
    nodeId tag a = nodeId tag b ↔ nodeWord a.toList = nodeWord b.toList := by
  rw [nodeId, nodeId, String.append_right_inj, String.ofList_inj]

/-! ## Words -/

theorem IsAsciiLetter.not_digit {c : Char} (h : IsAsciiLetter c) : ¬ IsAsciiDigit c := by
  simp only [IsAsciiLetter, IsAsciiDigit, Char.le_def, UInt32.le_iff_toNat_le] at h ⊢
  have hdigits : '9'.val.toNat < 'A'.val.toNat ∧ '9'.val.toNat < 'a'.val.toNat := by decide
  omega

theorem isNodeWord_iff {word : List Char} : IsNodeWord word ↔ IsWord word := by
  cases word with
  | nil => exact Iff.rfl
  | cons c rest =>
    have hfirst : c.isDigit = false ∧ isNodeChar c = true ↔ IsAsciiLetter c ∨ c = '_' := by
      rw [← Bool.not_eq_true, isDigit_iff, isNodeChar_iff, IsLetterOrDigit]
      constructor
      · rintro ⟨hdigit, (hletter | hc) | hc⟩
        · exact .inl hletter
        · exact absurd hc hdigit
        · exact .inr hc
      · rintro (hletter | rfl)
        · exact ⟨hletter.not_digit, .inl (.inl hletter)⟩
        · exact ⟨by decide, .inr rfl⟩
    rw [IsNodeWord, IsWord, List.forall_mem_cons, ← and_assoc, hfirst]
    simp only [isNodeChar_iff]

theorem maskNodeChars_of_all {word : List Char} (h : ∀ c ∈ word, isNodeChar c = true) :
    maskNodeChars word = word := by
  have hsame : ∀ c ∈ word, maskChar c = id c := fun c hc => if_pos (h c hc)
  rw [maskNodeChars_eq_map, List.map_congr_left hsame, List.map_id]

/-- Words, and nothing else, stand for themselves. -/
theorem nodeWord_eq_self_iff {raw : List Char} : nodeWord raw = raw ↔ IsNodeWord raw := by
  rw [isNodeWord_iff]
  constructor
  · intro h
    rw [← h]
    exact isWord_nodeWord raw
  · intro h
    cases raw with
    | nil => cases h
    | cons c rest => rw [nodeWord_cons, if_neg (by simp [h.1]), maskNodeChars_of_all h.2]

theorem nodeId_empty_eq_self_iff {raw : String} : nodeId "" raw = raw ↔ IsNodeWord raw.toList := by
  rw [nodeId, String.empty_append, ← String.toList_inj, String.toList_ofList, nodeWord_eq_self_iff]

/-- The identifier of a node is its tag followed by a word.  Two identifiers of one kind share a
node exactly when they meet.  Without a tag, words stand for themselves and nothing else does, so
that minting twice changes nothing; and no two words share a node. -/
theorem nodeId_eq_iff_meet (tag : String) :
    (∀ raw, ∃ word, IsNodeWord word ∧ nodeId tag raw = tag ++ String.ofList word) ∧
    (∀ a b, nodeId tag a = nodeId tag b ↔ Meet a.toList b.toList) ∧
    (∀ raw, nodeId "" (nodeId "" raw) = nodeId "" raw) ∧
    (∀ raw, nodeId "" raw = raw ↔ IsNodeWord raw.toList) ∧
    Set.InjOn (nodeId tag) {word | IsNodeWord word.toList} := by
  have hword : ∀ raw : String, IsNodeWord (nodeWord raw.toList) := fun raw =>
    isNodeWord_iff.2 (isWord_nodeWord raw.toList)
  refine ⟨fun raw => ⟨_, hword raw, rfl⟩, fun a b => nodeId_eq_iff.trans nodeWord_eq_iff,
    fun raw => ?_, fun raw => nodeId_empty_eq_self_iff, fun v hv w hw h => ?_⟩
  · rw [nodeId_empty_eq_self_iff, nodeId, String.empty_append, String.toList_ofList]
    exact hword raw
  · rw [nodeId_eq_iff, nodeWord_eq_self_iff.2 hv, nodeWord_eq_self_iff.2 hw] at h
    exact String.toList_inj.1 h

end ManifestAtlas
