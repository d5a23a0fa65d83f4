import ManifestAtlas.Json.Skip
import ManifestAtlas.Proofs.JsonScanning

/-!
# Skipping values

A value that nobody asks for is skipped whatever it is: the loop that keeps the
open brackets in a list comes out behind every text that follows the grammar
(`outcome_skip`).  Where the loop goes on after a value depends on the brackets
around it; `resume` says where.
-/

namespace ManifestAtlas.Json

/-! ## What stands at the ends of a value -/

/-- Whether a value can start with the character. -/
def StartsValue (c : Char) : Prop :=
  isSpace c = false ∧ c ≠ ',' ∧ c ≠ ']' ∧ c ≠ '\x7d'

theorem startsValue_of_opensNumeral {c : Char} (h : opensNumeral c = true) : StartsValue c := by
  have hne (d : Char) (hd : opensNumeral d = false) : c ≠ d := by
    rintro rfl
    simp [hd] at h
  refine ⟨?_, hne _ (by decide), hne _ (by decide), hne _ (by decide)⟩
  simp [isSpace, hne ' ' (by decide), hne '\n' (by decide), hne '\t' (by decide),
    hne '\r' (by decide)]

/-- Whether a text of the tree can start with the character. -/
def Tree.Opens : Tree → Char → Prop
  | .null, c => c = 'n'
  | .boolean value, c => value = true ∧ c = 't' ∨ value = false ∧ c = 'f'
  | .number _, c => opensNumeral c = true
  | .string _, c => c = '"'
  | .array _, c => c = '['
  | .object _, c => c = '\x7b'

/-- The first character of a value shows what kind of value it is. -/
theorem Tree.Spelled.exists_opens {t : Tree} {body : List Char} (h : t.Spelled body) :
    ∃ c more, body = c :: more ∧ t.Opens c := by
  cases t with
  | null => exact ⟨_, _, h, rfl⟩
  | boolean value => cases value <;> exact ⟨_, _, h, by simp [Tree.Opens]⟩
  | number n =>
    have hend : StopsNumber [] := trivial
    obtain ⟨c, more, hbody, hc, -⟩ := outcome_numeral .eofValue h hend
    exact ⟨c, more, hbody, hc⟩
  | string pieces =>
    have hstring : IsStringText pieces body := h
    exact ⟨_, _, hstring.2, rfl⟩
  | array ts =>
    obtain ⟨more, -, hbody⟩ := h
    exact ⟨_, _, hbody, rfl⟩
  | object ms =>
    obtain ⟨more, -, hbody⟩ := h
    exact ⟨_, _, hbody, rfl⟩

/-- No value starts with a character that stands between values. -/
theorem Tree.Opens.startsValue {t : Tree} {c : Char} (h : t.Opens c) : StartsValue c := by
  cases t with
  | number n => exact startsValue_of_opensNumeral h
  | boolean value =>
    obtain ⟨-, rfl⟩ | ⟨-, rfl⟩ := h <;> exact ⟨by decide, by decide, by decide, by decide⟩
  | null | string | array | object =>
    obtain rfl : c = _ := h
    exact ⟨by decide, by decide, by decide, by decide⟩

/-- Behind some space, a value shows its first character. -/
theorem Tree.Spelled.exists_ahead {t : Tree} {body space : List Char} (h : t.Spelled body)
    (hspace : IsSpace space) (rest : List Char) : ∃ c more hr,
      ahead (space ++ (body ++ rest)) = .next c more hr ∧ body ++ rest = c :: more ∧ t.Opens c := by
  obtain ⟨c, more, rfl, hc⟩ := h.exists_opens
  obtain ⟨hr, hahead⟩ := ahead_space hspace hc.startsValue.1 (more ++ rest)
  exact ⟨c, more ++ rest, hr, hahead, rfl, hc⟩

/-- Behind some space, a string shows its opening quote. -/
theorem IsStringText.exists_ahead {pieces : List Piece} {name space : List Char}
    (h : IsStringText pieces name) (hspace : IsSpace space) (rest : List Char) : ∃ hr,
      ahead (space ++ (name ++ rest)) =
        .next '"' (pieces.flatMap Piece.text ++ '"' :: rest) hr := by
  have hname : name ++ rest = '"' :: (pieces.flatMap Piece.text ++ '"' :: rest) := by simp [h.2]
  rw [hname]
  exact ahead_space hspace (by decide) _

theorem stopsNumber_of_isSpace {c : Char} (h : isSpace c = true) (rest : List Char) :
    StopsNumber (c :: rest) := by
  have hc : c = ' ' ∨ c = '\n' ∨ c = '\t' ∨ c = '\r' := by
    simpa [isSpace, or_assoc] using h
  obtain rfl | rfl | rfl | rfl := hc <;> exact ⟨by decide, by decide, by decide, by decide⟩

/-- A number ends in front of space, if it ends behind it. -/
theorem StopsNumber.space {space rest : List Char} (hrest : StopsNumber rest)
    (h : IsSpace space) : StopsNumber (space ++ rest) := by
  cases space with
  | nil => exact hrest
  | cons c space => exact stopsNumber_of_isSpace (h c List.mem_cons_self) _

/-- A number ends in front of a comma. -/
theorem IsGap.stopsNumber {gap : List Char} (h : IsGap false gap) (rest : List Char) :
    StopsNumber (gap ++ rest) := by
  obtain ⟨before, after, hbefore, -, rfl⟩ := h
  rw [List.append_assoc]
  exact StopsNumber.space ⟨by decide, by decide, by decide, by decide⟩ hbefore

/-- A number ends where the entries of an array go on. -/
theorem EntriesSpelled.stopsNumber {ts : List Tree} {body : List Char}
    (h : EntriesSpelled false ts body) (rest : List Char) : StopsNumber (body ++ rest) := by
  cases ts with
  | nil =>
    obtain ⟨space, hspace, rfl⟩ := h
    rw [List.append_assoc]
    exact StopsNumber.space ⟨by decide, by decide, by decide, by decide⟩ hspace
  | cons t ts =>
    obtain ⟨gap, _, _, hgap, -, -, rfl⟩ := h
    rw [List.append_assoc]
    exact hgap.stopsNumber _

/-- A number ends where the members of an object go on. -/
theorem MembersSpelled.stopsNumber {ms : List (List Piece × Tree)} {body : List Char}
    (h : MembersSpelled false ms body) (rest : List Char) : StopsNumber (body ++ rest) := by
  cases ms with
  | nil =>
    obtain ⟨space, hspace, rfl⟩ := h
    rw [List.append_assoc]
    exact StopsNumber.space ⟨by decide, by decide, by decide, by decide⟩ hspace
  | cons m ms =>
    obtain ⟨gap, _, _, _, _, hgap, -, -, -, -, rfl⟩ := h
    rw [List.append_assoc]
    exact hgap.stopsNumber _

/-- A colon is read up to the space behind it. -/
theorem IsColon.outcome_colon {mark : List Char} (h : IsColon mark) :
    ∃ after, IsSpace after ∧ ∀ rest, outcome (colon (mark ++ rest)) = some ((), after ++ rest) := by
  obtain ⟨before, after, hbefore, hafter, rfl⟩ := h
  refine ⟨after, hafter, fun rest => ?_⟩
  obtain ⟨hr, hahead⟩ := ahead_space hbefore (show isSpace ':' = false by decide) (after ++ rest)
  rw [List.append_assoc, List.cons_append, colon, hahead]
  rfl

/-! ## Skipping -/

/-- Where skipping goes on after a value: inside the innermost open bracket, if there is one. -/
def resume (frames : List Bracket) (text : List Char) (h : text.length < bound) :
    Except Failure (Read bound Unit) :=
  match frames with
  | [] => .ok ⟨(), text, h⟩
  | frame :: frames => skipFrom (.inside frame true) frames text (length_le_of_lt h)

section

variable {frames : List Bracket} {text rest : List Char}

/-- A value without brackets is skipped as such. -/
theorem skipFrom_scalar {c : Char} {more : List Char} {hc : more.length < text.length}
    (hahead : ahead text = .next c more hc) (hopens : opens? c = none)
    (hread : outcome (skipScalar c more hc) = some ((), rest)) (h : text.length ≤ bound) :
    ∃ hr, skipFrom .value frames text h = resume frames rest hr := by
  obtain ⟨hr, hread⟩ := outcome_eq_some.1 hread
  refine ⟨Nat.lt_of_lt_of_le hr h, ?_⟩
  rw [skipFrom.eq_def]
  simp only [hahead, hopens, hread]
  cases frames <;> rfl

/-- Behind an opening bracket, skipping goes on inside of it. -/
theorem skipFrom_open {c : Char} {more : List Char} {hc : more.length < text.length}
    {frame : Bracket} (hahead : ahead text = .next c more hc) (hopens : opens? c = some frame)
    (h : text.length ≤ bound) : skipFrom .value frames text h =
      skipFrom (.inside frame false) frames more
        (Nat.le_trans (Nat.le_of_lt hc) h) := by
  rw [skipFrom.eq_def]
  simp only [hahead, hopens]

/-- At its closing bracket, skipping leaves a bracket. -/
theorem skipFrom_close {frame : Bracket} {afterValue : Bool} {hc : rest.length < text.length}
    (hahead : ahead text = .next frame.closing rest hc) (h : text.length ≤ bound) :
    ∃ hr, skipFrom (.inside frame afterValue) frames text h = resume frames rest hr := by
  refine ⟨Nat.lt_of_lt_of_le hc h, ?_⟩
  have hcomma : frame.closing ≠ ',' := by cases frame <;> decide
  rw [skipFrom.eq_def]
  simp only [hahead, hcomma, false_and, if_false, if_true]
  cases frames <;> rfl

/-- At a comma, skipping goes on with the next entry. -/
theorem skipFrom_comma {frame : Bracket} {hc : rest.length < text.length}
    (hahead : ahead text = .next ',' rest hc) (h : text.length ≤ bound) :
    skipFrom (.inside frame true) frames text h =
      skipFrom frame.entry (frame :: frames) rest (Nat.le_trans (Nat.le_of_lt hc) h) := by
  rw [skipFrom.eq_def]
  simp only [hahead, and_self, if_true]

/-- Behind an opening bracket, skipping goes on with the first entry. -/
theorem skipFrom_first {frame : Bracket} {c : Char} {hc : rest.length < text.length}
    (hahead : ahead text = .next c rest hc) (hclose : c ≠ frame.closing)
    (h : text.length ≤ bound) : skipFrom (.inside frame false) frames text h =
      skipFrom frame.entry (frame :: frames) text h := by
  rw [skipFrom.eq_def]
  simp only [hahead, hclose, Bool.false_eq_true, and_false, if_false]

/-- Behind a key, skipping goes on with a value. -/
theorem skipFrom_member (hread : outcome (skipKey text) = some ((), rest))
    (h : text.length ≤ bound) :
    ∃ hr, skipFrom .member frames text h = skipFrom .value frames rest hr := by
  obtain ⟨hr, hread⟩ := outcome_eq_some.1 hread
  refine ⟨Nat.le_trans (Nat.le_of_lt hr) h, ?_⟩
  rw [skipFrom.eq_def]
  simp only [hread]

end

/-- Whether the value has no brackets. -/
def Tree.IsScalar : Tree → Prop
  | .array _ | .object _ => False
  | _ => True

theorem outcome_skipScalar {t : Tree} {body rest : List Char} (ht : t.IsScalar)
    (h : t.Spelled body) (hrest : StopsNumber rest) :
    ∃ c more, body = c :: more ∧ isSpace c = false ∧ opens? c = none ∧
      ∀ {bound : Nat} (hb : (more ++ rest).length < bound),
        outcome (skipScalar c (more ++ rest) hb) = some ((), rest) := by
  cases t with
  | null => exact ⟨_, _, h, by decide, by decide, outcome_literal () "ull".toList rest⟩
  | boolean value =>
    cases value with
    | true => exact ⟨_, _, h, by decide, by decide, outcome_literal () "rue".toList rest⟩
    | false => exact ⟨_, _, h, by decide, by decide, outcome_literal () "alse".toList rest⟩
  | number n =>
    obtain ⟨c, more, hbody, hc, hread⟩ := outcome_numeral .invalidNumber h hrest
    have hne (d : Char) (hd : opensNumeral d = false) : c ≠ d := by
      rintro rfl
      simp [hd] at hc
    refine ⟨c, more, hbody, (startsValue_of_opensNumeral hc).1, ?_, fun hb => ?_⟩
    · simp [opens?, hne '[' (by decide), hne '\x7b' (by decide)]
    · simp [skipScalar, hne 'n' (by decide), hne 't' (by decide), hne 'f' (by decide),
        hne '"' (by decide), hc, hread]
  | string pieces =>
    obtain ⟨hps, hbody⟩ : IsStringText pieces body := h
    exact ⟨_, _, hbody, by decide, by decide, skimString_pieces pieces hps (by simp)⟩
  | array ts => exact ht.elim
  | object ms => exact ht.elim

/-- A key is skipped up to the space in front of its value. -/
theorem outcome_skipKey {key : List Piece} {space name mark : List Char} (hspace : IsSpace space)
    (hname : IsStringText key name) (hmark : IsColon mark) :
    ∃ after, IsSpace after ∧ ∀ rest,
      outcome (skipKey (space ++ (name ++ (mark ++ rest)))) = some ((), after ++ rest) := by
  obtain ⟨after, hafter, hcolon⟩ := hmark.outcome_colon
  refine ⟨after, hafter, fun rest => ?_⟩
  obtain ⟨hr, hahead⟩ := hname.exists_ahead hspace (mark ++ rest)
  obtain ⟨hq, hskim⟩ := outcome_eq_some.1 (skimString_pieces key hname.1 rfl hr)
  obtain ⟨hc, hread⟩ := outcome_eq_some.1 (hcolon rest)
  rw [skipKey, hahead]
  simp only [bind, Except.bind, hskim, hread]
  rfl

theorem skipFrom_scalarTree {frames : List Bracket} (t : Tree) (ht : t.IsScalar)
    {body space rest text : List Char} (hbody : t.Spelled body) (hspace : IsSpace space)
    (hrest : StopsNumber rest) (htext : text = space ++ (body ++ rest))
    (h : text.length ≤ bound) :
    ∃ hr, skipFrom .value frames text h = resume frames rest hr := by
  obtain ⟨c, more, rfl, hc, hopens, hread⟩ := outcome_skipScalar ht hbody hrest
  obtain ⟨hr, hahead⟩ := ahead_space hspace hc (more ++ rest)
  subst htext
  exact skipFrom_scalar hahead hopens (hread _) h

/-- An empty bracket, or what is left of one, is skipped with its closing bracket. -/
theorem skipFrom_closing (frames : List Bracket) (frame : Bracket) (afterValue : Bool)
    {space rest text : List Char} (hspace : IsSpace space)
    (htext : text = space ++ frame.closing :: rest) (h : text.length ≤ bound) :
    ∃ hr, skipFrom (.inside frame afterValue) frames text h = resume frames rest hr := by
  have hclosing : isSpace frame.closing = false := by cases frame <;> decide
  obtain ⟨hr, hahead⟩ := ahead_space hspace hclosing rest
  subst htext
  exact skipFrom_close hahead h

mutual

/-- A value is skipped whatever it is. -/
theorem skipFrom_tree (frames : List Bracket) : (t : Tree) → {body : List Char} →
    t.Spelled body → {space rest : List Char} → IsSpace space → StopsNumber rest →
    {text : List Char} → text = space ++ (body ++ rest) → (h : text.length ≤ bound) →
      ∃ hr, skipFrom .value frames text h = resume frames rest hr
  | .array ts, body, hbody, space, rest, hspace, _, text, htext, h => by
    obtain ⟨more, hmore, rfl⟩ := hbody
    obtain ⟨hr, hahead⟩ := ahead_space hspace (show isSpace '[' = false by decide) (more ++ rest)
    rw [List.cons_append] at htext
    subst htext
    rw [skipFrom_open hahead (show opens? '[' = some .array by decide)]
    exact skipFrom_entries frames true ts hmore rfl _
  | .object ms, body, hbody, space, rest, hspace, _, text, htext, h => by
    obtain ⟨more, hmore, rfl⟩ := hbody
    obtain ⟨hr, hahead⟩ := ahead_space hspace (show isSpace '\x7b' = false by decide) (more ++ rest)
    rw [List.cons_append] at htext
    subst htext
    rw [skipFrom_open hahead (show opens? '\x7b' = some .object by decide)]
    exact skipFrom_members frames true ms hmore rfl _
  | .null, _, hbody, _, _, hspace, hrest, _, htext, h =>
    skipFrom_scalarTree .null trivial hbody hspace hrest htext h
  | .boolean _, _, hbody, _, _, hspace, hrest, _, htext, h =>
    skipFrom_scalarTree (.boolean _) trivial hbody hspace hrest htext h
  | .number _, _, hbody, _, _, hspace, hrest, _, htext, h =>
    skipFrom_scalarTree (.number _) trivial hbody hspace hrest htext h
  | .string _, _, hbody, _, _, hspace, hrest, _, htext, h =>
    skipFrom_scalarTree (.string _) trivial hbody hspace hrest htext h

/-- The entries of an array are skipped up to its closing bracket. -/
theorem skipFrom_entries (frames : List Bracket) : (first : Bool) → (ts : List Tree) →
    {body : List Char} → EntriesSpelled first ts body → {rest text : List Char} →
    text = body ++ rest → (h : text.length ≤ bound) →
      ∃ hr, skipFrom (.inside .array (!first)) frames text h = resume frames rest hr
  | first, [], body, hbody, rest, text, htext, h => by
    obtain ⟨space, hspace, rfl⟩ := hbody
    exact skipFrom_closing frames .array (!first) hspace (by simpa [Bracket.closing] using htext) h
  | true, t :: ts, body, hbody, rest, text, htext, h => by
    obtain ⟨gap, word, more, hgap, hword, hmore, rfl⟩ := hbody
    obtain ⟨c, _, _, hahead, -, hc⟩ := hword.exists_ahead hgap (more ++ rest)
    have htext : text = gap ++ (word ++ (more ++ rest)) := by simpa using htext
    subst htext
    rw [Bool.not_true, skipFrom_first hahead (show c ≠ Bracket.array.closing from
      hc.startsValue.2.2.1)]
    obtain ⟨hr, hread⟩ := skipFrom_tree (.array :: frames) t hword hgap (hmore.stopsNumber rest)
      rfl h
    rw [Bracket.entry, hread]
    exact skipFrom_entries frames false ts hmore rfl _
  | false, t :: ts, body, hbody, rest, text, htext, h => by
    obtain ⟨gap, word, more, ⟨before, after, hbefore, hafter, rfl⟩, hword, hmore, rfl⟩ := hbody
    obtain ⟨hr, hahead⟩ := ahead_space hbefore (show isSpace ',' = false by decide)
      (after ++ (word ++ (more ++ rest)))
    have htext : text = before ++ ',' :: (after ++ (word ++ (more ++ rest))) := by
      simpa using htext
    subst htext
    rw [Bool.not_false, skipFrom_comma hahead]
    obtain ⟨hr, hread⟩ := skipFrom_tree (.array :: frames) t hword hafter (hmore.stopsNumber rest)
      rfl (Nat.le_trans (Nat.le_of_lt hr) h)
    rw [Bracket.entry, hread]
    exact skipFrom_entries frames false ts hmore rfl _

/-- The members of an object are skipped up to its closing bracket. -/
theorem skipFrom_members (frames : List Bracket) : (first : Bool) →
    (ms : List (List Piece × Tree)) → {body : List Char} → MembersSpelled first ms body →
    {rest text : List Char} → text = body ++ rest → (h : text.length ≤ bound) →
      ∃ hr, skipFrom (.inside .object (!first)) frames text h = resume frames rest hr
  | first, [], body, hbody, rest, text, htext, h => by
    obtain ⟨space, hspace, rfl⟩ := hbody
    exact skipFrom_closing frames .object (!first) hspace (by simpa [Bracket.closing] using htext) h
  | true, (key, t) :: ms, body, hbody, rest, text, htext, h => by
    obtain ⟨gap, name, mark, word, more, hgap, hname, hmark, hword, hmore, rfl⟩ := hbody
    obtain ⟨after, hafter, hkey⟩ := outcome_skipKey hgap hname hmark
    obtain ⟨_, hahead⟩ := hname.exists_ahead hgap (mark ++ (word ++ (more ++ rest)))
    have htext : text = gap ++ (name ++ (mark ++ (word ++ (more ++ rest)))) := by
      simpa using htext
    subst htext
    rw [Bool.not_true, skipFrom_first hahead (show '"' ≠ Bracket.object.closing by decide)]
    obtain ⟨hr, hmember⟩ := skipFrom_member (hkey (word ++ (more ++ rest))) h
    rw [Bracket.entry, hmember]
    obtain ⟨hr, hread⟩ := skipFrom_tree (.object :: frames) t hword hafter (hmore.stopsNumber rest)
      rfl hr
    rw [hread]
    exact skipFrom_members frames false ms hmore rfl _
  | false, (key, t) :: ms, body, hbody, rest, text, htext, h => by
    obtain ⟨gap, name, mark, word, more, ⟨before, space, hbefore, hspace, rfl⟩, hname, hmark, hword,
      hmore, rfl⟩ := hbody
    obtain ⟨after, hafter, hkey⟩ := outcome_skipKey hspace hname hmark
    obtain ⟨hr, hahead⟩ := ahead_space hbefore (show isSpace ',' = false by decide)
      (space ++ (name ++ (mark ++ (word ++ (more ++ rest)))))
    have htext : text = before ++ ',' :: (space ++ (name ++ (mark ++ (word ++ (more ++ rest))))) :=
      by simpa using htext
    subst htext
    rw [Bool.not_false, skipFrom_comma hahead]
    obtain ⟨hr, hmember⟩ := skipFrom_member (hkey (word ++ (more ++ rest)))
      (Nat.le_trans (Nat.le_of_lt hr) h)
    rw [Bracket.entry, hmember]
    obtain ⟨hr, hread⟩ := skipFrom_tree (.object :: frames) t hword hafter (hmore.stopsNumber rest)
      rfl hr
    rw [hread]
    exact skipFrom_members frames false ms hmore rfl _

end

/-- Skipping comes out behind every text that follows the grammar. -/
theorem outcome_skip {t : Tree} {body space rest : List Char} (hbody : t.Spelled body)
    (hspace : IsSpace space) (hrest : StopsNumber rest) :
    outcome (skip (space ++ (body ++ rest))) = some ((), rest) := by
  obtain ⟨hr, hread⟩ := skipFrom_tree [] t hbody hspace hrest rfl (length_le_self _)
  rw [skip, hread]
  rfl

end ManifestAtlas.Json
