import ManifestAtlas.Proofs.FormatMeaning
import ManifestAtlas.Proofs.JsonSkipping

/-!
# Reading trees

A reader reads a meaning, `Reads`, when on every text of a tree it returns what
the tree means and leaves what stands behind it, and refuses the text when the
tree means nothing.  This is proved here for the readers of single values, and
for the loops over arrays and objects given the same of what they contain.
-/

namespace ManifestAtlas.Json

/-- Whether a reader returns what a tree means, whatever stands around its text. -/
structure Reads {α : Type} (reader : Reader α) (value? : Tree → Option α) : Prop where
  outcome_eq : ∀ {t : Tree} {body space rest : List Char}, t.Spelled body → IsSpace space →
    StopsNumber rest → outcome (reader (space ++ (body ++ rest))) =
      (value? t).map fun a => (a, rest)

/-- Whatever a value is, it is skipped. -/
theorem reads_skip : Reads skip fun _ => some () :=
  ⟨fun hbody hspace hrest => outcome_skip hbody hspace hrest⟩

/-! ## What the first character tells -/

section

variable {t : Tree} {body rest more : List Char}

theorem Tree.Opens.eq_null (h : t.Opens 'n') (hbody : t.Spelled body)
    (hword : body ++ rest = 'n' :: more) : t = .null ∧ more = "ull".toList ++ rest := by
  cases t with
  | null =>
    obtain rfl : body = 'n' :: "ull".toList := hbody
    exact ⟨rfl, (List.cons.inj hword).2.symm⟩
  | _ => simp [Tree.Opens, opensNumeral, digit?] at h

theorem Tree.Opens.eq_true (h : t.Opens 't') (hbody : t.Spelled body)
    (hword : body ++ rest = 't' :: more) : t = .boolean true ∧ more = "rue".toList ++ rest := by
  cases t with
  | boolean value =>
    obtain rfl : value = true := by simpa [Tree.Opens] using h
    obtain rfl : body = 't' :: "rue".toList := hbody
    exact ⟨rfl, (List.cons.inj hword).2.symm⟩
  | _ => simp [Tree.Opens, opensNumeral, digit?] at h

theorem Tree.Opens.eq_false (h : t.Opens 'f') (hbody : t.Spelled body)
    (hword : body ++ rest = 'f' :: more) : t = .boolean false ∧ more = "alse".toList ++ rest := by
  cases t with
  | boolean value =>
    obtain rfl : value = false := by simpa [Tree.Opens] using h
    obtain rfl : body = 'f' :: "alse".toList := hbody
    exact ⟨rfl, (List.cons.inj hword).2.symm⟩
  | _ => simp [Tree.Opens, opensNumeral, digit?] at h

theorem Tree.Opens.exists_string (h : t.Opens '"') : ∃ pieces, t = .string pieces := by
  cases t with
  | string pieces => exact ⟨pieces, rfl⟩
  | _ => simp [Tree.Opens, opensNumeral, digit?] at h

theorem Tree.Opens.exists_number {c : Char} (h : t.Opens c) (hc : opensNumeral c = true) :
    ∃ n, t = .number n := by
  cases t with
  | number n => exact ⟨n, rfl⟩
  | boolean value =>
    obtain ⟨-, rfl⟩ | ⟨-, rfl⟩ := h <;> simp [opensNumeral, digit?] at hc
  | null | string | array | object =>
    obtain rfl : c = _ := h
    simp [opensNumeral, digit?] at hc

/-- Behind the opening bracket of an array stand its entries. -/
theorem Tree.Opens.exists_array (h : t.Opens '[') (hbody : t.Spelled body)
    (hword : body ++ rest = '[' :: more) :
    ∃ ts inside, EntriesSpelled true ts inside ∧ t = .array ts ∧ more = inside ++ rest := by
  cases t with
  | array ts =>
    obtain ⟨inside, hinside, rfl⟩ := hbody
    exact ⟨ts, inside, hinside, rfl, (List.cons.inj hword).2.symm⟩
  | _ => simp [Tree.Opens, opensNumeral, digit?] at h

/-- Behind the opening bracket of an object stand its members. -/
theorem Tree.Opens.exists_object (h : t.Opens '\x7b') (hbody : t.Spelled body)
    (hword : body ++ rest = '\x7b' :: more) :
    ∃ ms inside, MembersSpelled true ms inside ∧ t = .object ms ∧ more = inside ++ rest := by
  cases t with
  | object ms =>
    obtain ⟨inside, hinside, rfl⟩ := hbody
    exact ⟨ms, inside, hinside, rfl, (List.cons.inj hword).2.symm⟩
  | _ => simp [Tree.Opens, opensNumeral, digit?] at h

end

/-! ## Values without parts -/

/-- A string is read as the text that it means. -/
theorem IsStringText.outcome_stringRest {pieces : List Piece} {name rest : List Char}
    (h : IsStringText pieces name)
    (hb : (pieces.flatMap Piece.text ++ '"' :: rest).length < bound) :
    outcome (stringRest [] (pieces.flatMap Piece.text ++ '"' :: rest) hb) =
      (text? pieces).map fun a => (a, rest) := by
  rw [Json.outcome_stringRest, readString_pieces pieces h.1]
  simp [text?, Function.comp_def]

theorem reads_text : Reads Codec.text.read Tree.text? := by
  constructor
  intro t body space rest hbody hspace _
  obtain ⟨c, more, hr, hahead, -, hc⟩ := hbody.exists_ahead hspace rest
  by_cases hquote : c = '"'
  · subst hquote
    obtain ⟨pieces, rfl⟩ := hc.exists_string
    have hstring : IsStringText pieces body := hbody
    obtain ⟨hr, hahead⟩ := hstring.exists_ahead hspace rest
    simpa [Codec.text, hahead, Tree.text?] using hstring.outcome_stringRest hr
  · have hnone : t.text? = none := by
      cases t with
      | string pieces => exact absurd hc hquote
      | _ => rfl
    simp [Codec.text, hahead, hquote, hnone]

theorem reads_boolean : Reads Codec.boolean.read Tree.boolean? := by
  constructor
  intro t body space rest hbody hspace _
  obtain ⟨c, more, hr, hahead, hword, hc⟩ := hbody.exists_ahead hspace rest
  by_cases htrue : c = 't'
  · subst htrue
    obtain ⟨rfl, rfl⟩ := hc.eq_true hbody hword
    simp only [Codec.boolean, hahead, if_true]
    exact outcome_literal true "rue".toList rest hr
  · by_cases hfalse : c = 'f'
    · subst hfalse
      obtain ⟨rfl, rfl⟩ := hc.eq_false hbody hword
      simp only [Codec.boolean, hahead, htrue, if_true, if_false]
      exact outcome_literal false "alse".toList rest hr
    · have hnone : t.boolean? = none := by
        cases t with
        | boolean value => cases value <;> simp [Tree.Opens, htrue, hfalse] at hc
        | _ => rfl
      simp [Codec.boolean, hahead, htrue, hfalse, hnone]

theorem reads_integer {α : Type} (wanted : String) (narrow? : Int → Option α) (widen : α → Int) :
    Reads (Codec.integer wanted narrow? widen).read fun t => t.integer?.bind narrow? := by
  constructor
  intro t body space rest hbody hspace hrest
  obtain ⟨c, more, hr, hahead, hword, hc⟩ := hbody.exists_ahead hspace rest
  cases hopens : opensNumeral c with
  | false =>
    have hnone : t.integer? = none := by
      cases t with
      | number n => simp [Tree.Opens, hopens] at hc
      | _ => rfl
    simp [Codec.integer, hahead, hopens, hnone]
  | true =>
    obtain ⟨n, rfl⟩ := hc.exists_number hopens
    obtain ⟨d, tail, rfl, -, hread⟩ := outcome_numeral .eofValue hbody hrest
    rw [List.cons_append] at hword
    obtain ⟨rfl, rfl⟩ := List.cons.inj hword
    obtain ⟨_, hnumeral⟩ := outcome_eq_some.1 (hread hr)
    simp only [Codec.integer, hahead, hopens, if_true, number, hnumeral, bind, Except.bind,
      Tree.integer?]
    cases hinteger : n.integer? with
    | some i =>
      rw [Numeral.number?_eq_integer_iff.2 hinteger]
      cases hnarrow : narrow? i <;> simp [hnarrow]
    | none =>
      have hother (i : Int) : n.number? ≠ .ok (.integer i) := fun h => by
        simp [Numeral.number?_eq_integer_iff.1 h] at hinteger
      cases hnumber : n.number? with
      | error unseen => rfl
      | ok number =>
        cases number with
        | integer i => exact absurd hnumber (hother i)
        | float => rfl

/-! ## Arrays -/

/-- An array goes on with its closing bracket. -/
theorem nextEntry_close {space : List Char} (hspace : IsSpace space) (first : Bool)
    (rest : List Char) : ∃ hr, nextEntry first (space ++ ']' :: rest) = .ok (.close rest hr) := by
  obtain ⟨hr, hahead⟩ := ahead_space hspace (show isSpace ']' = false by decide) rest
  exact ⟨hr, by simp [nextEntry, hahead]⟩

/-- An array goes on with its next entry, perhaps behind some space. -/
theorem nextEntry_entry {first : Bool} {gap body : List Char} {t : Tree} (hgap : IsGap first gap)
    (hbody : t.Spelled body) (rest : List Char) : ∃ space hn, IsSpace space ∧
      nextEntry first (gap ++ (body ++ rest)) = .ok (.entry (space ++ (body ++ rest)) hn) := by
  cases first with
  | true =>
    obtain ⟨c, more, hr, hahead, -, hc⟩ := hbody.exists_ahead hgap rest
    exact ⟨gap, length_le_self _, hgap, by simp [nextEntry, hahead, hc.startsValue.2.2.1]⟩
  | false =>
    obtain ⟨before, after, hbefore, hafter, rfl⟩ := hgap
    obtain ⟨hr, hahead⟩ := ahead_space hbefore (show isSpace ',' = false by decide)
      (after ++ (body ++ rest))
    obtain ⟨c, more, _, hentry, -, hc⟩ := hbody.exists_ahead hafter rest
    rw [List.append_assoc, List.cons_append]
    exact ⟨after, rest_length_le hr, hafter,
      by simp [nextEntry, hahead, hentry, hc.startsValue.2.2.1]⟩

/-- The entries of an array are read one by one. -/
theorem outcome_entriesFrom {α : Type} {entry : Reader α} {value? : Tree → Option α}
    (hentry : Reads entry value?) : (ts : List Tree) → {first : Bool} → {body : List Char} →
    EntriesSpelled first ts body → (before : List α) → (rest : List Char) → {text : List Char} →
    text = body ++ rest → (h : text.length ≤ bound) →
      outcome (entriesFrom entry first before text h) =
        (ts.mapM value?).map fun as => (before.reverse ++ as, rest)
  | [], first, body, hbody, before, rest, text, htext, h => by
    obtain ⟨space, hspace, rfl⟩ := hbody
    have htext : text = space ++ ']' :: rest := by simpa using htext
    subst htext
    obtain ⟨hr, hnext⟩ := nextEntry_close hspace first rest
    rw [entriesFrom.eq_def]
    simp [hnext]
  | t :: ts, first, body, hbody, before, rest, text, htext, h => by
    obtain ⟨gap, word, more, hgap, hword, hmore, rfl⟩ := hbody
    have htext : text = gap ++ (word ++ (more ++ rest)) := by simpa using htext
    subst htext
    obtain ⟨space, hn, hspace, hnext⟩ := nextEntry_entry hgap hword (more ++ rest)
    have hread := hentry.outcome_eq hword hspace (hmore.stopsNumber rest)
    rw [entriesFrom.eq_def]
    simp only [hnext]
    cases hvalue : value? t with
    | none =>
      obtain ⟨e, hread⟩ := outcome_eq_none.1 (hread.trans (by rw [hvalue]; rfl))
      simp [hread, hvalue]
    | some a =>
      obtain ⟨hr, hread⟩ := outcome_eq_some.1 (hread.trans (by rw [hvalue]; rfl))
      simp only [hread]
      rw [outcome_entriesFrom hentry ts hmore (a :: before) rest rfl]
      cases hvalues : ts.mapM value? <;> simp [hvalue, hvalues]

theorem reads_list {α : Type} {entry : Codec α} {value? : Tree → Option α}
    (hentry : Reads entry.read value?) :
    Reads (Codec.list entry).read fun t => t.entries?.bind (List.mapM value?) := by
  constructor
  intro t body space rest hbody hspace _
  obtain ⟨c, more, hr, hahead, hword, hc⟩ := hbody.exists_ahead hspace rest
  by_cases hbracket : c = '['
  · subst hbracket
    obtain ⟨ts, inside, hinside, rfl, rfl⟩ := hc.exists_array hbody hword
    simp only [Codec.list, hahead, if_true]
    exact outcome_entriesFrom hentry ts hinside [] rest rfl (length_le_of_lt hr)
  · have hnone : t.entries? = none := by
      cases t with
      | array ts => exact absurd hc hbracket
      | _ => rfl
    simp [Codec.list, hahead, hbracket, hnone]

/-! ## Objects -/

/-- Whether a reader of what follows a key returns what the tree behind the colon means. -/
structure ReadsMember {α : Type} (reader : Reader α) (value? : Tree → Option α) : Prop where
  outcome_eq : ∀ {t : Tree} {body mark rest : List Char}, t.Spelled body → IsColon mark →
    StopsNumber rest → outcome (reader (mark ++ (body ++ rest))) =
      (value? t).map fun a => (a, rest)

theorem Reads.afterColon {α : Type} {reader : Reader α} {value? : Tree → Option α}
    (h : Reads reader value?) : ReadsMember (afterColon reader) value? := by
  constructor
  intro t body mark rest hbody hmark hrest
  obtain ⟨after, hafter, hcolon⟩ := hmark.outcome_colon
  obtain ⟨_, hcolon⟩ := outcome_eq_some.1 (hcolon (body ++ rest))
  have hread := h.outcome_eq hbody hafter hrest
  simp only [Json.afterColon, hcolon, bind, Except.bind]
  cases hvalue : value? t with
  | none =>
    obtain ⟨e, hread⟩ := outcome_eq_none.1 (hread.trans (by rw [hvalue]; rfl))
    simp [hread]
  | some a =>
    obtain ⟨hr, hread⟩ := outcome_eq_some.1 (hread.trans (by rw [hvalue]; rfl))
    simp [hread, Read.followedBy, Read.within]

theorem Reads.map {α β : Type} {reader : Reader α} {value? : Tree → Option α}
    (h : Reads reader value?) (f : α → β) : Reads (reader.map f) fun t => (value? t).map f := by
  constructor
  intro t body space rest hbody hspace hrest
  simp [Reader.map, h.outcome_eq hbody hspace hrest, Function.comp_def]

/-- An object goes on with its closing bracket. -/
theorem nextKey_close {space : List Char} (hspace : IsSpace space) (first : Bool)
    (rest : List Char) :
    ∃ hr, nextKey first (space ++ '\x7d' :: rest) = .ok ⟨none, rest, hr⟩ := by
  obtain ⟨hr, hahead⟩ := ahead_space hspace (show isSpace '\x7d' = false by decide) rest
  exact ⟨hr, by simp [nextKey, hahead]⟩

/-- An object goes on with its next key, which must mean something. -/
theorem outcome_nextKey {first : Bool} {gap name : List Char} {key : List Piece}
    (hgap : IsGap first gap) (hname : IsStringText key name) (rest : List Char) :
    outcome (nextKey first (gap ++ (name ++ rest))) =
      (text? key).map fun k => (some k, rest) := by
  cases first with
  | true =>
    obtain ⟨hr, hahead⟩ := hname.exists_ahead hgap rest
    simp [nextKey, hahead, keyFrom, hname.outcome_stringRest, Function.comp_def]
  | false =>
    obtain ⟨before, after, hbefore, hafter, rfl⟩ := hgap
    obtain ⟨hr, hahead⟩ := ahead_space hbefore (show isSpace ',' = false by decide)
      (after ++ (name ++ rest))
    obtain ⟨hq, hquote⟩ := hname.exists_ahead hafter rest
    rw [List.append_assoc, List.cons_append]
    simp [nextKey, hahead, hquote, keyFrom, hname.outcome_stringRest, Function.comp_def]

/-- The members of an object are read one by one. -/
theorem outcome_membersFrom {σ : Type} {member : σ → String → Reader σ}
    {step : σ → String → Tree → Option σ}
    (hmember : ∀ s key, ReadsMember (member s key) (step s key)) :
    (ms : List (List Piece × Tree)) → {first : Bool} → {body : List Char} →
    MembersSpelled first ms body → (state : σ) → (rest : List Char) → {text : List Char} →
    text = body ++ rest → (h : text.length ≤ bound) →
      outcome (membersFrom member first state text h) =
        ((ms.mapM member?).bind fun named => named.foldlM (fun s m => step s m.1 m.2) state).map
          fun s => (s, rest)
  | [], first, body, hbody, state, rest, text, htext, h => by
    obtain ⟨space, hspace, rfl⟩ := hbody
    have htext : text = space ++ '\x7d' :: rest := by simpa using htext
    subst htext
    obtain ⟨hr, hnext⟩ := nextKey_close hspace first rest
    rw [membersFrom.eq_def]
    simp [hnext]
  | (key, t) :: ms, first, body, hbody, state, rest, text, htext, h => by
    obtain ⟨gap, name, mark, word, more, hgap, hname, hmark, hword, hmore, rfl⟩ := hbody
    have htext : text = gap ++ (name ++ (mark ++ (word ++ (more ++ rest)))) := by
      simpa using htext
    subst htext
    have hnext := outcome_nextKey hgap hname (mark ++ (word ++ (more ++ rest)))
    rw [membersFrom.eq_def]
    cases hkey : text? key with
    | none =>
      obtain ⟨e, hnext⟩ := outcome_eq_none.1 (hnext.trans (by rw [hkey]; rfl))
      simp [hnext, member?, hkey]
    | some k =>
      obtain ⟨hr, hnext⟩ := outcome_eq_some.1 (hnext.trans (by rw [hkey]; rfl))
      simp only [hnext]
      have hread := (hmember state k).outcome_eq hword hmark (hmore.stopsNumber rest)
      cases hstep : step state k t with
      | none =>
        obtain ⟨e, hread⟩ := outcome_eq_none.1 (hread.trans (by rw [hstep]; rfl))
        cases hnamed : ms.mapM member? <;> simp [hread, member?, hkey, hnamed, hstep]
      | some s =>
        obtain ⟨hr, hread⟩ := outcome_eq_some.1 (hread.trans (by rw [hstep]; rfl))
        simp only [hread]
        rw [outcome_membersFrom hmember ms hmore s rest rfl]
        cases hnamed : ms.mapM member? <;> simp [member?, hkey, hnamed, hstep]

theorem reads_keyed {σ α : Type} (collection : Keyed σ α) {entry : Codec α}
    {value? : Tree → Option α} (hentry : Reads entry.read value?) :
    Reads (Codec.keyed collection entry).read fun t => t.members?.bind fun ms =>
      ms.foldlM (fun s m => (value? m.2).map (collection.insert s m.1)) collection.empty := by
  constructor
  intro t body space rest hbody hspace _
  obtain ⟨c, more, hr, hahead, hword, hc⟩ := hbody.exists_ahead hspace rest
  by_cases hbracket : c = '\x7b'
  · subst hbracket
    obtain ⟨ms, inside, hinside, rfl, rfl⟩ := hc.exists_object hbody hword
    simp only [Codec.keyed, hahead, if_true]
    exact outcome_membersFrom (fun s key => (hentry.map (collection.insert s key)).afterColon) ms
      hinside collection.empty rest rfl (length_le_of_lt hr)
  · have hnone : t.members? = none := by
      cases t with
      | object ms => exact absurd hc hbracket
      | _ => rfl
    simp [Codec.keyed, hahead, hbracket, hnone]

/-! ## Values that may be missing, and enumerations -/

theorem reads_optional {α : Type} {inner : Codec α} {value? : Tree → Option α}
    (hinner : Reads inner.read value?) :
    Reads (Codec.optional inner).read (Tree.optional? value?) := by
  constructor
  intro t body space rest hbody hspace hrest
  obtain ⟨c, more, hr, hahead, hword, hc⟩ := hbody.exists_ahead hspace rest
  by_cases hnull : c = 'n'
  · subst hnull
    obtain ⟨rfl, rfl⟩ := hc.eq_null hbody hword
    simp only [Codec.optional, hahead]
    exact outcome_literal none "ull".toList rest hr
  · have hsome : t.optional? value? = (value? t).map some :=
      Tree.optional?_of_ne fun ht => hnull (by subst ht; exact hc)
    have hread : (Codec.optional inner).read (space ++ (body ++ rest)) =
        (inner.read (space ++ (body ++ rest))).map (Read.map some) := by
      simp [Codec.optional, hahead, hnull]
    rw [hread, outcome_map, hinner.outcome_eq hbody hspace hrest, hsome]
    simp [Function.comp_def]

theorem reads_null : Reads Codec.readNull fun t =>
    match t with
    | .null => some ()
    | _ => none := by
  constructor
  intro t body space rest hbody hspace _
  obtain ⟨c, more, hr, hahead, hword, hc⟩ := hbody.exists_ahead hspace rest
  by_cases hnull : c = 'n'
  · subst hnull
    obtain ⟨rfl, rfl⟩ := hc.eq_null hbody hword
    simp only [Codec.readNull, hahead, if_true]
    exact outcome_literal () "ull".toList rest hr
  · simp only [Codec.readNull, hahead, if_neg hnull]
    cases t with
    | null => exact absurd hc hnull
    | _ => rfl

section

variable {α : Type} (names : List (String × α))

theorem outcome_resolveName (r : Read bound String) :
    outcome (Codec.resolveName names r) =
      (Codec.named? names r.value).map fun a => (a, r.rest) := by
  unfold Codec.resolveName
  cases Codec.named? names r.value <;> rfl

theorem outcome_nextName {gap name : List Char} {key : List Piece} (hgap : IsGap true gap)
    (hname : IsStringText key name) (rest : List Char) :
    outcome (Codec.nextName names (gap ++ (name ++ rest))) =
      ((text? key).bind (Codec.named? names)).map fun a => (a, rest) := by
  have hnext := outcome_nextKey hgap hname rest
  cases hkey : text? key with
  | none =>
    obtain ⟨e, hnext⟩ := outcome_eq_none.1 (hnext.trans (by rw [hkey]; rfl))
    simp [Codec.nextName, hnext, bind, Except.bind]
  | some k =>
    obtain ⟨hr, hnext⟩ := outcome_eq_some.1 (hnext.trans (by rw [hkey]; rfl))
    simp [Codec.nextName, hnext, bind, Except.bind, outcome_resolveName]

/-- Behind a member stands a closing bracket, or a comma when there are more members. -/
theorem MembersSpelled.ahead_eq {ms : List (List Piece × Tree)} {body : List Char}
    (h : MembersSpelled false ms body) (rest : List Char) :
    (ms = [] ∧ ∃ hr, ahead (body ++ rest) = .next '\x7d' rest hr) ∨
      ∃ m others, ms = m :: others ∧ ∃ more hr, ahead (body ++ rest) = .next ',' more hr := by
  cases ms with
  | nil =>
    obtain ⟨space, hspace, rfl⟩ := h
    rw [List.append_assoc]
    exact .inl ⟨rfl, ahead_space hspace (by decide) rest⟩
  | cons m ms =>
    obtain ⟨gap, name, mark, word, more, ⟨before, after, hbefore, -, rfl⟩, -, -, -, -, rfl⟩ := h
    rw [List.append_assoc, List.append_assoc]
    exact .inr ⟨m, ms, rfl, _, ahead_space hbefore (by decide) _⟩

/-- Behind an opening bracket, a name is read from the single key of an object. -/
theorem outcome_readNamedNull : (ms : List (List Piece × Tree)) → {body : List Char} →
    MembersSpelled true ms body → (rest : List Char) →
      outcome (Codec.readNamedNull names (body ++ rest)) =
        ((Tree.object ms).name?.bind (Codec.named? names)).map fun a => (a, rest)
  | [], body, hbody, rest => by
    obtain ⟨space, hspace, rfl⟩ := hbody
    obtain ⟨hr, hnext⟩ := nextKey_close hspace true rest
    rw [List.append_assoc]
    simp [Codec.readNamedNull, Codec.nextName, hnext, bind, Except.bind, Tree.name?]
  | (key, t) :: ms, body, hbody, rest => by
    obtain ⟨gap, name, mark, word, more, hgap, hname, hmark, hword, hmore, rfl⟩ := hbody
    have htext : gap ++ (name ++ (mark ++ (word ++ more))) ++ rest =
        gap ++ (name ++ (mark ++ (word ++ (more ++ rest)))) := by simp
    rw [htext]
    have hname := outcome_nextName names hgap hname (mark ++ (word ++ (more ++ rest)))
    have hnull := reads_null.afterColon.outcome_eq hword hmark (hmore.stopsNumber rest)
    cases hvalue : (text? key).bind (Codec.named? names) with
    | none =>
      obtain ⟨e, hname⟩ := outcome_eq_none.1 (hname.trans (by rw [hvalue]; rfl))
      have hnone : (Tree.object ((key, t) :: ms)).name?.bind (Codec.named? names) = none := by
        unfold Tree.name?
        split <;> simp_all
      simp [Codec.readNamedNull, hname, bind, Except.bind, hnone]
    | some a =>
      obtain ⟨hr, hname⟩ := outcome_eq_some.1 (hname.trans (by rw [hvalue]; rfl))
      cases t with
      | null =>
        obtain ⟨hn, hnull⟩ := outcome_eq_some.1 hnull
        simp only [Codec.readNamedNull, hname, bind, Except.bind, hnull]
        obtain ⟨rfl, _, hahead⟩ | ⟨m, others, rfl, _, _, hahead⟩ := hmore.ahead_eq rest
        · simp [hahead, Tree.name?, hvalue]
        · simp [hahead, Tree.name?]
      | _ =>
        obtain ⟨e, hnull⟩ := outcome_eq_none.1 hnull
        simp [Codec.readNamedNull, hname, bind, Except.bind, hnull, Tree.name?]

/-- The values of an enumeration are read by their names. -/
theorem reads_choice (name : α → String) :
    Reads (Codec.choice names name).read fun t => t.name?.bind (Codec.named? names) := by
  constructor
  intro t body space rest hbody hspace _
  obtain ⟨c, more, hr, hahead, hword, hc⟩ := hbody.exists_ahead hspace rest
  by_cases hquote : c = '"'
  · subst hquote
    obtain ⟨pieces, rfl⟩ := hc.exists_string
    have hstring : IsStringText pieces body := hbody
    obtain ⟨hr, hahead⟩ := hstring.exists_ahead hspace rest
    have hread := hstring.outcome_stringRest hr
    simp only [Codec.choice, hahead, if_true, Tree.name?]
    cases htext : text? pieces with
    | none =>
      obtain ⟨e, hread⟩ := outcome_eq_none.1 (hread.trans (by rw [htext]; rfl))
      simp [hread, Except.bind]
    | some s =>
      obtain ⟨hr, hread⟩ := outcome_eq_some.1 (hread.trans (by rw [htext]; rfl))
      simp [hread, Except.bind, outcome_resolveName]
  · by_cases hbracket : c = '\x7b'
    · subst hbracket
      obtain ⟨ms, inside, hinside, rfl, rfl⟩ := hc.exists_object hbody hword
      simp only [Codec.choice, hahead, hquote, if_false, if_true, outcome_within]
      exact outcome_readNamedNull names ms hinside rest
    · have hnone : t.name? = none := by
        cases t with
        | string pieces => exact absurd hc hquote
        | object ms => exact absurd hc hbracket
        | _ => rfl
      simp [Codec.choice, hahead, hquote, hbracket, hnone]

end

end ManifestAtlas.Json
