import ManifestAtlas.Proofs.JsonReading

/-!
# Reading a format

The codec of a format reads what a tree means in that format.  For records this
takes two steps.  Reading an object keeps one slot for each field; `Fields.put`
is what one member does to the slots, whatever its text, and `Fields.fill` makes
a row of them at the end.  Put together they give the row of `Fields.row?`, which
looks at the members of one field at a time (`Fields.foldlM_put`).

Main statement: a text decodes to a value exactly when its tree means that value
(`Format.decode_eq_ok_iff`).
-/

namespace ManifestAtlas.Json

variable {α : Type} {αs : List Type}

/-! ## Slots -/

/-- Slots with one more slot in front. -/
def Slots.cons (slot : Option α) (slots : Slots αs) : Slots (α :: αs) :=
  (slot, slots)

/-- Puts a value into a slot, which must be empty. -/
def fillSlot (value? : Tree → Option α) : Option α → Tree → Option (Option α)
  | some _, _ => none
  | none, t => (value? t).map some

/-- Puts the value of a member into the slot of its field, if there is such a field. -/
def Fields.put : {αs : List Type} → Fields αs → Slots αs → String → Tree → Option (Slots αs)
  | _, .nil, slots, _, _ => some slots
  | _, .cons key format _ _ rest, (slot, slots), name, t =>
    if key = name then (fillSlot format.value? slot t).map fun slot => .cons slot slots
    else (rest.put slots name t).map (.cons slot)

/-- The row that slots give, with the defaults for empty ones. -/
def Fields.fill : {αs : List Type} → Fields αs → Slots αs → Option (Row αs)
  | _, .nil, _ => some ()
  | _, .cons _ _ fallback _ rest, (slot, slots) =>
    (slot.or fallback).bind fun a => (rest.fill slots).map (.cons a)

@[simp] theorem Slots.empty_cons : Slots.empty (α :: αs) = .cons none (.empty αs) := rfl

theorem Fields.fill_cons {key : String} {format : Format α} {fallback : Option α}
    {hidden : α → Bool} {rest : Fields αs} (slot : Option α) (slots : Slots αs) :
    (Fields.cons key format fallback hidden rest).fill (.cons slot slots) =
      (slot.or fallback).bind fun a => (rest.fill slots).map (.cons a) := rfl

theorem foldlM_fillSlot (fallback : Option α) (value? : Tree → Option α)
    (ms : List (String × Tree)) :
    (ms.foldlM (fun slot m => fillSlot value? slot m.2) none).bind (·.or fallback) =
      fieldValue? fallback value? ms := by
  match ms with
  | [] => rfl
  | [m] => cases h : value? m.2 <;> simp [fillSlot, fieldValue?, h]
  | m :: m' :: ms => cases h : value? m.2 <;> simp [fillSlot, fieldValue?, h]

/-- The members of the first field and the other ones are put into slots separately. -/
theorem Fields.foldlM_put_cons {key : String} {format : Format α} {fallback : Option α}
    {hidden : α → Bool} {rest : Fields αs} (ms : List (String × Tree)) (slot : Option α)
    (slots : Slots αs) :
    ms.foldlM (fun s m => (Fields.cons key format fallback hidden rest).put s m.1 m.2)
        (Slots.cons slot slots) =
      ((ms.filter (·.1 = key)).foldlM (fun slot m => fillSlot format.value? slot m.2) slot).bind
        fun slot => ((ms.filter (·.1 ≠ key)).foldlM (fun s m => rest.put s m.1 m.2) slots).map
          (Slots.cons slot) := by
  induction ms generalizing slot slots with
  | nil => rfl
  | cons m ms ih =>
    rw [List.foldlM_cons]
    by_cases hkey : m.1 = key
    · have hput : (Fields.cons key format fallback hidden rest).put (.cons slot slots) m.1 m.2 =
          (fillSlot format.value? slot m.2).map fun slot => .cons slot slots := if_pos hkey.symm
      rw [hput]
      cases hslot : fillSlot format.value? slot m.2 with
      | none => simp [hkey, hslot]
      | some slot' => simpa [hkey, hslot] using ih slot' slots
    · have hput : (Fields.cons key format fallback hidden rest).put (.cons slot slots) m.1 m.2 =
          (rest.put slots m.1 m.2).map (.cons slot) := if_neg (Ne.symm hkey)
      rw [hput]
      cases hslots : rest.put slots m.1 m.2 with
      | none => simp [hkey, hslots]
      | some slots' => simpa [hkey, hslots] using ih slot slots'

/-- Putting the members of an object into slots, one after the other, gives the row of its
fields. -/
theorem Fields.foldlM_put : {αs : List Type} → (fields : Fields αs) →
    (ms : List (String × Tree)) →
      (ms.foldlM (fun s m => fields.put s m.1 m.2) (Slots.empty αs)).bind fields.fill =
        fields.row? ms
  | [], .nil, ms => by
    induction ms with
    | nil => rfl
    | cons m ms ih => exact ih
  | α :: αs, .cons key format fallback hidden rest, ms => by
    have hrest := foldlM_put rest (ms.filter (·.1 ≠ key))
    have hfirst := foldlM_fillSlot fallback format.value? (ms.filter (·.1 = key))
    rw [Slots.empty_cons, foldlM_put_cons, row?_cons, ← hrest, ← hfirst]
    cases (ms.filter (·.1 = key)).foldlM (fun slot m => fillSlot format.value? slot m.2) none with
    | none => rfl
    | some slot =>
      cases (ms.filter (·.1 ≠ key)).foldlM (fun s m => rest.put s m.1 m.2) (Slots.empty αs) with
      | none => cases h : slot.or fallback <;> simp [h]
      | some slots => simp [fill_cons]

/-! ## Records -/

@[simp] theorem Fields.members_cons (key : String) (format : Format α) (fallback : Option α)
    (hidden : α → Bool) (rest : Fields αs) :
    (Fields.cons key format fallback hidden rest).members =
      .cons ⟨key, format.codec, fallback, hidden⟩ rest.members := rfl

/-- Whether the codec of every field reads what the field's format means. -/
def Fields.AllRead : {αs : List Type} → Fields αs → Prop
  | _, .nil => True
  | _, .cons _ format _ _ rest => Reads format.codec.read format.value? ∧ rest.AllRead

/-- Whether a target stands for what a member does to a state. -/
def Target.Means {σ : Type} : Target σ → σ → (Tree → Option σ) → Prop
  | .unknown, s, put => ∀ t, put t = some s
  | .taken, _, put => ∀ t, put t = none
  | .free reader, _, put => Reads reader put

theorem Target.Means.map {σ τ : Type} {target : Target σ} {s : σ} {put : Tree → Option σ}
    (h : target.Means s put) (f : σ → τ) :
    (target.map f).Means (f s) fun t => (put t).map f := by
  cases target with
  | unknown => exact fun t => congrArg (Option.map f) (h t)
  | taken => exact fun t => congrArg (Option.map f) (h t)
  | free reader => exact Reads.map h f

/-- What a key means to a record is what `Fields.put` does with its member. -/
theorem Fields.target_means : {αs : List Type} → {fields : Fields αs} → fields.AllRead →
    (slots : Slots αs) → (key : String) →
      (fields.members.target slots key).Means slots (fields.put slots key)
  | [], .nil, _, _, _ => fun _ => rfl
  | α :: αs, .cons name format fallback hidden rest, h, (slot, slots), key => by
    by_cases hkey : name = key
    · have hput (t : Tree) : (Fields.cons name format fallback hidden rest).put (slot, slots) key t
          = (fillSlot format.value? slot t).map fun slot => .cons slot slots := if_pos hkey
      rw [funext hput]
      cases slot with
      | some a =>
        have htarget : (Fields.cons name format fallback hidden rest).members.target
            (some a, slots) key = .taken := if_pos hkey
        rw [htarget]
        exact fun _ => rfl
      | none =>
        have htarget : (Fields.cons name format fallback hidden rest).members.target
            (none, slots) key = .free (format.codec.read.map fun a => .cons (some a) slots) :=
          if_pos hkey
        rw [htarget]
        have hread := h.1.map fun a => Slots.cons (some a) slots
        simpa [Target.Means, fillSlot, Function.comp_def] using hread
    · have htarget : (Fields.cons name format fallback hidden rest).members.target
          (slot, slots) key = (rest.members.target slots key).map (.cons slot) := if_neg hkey
      have hput (t : Tree) : (Fields.cons name format fallback hidden rest).put (slot, slots) key t
          = (rest.put slots key t).map (.cons slot) := if_neg hkey
      rw [htarget, funext hput]
      exact (target_means h.2 slots key).map (Slots.cons slot)

/-- What follows a key of a record is read as `Fields.put` says. -/
theorem Fields.readsMember {fields : Fields αs} (h : fields.AllRead) (slots : Slots αs)
    (key : String) :
    ReadsMember (readMember fields.members slots key) (fields.put slots key) := by
  have htarget := target_means h slots key
  constructor
  intro t body mark rest hbody hmark hrest
  unfold readMember
  cases hcase : fields.members.target slots key with
  | unknown =>
    rw [hcase] at htarget
    rw [outcome_map, reads_skip.afterColon.outcome_eq hbody hmark hrest, htarget t]
    rfl
  | taken =>
    rw [hcase] at htarget
    simp [htarget t]
  | free reader =>
    rw [hcase] at htarget
    exact htarget.afterColon.outcome_eq hbody hmark hrest

/-- At the end of an object, empty slots take the defaults of their fields. -/
theorem Fields.toOption_complete : {αs : List Type} → (fields : Fields αs) → (index : Nat) →
    (slots : Slots αs) → (fields.members.complete index slots).toOption = fields.fill slots
  | [], .nil, _, _ => rfl
  | α :: αs, .cons key format fallback hidden rest, index, (slot, slots) => by
    have ih := toOption_complete rest (index + 1) slots
    have hfill : (Fields.cons key format fallback hidden rest).fill (slot, slots) =
        (slot.or fallback).bind fun a => (rest.fill slots).map (.cons a) := rfl
    rw [hfill, ← ih, Fields.members_cons, Members.complete]
    cases slot.or fallback with
    | none => rfl
    | some a => cases rest.members.complete (index + 1) slots <;> rfl

/-- The closing bracket of an array is read when the array has no more entries. -/
theorem outcome_closeArray {first : Bool} {ts : List Tree} {body : List Char}
    (hbody : EntriesSpelled first ts body) (rest : List Char) (h : (body ++ rest).length ≤ bound) :
    outcome (closeArray (body ++ rest) h) = if ts.isEmpty then some ((), rest) else none := by
  cases ts with
  | nil =>
    obtain ⟨space, hspace, rfl⟩ := hbody
    -- The bound speaks of the text, so it has to follow when the text is rewritten.
    revert h
    rw [List.append_assoc, List.singleton_append]
    intro h
    obtain ⟨hr, hahead⟩ := ahead_space hspace (show isSpace ']' = false by decide) rest
    simp [closeArray, hahead]
  | cons t ts =>
    obtain ⟨gap, word, more, hgap, hword, hmore, rfl⟩ := hbody
    revert h
    rw [List.append_assoc, List.append_assoc]
    intro h
    cases first with
    | true =>
      obtain ⟨c, tail, hr, hahead, -, hc⟩ := hword.exists_ahead hgap (more ++ rest)
      simp [closeArray, hahead, hc.startsValue.2.1, hc.startsValue.2.2.1]
    | false =>
      obtain ⟨before, after, hbefore, hafter, rfl⟩ := hgap
      obtain ⟨hr, hahead⟩ := ahead_space hbefore (show isSpace ',' = false by decide)
        (after ++ (word ++ (more ++ rest)))
      obtain ⟨c, tail, _, hentry, -, hc⟩ := hword.exists_ahead hafter (more ++ rest)
      revert h
      rw [List.append_assoc, List.cons_append]
      intro h
      simp [closeArray, hahead, hentry, hc.startsValue.2.2.1]

/-- Without any members, a record has the defaults of all its fields. -/
theorem Fields.fill_empty : {αs : List Type} → (fields : Fields αs) →
    fields.fill (Slots.empty αs) = fields.prefix? []
  | [], .nil => by simp [Fields.fill, Fields.prefix?]
  | α :: αs, .cons key format fallback hidden rest => by
    rw [Slots.empty_cons, fill_cons, fill_empty rest, Fields.prefix?]
    rfl

/-- An array is read as the row of its entries. -/
theorem outcome_readRow (name : String) (size : Nat) : {αs : List Type} → {fields : Fields αs} →
    fields.AllRead → (index : Nat) → (ts : List Tree) → {body : List Char} →
    EntriesSpelled (index == 0) ts body → (rest : List Char) → {text : List Char} →
    text = body ++ rest → (h : text.length ≤ bound) →
      outcome (readRow name size fields.members index text h) =
        (fields.prefix? ts).map fun row => (row, rest)
  | [], .nil, _, index, ts, body, hbody, rest, text, htext, h => by
    subst htext
    have hclose := outcome_closeArray hbody rest h
    rw [Fields.prefix?_nil]
    exact hclose.trans (by cases ts.isEmpty <;> rfl)
  | α :: αs, .cons key format fallback hidden others, hall, index, [], body, hbody, rest, text,
      htext, h => by
    obtain ⟨space, hspace, rfl⟩ := hbody
    have htext : text = space ++ ']' :: rest := by simpa using htext
    subst htext
    obtain ⟨hr, hnext⟩ := nextEntry_close hspace (index == 0) rest
    have hrow := (Fields.cons key format fallback hidden others).toOption_complete index
      (Slots.empty _)
    rw [Fields.fill_empty] at hrow
    rw [← hrow, Fields.members_cons]
    simp only [readRow, hnext]
    cases (Members.cons ⟨key, format.codec, fallback, hidden⟩ others.members).complete index
      (Slots.empty _) <;> rfl
  | α :: αs, .cons key format fallback hidden others, hall, index, t :: ts, body, hbody, rest,
      text, htext, h => by
    obtain ⟨gap, word, more, hgap, hword, hmore, rfl⟩ := hbody
    have htext : text = gap ++ (word ++ (more ++ rest)) := by simpa using htext
    subst htext
    obtain ⟨space, hn, hspace, hnext⟩ := nextEntry_entry hgap hword (more ++ rest)
    have hread := hall.1.outcome_eq hword hspace (hmore.stopsNumber rest)
    rw [Fields.prefix?_cons, Fields.members_cons]
    simp only [readRow, hnext]
    cases hvalue : format.value? t with
    | none =>
      obtain ⟨e, hread⟩ := outcome_eq_none.1 (hread.trans (by rw [hvalue]; rfl))
      simp [hread]
    | some a =>
      obtain ⟨hr, hread⟩ := outcome_eq_some.1 (hread.trans (by rw [hvalue]; rfl))
      simp only [hread]
      refine (outcome_map (Row.cons a)).trans ?_
      rw [outcome_readRow name size hall.2 (index + 1) ts hmore rest rfl]
      cases others.prefix? ts <;> rfl

section

variable {R : Type} {record : Record R} {fields : Fields record.types}
  (hmembers : record.members = fields.members) (h : fields.AllRead)

include hmembers h

/-- An object is read as the row of its members. -/
theorem outcome_readObject (ms : List (List Piece × Tree)) {body : List Char}
    (hbody : MembersSpelled true ms body) (rest : List Char) (hb : (body ++ rest).length < bound) :
    outcome (record.readObject (body ++ rest) hb) =
      (((ms.mapM member?).bind fields.row?).map record.make).map fun r => (r, rest) := by
  have hread := outcome_membersFrom (Fields.readsMember h) ms hbody (Slots.empty record.types) rest
    rfl (length_le_of_lt hb)
  unfold Record.readObject members
  rw [hmembers]
  cases hnamed : ms.mapM member? with
  | none =>
    rw [hnamed] at hread
    obtain ⟨e, hread⟩ := outcome_eq_none.1 hread
    simp [hread, bind, Except.bind]
  | some named =>
    rw [hnamed] at hread
    have hrow := fields.foldlM_put named
    cases hslots : named.foldlM (fun s m => fields.put s m.1 m.2) (Slots.empty record.types) with
    | none =>
      rw [Option.bind_some, hslots] at hread
      obtain ⟨e, hread⟩ := outcome_eq_none.1 hread
      rw [hslots] at hrow
      simp [hread, bind, Except.bind, ← hrow]
    | some slots =>
      rw [Option.bind_some, hslots] at hread
      obtain ⟨hr, hread⟩ := outcome_eq_some.1 hread
      rw [hslots, Option.bind_some, ← fields.toOption_complete 0] at hrow
      simp only [hread, bind, Except.bind, Option.bind_some, ← hrow]
      cases fields.members.complete 0 slots <;> rfl

theorem reads_record :
    Reads record.codec.read fun t => (t.record? fields.prefix? fields.row?).map record.make := by
  constructor
  intro t body space rest hbody hspace _
  obtain ⟨c, more, hr, hahead, hword, hc⟩ := hbody.exists_ahead hspace rest
  by_cases hbrace : c = '\x7b'
  · subst hbrace
    obtain ⟨ms, inside, hinside, rfl, rfl⟩ := hc.exists_object hbody hword
    simp only [Record.codec, hahead, if_true]
    exact outcome_readObject hmembers h ms hinside rest hr
  · by_cases hbracket : c = '['
    · subst hbracket
      obtain ⟨ts, inside, hinside, rfl, rfl⟩ := hc.exists_array hbody hword
      simp only [Record.codec, hahead, hbrace, if_true, if_false, outcome_map]
      rw [hmembers, outcome_readRow _ _ h 0 ts hinside rest rfl, Option.map_map]
      simp [Tree.record?, Function.comp_def]
    · have hnone : t.record? fields.prefix? fields.row? = none := by
        cases t with
        | array ts => exact absurd hc hbracket
        | object ms => exact absurd hc hbrace
        | _ => rfl
      simp [Record.codec, hahead, hbrace, hbracket, hnone]

end

/-! ## Every format -/

mutual

/-- The codec of a format reads what a tree means in the format. -/
theorem Format.reads : {α : Type} → (format : Format α) → Reads format.codec.read format.value?
  | _, .text => by
    rw [Format.codec, Format.value?]
    exact reads_text
  | _, .boolean => by
    rw [Format.codec, Format.value?]
    exact reads_boolean
  | _, .integer wanted narrow? widen => by
    rw [Format.codec, Format.value?]
    exact reads_integer wanted narrow? widen
  | _, .choice names name => by
    rw [Format.codec, Format.value?]
    exact reads_choice names name
  | _, .list entry => by
    rw [Format.codec, Format.value?]
    exact reads_list entry.reads
  | _, .optional inner => by
    rw [Format.codec, Format.value?]
    exact reads_optional inner.reads
  | _, .keyed collection entry => by
    rw [Format.codec, Format.value?]
    exact reads_keyed collection entry.reads
  | _, .record name fields make parts make_parts parts_make => by
    rw [Format.codec, Format.value?]
    exact reads_record rfl fields.allRead

/-- The codecs of all fields of a record read what trees mean. -/
theorem Fields.allRead : {αs : List Type} → (fields : Fields αs) → fields.AllRead
  | _, .nil => trivial
  | _, .cons _ format _ _ rest => ⟨format.reads, rest.allRead⟩

end

/-- A text decodes to a value exactly when its tree means that value. -/
theorem Format.decode_eq_ok_iff {format : Format α} {t : Tree} {text : String}
    (h : t.IsTextOf text.toList) {a : α} :
    format.codec.decode text = .ok a ↔ format.value? t = some a := by
  obtain ⟨before, body, after, hbefore, hbody, hafter, htext⟩ := h
  have hend : StopsNumber after := by
    have hnil : StopsNumber [] := trivial
    simpa using hnil.space hafter
  have hread := format.reads.outcome_eq hbody hbefore hend
  rw [← htext] at hread
  unfold Codec.decode readWhole
  cases hvalue : format.value? t with
  | none =>
    obtain ⟨e, hread⟩ := outcome_eq_none.1 (hread.trans (by rw [hvalue]; rfl))
    simp [hread, bind, Except.bind]
  | some b =>
    obtain ⟨hr, hread⟩ := outcome_eq_some.1 (hread.trans (by rw [hvalue]; rfl))
    simp [hread, bind, Except.bind, ahead_end hafter]

end ManifestAtlas.Json
