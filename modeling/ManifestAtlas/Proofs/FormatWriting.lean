import ManifestAtlas.Proofs.FormatReading

/-!
# Writing a format

What a format writes is a text of a tree that means the value that was written,
provided that the parts of the format fit together (`Format.Faithful`): a number
comes back from the integer it is widened to, a name from the value it names, a
field that is left out from its default.

Main statement: with such a format, decoding what was encoded gives the value
back (`Format.Faithful.roundTrips`).
-/

namespace ManifestAtlas.Json

/-! ## Strings -/

/-- The piece of a string that a character is written as. -/
def Piece.ofChar (c : Char) : Piece :=
  if c = '"' then .short '"'
  else if c = '\\' then .short '\\'
  else if c = '\x08' then .short 'b'
  else if c = '\x0c' then .short 'f'
  else if c = '\n' then .short 'n'
  else if c = '\r' then .short 'r'
  else if c = '\t' then .short 't'
  else if isForbidden c then .unit '0' '0' (hexDigit (c.toNat / 16)) (hexDigit (c.toNat % 16))
  else .plain c

theorem Piece.text_ofChar (c : Char) : (Piece.ofChar c).text = escapeChar c := by
  unfold Piece.ofChar escapeChar
  repeat' split
  all_goals rfl

/-- The three ways in which a character is written. -/
theorem Piece.ofChar_cases (c : Char) :
    (∃ x, Piece.ofChar c = .short x ∧ shortEscape? x = some c) ∨
    (c.toNat < 0x20 ∧
      Piece.ofChar c = .unit '0' '0' (hexDigit (c.toNat / 16)) (hexDigit (c.toNat % 16))) ∨
    Piece.ofChar c = .plain c ∧ (Piece.plain c).IsValid := by
  unfold Piece.ofChar
  split
  · subst c; exact .inl ⟨_, rfl, rfl⟩
  split
  · subst c; exact .inl ⟨_, rfl, rfl⟩
  split
  · subst c; exact .inl ⟨_, rfl, rfl⟩
  split
  · subst c; exact .inl ⟨_, rfl, rfl⟩
  split
  · subst c; exact .inl ⟨_, rfl, rfl⟩
  split
  · subst c; exact .inl ⟨_, rfl, rfl⟩
  split
  · subst c; exact .inl ⟨_, rfl, rfl⟩
  split
  · rename_i hcontrol
    exact .inr (.inl ⟨by simpa [isForbidden] using hcontrol, rfl⟩)
  · exact .inr (.inr ⟨rfl, by assumption, by assumption, by simp_all⟩)

theorem codeUnit?_control : ∀ n < 0x20,
    codeUnit? '0' '0' (hexDigit (n / 16)) (hexDigit (n % 16)) = some n := by decide

theorem Piece.isValid_ofChar (c : Char) : (Piece.ofChar c).IsValid := by
  obtain ⟨x, hx, hc⟩ | ⟨hc, hx⟩ | ⟨hx, hc⟩ := Piece.ofChar_cases c
  · simp [hx, Piece.IsValid, hc]
  · simp [hx, Piece.IsValid, codeUnit?_control _ hc]
  · rwa [hx]

/-- A character is written as a piece that means it. -/
theorem unescape?_ofChar (c : Char) (ps : List Piece) :
    unescape? (.ofChar c :: ps) = (unescape? ps).map (c :: ·) := by
  obtain ⟨x, hx, hc⟩ | ⟨hc, hx⟩ | ⟨hx, -⟩ := Piece.ofChar_cases c
  · simp [hx, unescape?, hc]
  · have hlower : isLowerSurrogate c.toNat = false := by simp [isLowerSurrogate]; omega
    have hupper : isUpperSurrogate c.toNat = false := by simp [isUpperSurrogate]; omega
    simp [hx, unescape?, codeUnit?_control _ hc, hlower, hupper]
  · rw [hx, unescape?]

/-- A string is written as a text that means it. -/
theorem exists_printString (s : String) :
    ∃ pieces, IsStringText pieces (printString s) ∧ text? pieces = some s := by
  refine ⟨s.toList.map Piece.ofChar, ⟨?_, ?_⟩, ?_⟩
  · intro p hp
    obtain ⟨c, -, rfl⟩ := List.mem_map.1 hp
    exact Piece.isValid_ofChar c
  · simp [printString, List.flatMap_map, Piece.text_ofChar]
  · have hmeaning (cs : List Char) : unescape? (cs.map Piece.ofChar) = some cs := by
      induction cs with
      | nil => rfl
      | cons c cs ih => rw [List.map_cons, unescape?_ofChar, ih]; rfl
    simp [text?, hmeaning]

/-! ## Integers -/

theorem appendValue_append (value : Nat) (ds : List Nat) (d : Nat) :
    appendValue value (ds ++ [d]) = appendValue value ds * 10 + d := by
  induction ds generalizing value with
  | nil => rfl
  | cons d' ds ih => exact ih _

/-- A natural number is written as digits that mean it, without a zero in front. -/
theorem exists_toDigits (n : Nat) :
    ∃ ds, Nat.toDigits 10 n = digitText ds ∧ IsWhole ds ∧ digitsValue ds = n := by
  induction n using Nat.strongRecOn with
  | ind n ih =>
    by_cases hn : n < 10
    · refine ⟨[n], Nat.toDigits_of_lt_base hn, ⟨⟨by simp, by simpa using hn⟩, ?_⟩, ?_⟩
      · by_cases hzero : n = 0
        · exact .inl (by rw [hzero])
        · exact .inr (by simpa using hzero)
      · simp [digitsValue, appendValue]
    · obtain ⟨ds, htext, hwhole, hvalue⟩ := ih (n / 10) (by omega)
      -- `n / 10` is not zero, so that its digits begin with none, and neither do those of `n`.
      have hds : ds ≠ [0] := by
        rintro rfl
        simp only [digitsValue, appendValue] at hvalue
        omega
      have hhead := hwhole.2.resolve_left hds
      refine ⟨ds ++ [n % 10], ?_, ⟨⟨by simp, ?_⟩, .inr ?_⟩, ?_⟩
      · rw [Nat.toDigits_of_base_le (by decide) (by omega), htext]
        simp [digitText]
      · intro d hd
        rcases List.mem_append.1 hd with hd | hd
        · exact hwhole.1.2 d hd
        · obtain rfl := List.mem_singleton.1 hd
          omega
      · rw [List.head?_append]
        cases ds with
        | nil => exact absurd rfl hwhole.1.1
        | cons d ds => exact hhead
      · rw [digitsValue, appendValue_append]
        have : appendValue 0 ds = n / 10 := hvalue
        omega

/-- An integer of 64 bits is written as a number that means it. -/
theorem exists_print_integer {i : Int} (hmin : -0x8000000000000000 ≤ i) (hmax : i < UInt64.size) :
    ∃ n, IsNumberText n (Number.print (.integer i)).toList ∧ n.integer? = some i := by
  obtain ⟨ds, htext, hwhole, hvalue⟩ := exists_toDigits i.natAbs
  refine ⟨⟨decide (i < 0), ds, none, none⟩, ⟨hwhole, [], [], rfl, rfl, ?_⟩, ?_⟩
  · have hrepr : (Number.print (.integer i)).toList = i.repr.toList := rfl
    rw [hrepr, Int.repr_eq_if, List.append_nil, List.append_nil, ← htext]
    by_cases hi : 0 ≤ i
    · have hneg : ¬ i < 0 := by omega
      have hnat : i.toNat = i.natAbs := by omega
      simp [hi, hneg, hnat, signText]
    · have hneg : i < 0 := by omega
      have hnat : (-i).toNat = i.natAbs := by omega
      simp [hi, hneg, hnat, signText]
  · have hsize : (UInt64.size : Int) = 18446744073709551616 := rfl
    by_cases hi : i < 0
    · have hfits : 1 ≤ i.natAbs ∧ i.natAbs ≤ 9223372036854775808 := by omega
      have hback : -(i.natAbs : Int) = i := by omega
      generalize i.natAbs = n at hvalue hfits hback
      simp [Numeral.integer?, hi, hvalue, hfits, hback]
    · have hfits : i.natAbs < UInt64.size := by omega
      have hback : (i.natAbs : Int) = i := by omega
      generalize i.natAbs = n at hvalue hfits hback
      simp [Numeral.integer?, hi, hvalue, hfits, hback]

/-! ## Arrays and objects -/

section

variable {α : Type} {write : α → Value} {value? : Tree → Option α}

/-- The entries of an array are written one by one. -/
theorem exists_printEntries (h : ∀ a, ∃ t, Tree.Spelled t (write a).print ∧ value? t = some a)
    (as : List α) (first : Bool) : ∃ ts,
      EntriesSpelled first ts (printEntries first (as.map write) ++ [']']) ∧
      ts.mapM value? = some as := by
  induction as generalizing first with
  | nil => exact ⟨[], ⟨[], isSpace_nil, rfl⟩, rfl⟩
  | cons a as ih =>
    obtain ⟨t, htext, hvalue⟩ := h a
    obtain ⟨ts, htexts, hvalues⟩ := ih false
    refine ⟨t :: ts, ⟨_, _, _, isGap_comma first, htext, htexts, ?_⟩, ?_⟩
    · simp [printEntries]
    · simp [hvalue, hvalues]

/-- A member is written in front of the other ones. -/
theorem exists_printMembers_cons {t : Tree} {v : Value} (ht : t.Spelled v.print)
    {ms : List (List Piece × Tree)} {vs : List (String × Value)}
    (hms : MembersSpelled false ms (printMembers false vs ++ ['\x7d'])) (first : Bool)
    (key : String) : ∃ pieces, text? pieces = some key ∧
      MembersSpelled first ((pieces, t) :: ms)
        (printMembers first ((key, v) :: vs) ++ ['\x7d']) := by
  obtain ⟨pieces, hpieces, hkey⟩ := exists_printString key
  refine ⟨pieces, hkey, _, _, _, _, _, isGap_comma first, hpieces, isColon_colon, ht, hms, ?_⟩
  simp [printMembers]

/-- The entries of a collection are written as members. -/
theorem exists_printMembers {σ : Type} (insert : σ → String → α → σ)
    (h : ∀ a, ∃ t, Tree.Spelled t (write a).print ∧ value? t = some a)
    (entries : List (String × α)) (first : Bool) : ∃ ms named,
      MembersSpelled first ms
        (printMembers first (entries.map fun (key, a) => (key, write a)) ++ ['\x7d']) ∧
      ms.mapM member? = some named ∧
      ∀ s, named.foldlM (fun s m => (value? m.2).map (insert s m.1)) s =
        some (entries.foldl (fun s m => insert s m.1 m.2) s) := by
  induction entries generalizing first with
  | nil =>
    exact ⟨[], [], ⟨[], fun c hc => absurd hc List.not_mem_nil, rfl⟩, rfl, fun s => rfl⟩
  | cons m entries ih =>
    obtain ⟨key, a⟩ := m
    obtain ⟨t, htext, hvalue⟩ := h a
    obtain ⟨ms, named, htexts, hnamed, hfold⟩ := ih false
    obtain ⟨pieces, hkey, hmembers⟩ := exists_printMembers_cons htext htexts first key
    refine ⟨(pieces, t) :: ms, (key, t) :: named, hmembers, ?_, fun s => ?_⟩
    · simp [member?, hkey, hnamed]
    · simp [hvalue, hfold]

end

/-! ## Faithful formats -/

mutual

/-- Whether the parts of a format fit together, so that nothing that is written is lost. -/
def Format.Faithful : {α : Type} → Format α → Prop
  | _, .text => True
  | _, .boolean => True
  | _, .integer _ narrow? widen => ∀ a, narrow? (widen a) = some a ∧
    -0x8000000000000000 ≤ widen a ∧ widen a < UInt64.size
  | _, .choice names name => ∀ a, Codec.named? names (name a) = some a
  | _, .list entry => entry.Faithful
  | _, .optional inner => inner.Faithful ∧ inner.value? .null = none
  | _, .keyed collection entry => entry.Faithful ∧ ∀ s, (collection.entries s).foldl
    (fun s m => collection.insert s m.1 m.2) collection.empty = s
  | _, .record _ fields _ _ _ _ => fields.Faithful

/-- Whether the fields of a record have different keys, fit together each on their own, and
leave out no value but their default. -/
def Fields.Faithful : {αs : List Type} → Fields αs → Prop
  | _, .nil => True
  | _, .cons key format fallback hidden rest => format.Faithful ∧
    (∀ a, hidden a = true → fallback = some a) ∧ key ∉ rest.keys ∧ rest.Faithful

end

/-- No member of the other fields has the key of the first one. -/
theorem filter_key_eq_nil {key : String} {named : List (String × Tree)} {keys : List String}
    (hkey : key ∉ keys) (hnamed : ∀ m ∈ named, m.1 ∈ keys) : named.filter (·.1 = key) = [] := by
  rw [List.filter_eq_nil_iff]
  intro m hm heq
  have : m.1 = key := by simpa using heq
  exact hkey (this ▸ hnamed m hm)

theorem filter_key_eq_self {key : String} {named : List (String × Tree)} {keys : List String}
    (hkey : key ∉ keys) (hnamed : ∀ m ∈ named, m.1 ∈ keys) : named.filter (·.1 ≠ key) = named := by
  rw [List.filter_eq_self]
  intro m hm
  have : m.1 ≠ key := fun heq => hkey (heq ▸ hnamed m hm)
  simpa using this

mutual

/-- A value is written as a text of a tree that means it. -/
theorem Format.Faithful.exists_print : {α : Type} → {format : Format α} → format.Faithful →
    (a : α) → ∃ t, Tree.Spelled t (format.codec.write a).print ∧ format.value? t = some a
  | _, .text, _, a => by
    obtain ⟨pieces, hpieces, htext⟩ := exists_printString a
    rw [Format.codec, Format.value?]
    exact ⟨.string pieces, hpieces, htext⟩
  | _, .boolean, _, a => by
    rw [Format.codec, Format.value?]
    exact ⟨.boolean a, by cases a <;> rfl, rfl⟩
  | _, .integer wanted narrow? widen, h, a => by
    rw [Format.Faithful] at h
    obtain ⟨hback, hmin, hmax⟩ := h a
    obtain ⟨n, hn, hinteger⟩ := exists_print_integer hmin hmax
    rw [Format.codec, Format.value?]
    exact ⟨.number n, hn, by simp [Tree.integer?, hinteger, hback]⟩
  | _, .choice names name, h, a => by
    rw [Format.Faithful] at h
    obtain ⟨pieces, hpieces, htext⟩ := exists_printString (name a)
    rw [Format.codec, Format.value?]
    exact ⟨.string pieces, hpieces, by simp [Tree.name?, htext, h a]⟩
  | _, .list entry, h, as => by
    rw [Format.Faithful] at h
    obtain ⟨ts, htexts, hvalues⟩ := exists_printEntries h.exists_print as true
    rw [Format.codec, Format.value?]
    exact ⟨.array ts, ⟨_, htexts, rfl⟩, hvalues⟩
  | _, .optional inner, h, a => by
    rw [Format.Faithful] at h
    rw [Format.codec, Format.value?]
    cases a with
    | none => exact ⟨.null, rfl, rfl⟩
    | some a =>
      obtain ⟨t, htext, hvalue⟩ := h.1.exists_print a
      have ht : t ≠ .null := by
        rintro rfl
        rw [h.2] at hvalue
        cases hvalue
      exact ⟨t, htext, by rw [Tree.optional?_of_ne ht, hvalue]; rfl⟩
  | _, .keyed collection entry, h, s => by
    rw [Format.Faithful] at h
    obtain ⟨ms, named, htexts, hnamed, hfold⟩ := exists_printMembers collection.insert
      h.1.exists_print (collection.entries s) true
    rw [Format.codec, Format.value?]
    refine ⟨.object ms, ⟨_, htexts, rfl⟩, ?_⟩
    simp [Tree.members?, hnamed, hfold, h.2]
  | _, .record name fields make parts make_parts parts_make, h, r => by
    rw [Format.Faithful] at h
    obtain ⟨ms, named, htexts, hnamed, -, hrow⟩ := h.exists_print (parts r) true
    rw [Format.codec, Format.value?]
    refine ⟨.object ms, ⟨_, htexts, rfl⟩, ?_⟩
    simp [Tree.record?, Tree.members?, hnamed, hrow, make_parts]

/-- The fields of a record are written as members whose row is theirs. -/
theorem Fields.Faithful.exists_print : {αs : List Type} → {fields : Fields αs} → fields.Faithful →
    (row : Row αs) → (first : Bool) → ∃ ms named,
      MembersSpelled first ms (printMembers first (fields.members.written row) ++ ['\x7d']) ∧
      ms.mapM member? = some named ∧ (∀ m ∈ named, m.1 ∈ fields.keys) ∧
      fields.row? named = some row
  | _, .nil, _, row, first => by
    refine ⟨[], [], ⟨[], fun c hc => absurd hc List.not_mem_nil, rfl⟩, rfl, ?_, ?_⟩
    · simp
    · rw [Fields.row?]
      rfl
  | _, .cons key format fallback hidden rest, h, (a, row), first => by
    rw [Fields.Faithful] at h
    obtain ⟨hformat, hhidden, hkey, hrest⟩ := h
    have hwritten : (Fields.cons key format fallback hidden rest).members.written (a, row) =
        if hidden a then rest.members.written row
        else (key, format.codec.write a) :: rest.members.written row := rfl
    rw [hwritten]
    cases hcase : hidden a with
    | true =>
      obtain ⟨ms, named, htexts, hnamed, hkeys, hrow⟩ := hrest.exists_print row first
      refine ⟨ms, named, htexts, hnamed, fun m hm => List.mem_cons_of_mem _ (hkeys m hm), ?_⟩
      rw [Fields.row?_cons, filter_key_eq_nil hkey hkeys, filter_key_eq_self hkey hkeys, hrow,
        fieldValue?, hhidden a hcase]
      rfl
    | false =>
      obtain ⟨t, htext, hvalue⟩ := hformat.exists_print a
      obtain ⟨ms, named, htexts, hnamed, hkeys, hrow⟩ := hrest.exists_print row false
      obtain ⟨pieces, hname, hmembers⟩ := exists_printMembers_cons htext htexts first key
      refine ⟨(pieces, t) :: ms, (key, t) :: named, hmembers, ?_, ?_, ?_⟩
      · simp [member?, hname, hnamed]
      · intro m hm
        rcases List.mem_cons.1 hm with rfl | hm
        · exact List.mem_cons_self
        · exact List.mem_cons_of_mem _ (hkeys m hm)
      · have hmine : ((key, t) :: named).filter (·.1 = key) = [(key, t)] := by
          rw [List.filter_cons_of_pos (by simp), filter_key_eq_nil hkey hkeys]
        have hothers : ((key, t) :: named).filter (·.1 ≠ key) = named := by
          rw [List.filter_cons_of_neg (by simp), filter_key_eq_self hkey hkeys]
        rw [Fields.row?_cons, hmine, hothers, hrow, fieldValue?, hvalue]
        rfl

end

/-! ## Faithful fields -/

section

variable {α : Type} {αs : List Type} {key : String} {rest : Fields αs}

@[simp] theorem Fields.faithful_nil : Fields.nil.Faithful := by
  rw [Fields.Faithful]
  trivial

@[simp] theorem Fields.faithful_required {format : Format α} :
    (Fields.required key format rest).Faithful ↔
      format.Faithful ∧ key ∉ rest.keys ∧ rest.Faithful := by
  simp [Fields.required, Fields.Faithful]

@[simp] theorem Fields.faithful_defaulted {format : Format α} {default : α} :
    (Fields.defaulted key format default rest).Faithful ↔
      format.Faithful ∧ key ∉ rest.keys ∧ rest.Faithful := by
  simp [Fields.defaulted, Fields.Faithful]

@[simp] theorem Fields.faithful_listed {entry : Format α} :
    (Fields.listed key entry rest).Faithful ↔
      entry.Faithful ∧ key ∉ rest.keys ∧ rest.Faithful := by
  simp [Fields.listed, Format.Faithful]

@[simp] theorem Fields.faithful_optional {inner : Format α} :
    (Fields.optional key inner rest).Faithful ↔
      (inner.Faithful ∧ inner.value? .null = none) ∧ key ∉ rest.keys ∧ rest.Faithful := by
  simp [Fields.optional, Fields.Faithful, Format.Faithful]

@[simp] theorem RecordFormat.faithful_format {R : Type} (r : RecordFormat R) :
    r.format.Faithful ↔ r.fields.Faithful := by
  simp [RecordFormat.format, Format.Faithful]

@[simp] theorem Fields.keys_nil : Fields.nil.keys = [] := rfl

@[simp] theorem Fields.keys_required {format : Format α} :
    (Fields.required key format rest).keys = key :: rest.keys := rfl

@[simp] theorem Fields.keys_defaulted {format : Format α} {default : α} :
    (Fields.defaulted key format default rest).keys = key :: rest.keys := rfl

@[simp] theorem Fields.keys_listed {entry : Format α} :
    (Fields.listed key entry rest).keys = key :: rest.keys := rfl

@[simp] theorem Fields.keys_optional {inner : Format α} :
    (Fields.optional key inner rest).keys = key :: rest.keys := rfl

end

/-! ## Values that are not missing -/

@[simp] theorem Format.faithful_text : Format.text.Faithful := by
  rw [Format.Faithful]
  trivial

@[simp] theorem Format.faithful_boolean : Format.boolean.Faithful := by
  rw [Format.Faithful]
  trivial

@[simp] theorem Format.faithful_int64 : Format.int64.Faithful := by
  rw [Format.int64, Format.Faithful]
  intro a
  have hmin : Int64.minValue.toInt ≤ a.toInt := a.minValue_le_toInt
  have hmax : a.toInt ≤ Int64.maxValue.toInt := a.toInt_le
  refine ⟨?_, hmin, Int.lt_of_le_of_lt hmax (by decide)⟩
  exact (if_pos ⟨hmin, hmax⟩).trans (by rw [Int64.ofInt_toInt])

@[simp] theorem Format.faithful_uint32 : Format.uint32.Faithful := by
  rw [Format.uint32, Format.Faithful]
  intro a
  have hlt : a.toNat < UInt32.size := a.toNat_lt_size
  have hsize : UInt32.size ≤ UInt64.size := by decide
  refine ⟨?_, by omega, by omega⟩
  exact (if_pos ⟨by omega, by omega⟩).trans (by simp)

@[simp] theorem Format.faithful_uint64 : Format.uint64.Faithful := by
  rw [Format.uint64, Format.Faithful]
  intro a
  have hlt : a.toNat < UInt64.size := a.toNat_lt_size
  refine ⟨?_, by omega, by omega⟩
  exact (if_pos ⟨by omega, by omega⟩).trans (by simp)

@[simp] theorem Format.value?_text_null : Format.text.value? .null = none := by
  rw [Format.value?]
  rfl

@[simp] theorem Format.value?_uint32_null : Format.uint32.value? .null = none := by
  rw [Format.uint32, Format.value?]
  rfl

@[simp] theorem RecordFormat.value?_null {R : Type} (r : RecordFormat R) :
    r.format.value? .null = none := by
  rw [RecordFormat.format, Format.value?]
  rfl

/-! ## Round trips -/

/-- Whether decoding what was encoded gives the same value back, and encoding what was decoded
gives a text that stays the same when it is decoded and encoded once more. -/
structure Codec.RoundTrips {α : Type} (codec : Codec α) : Prop where
  decode_encode : ∀ a, codec.decode (codec.encode a) = .ok a
  encode_decode : ∀ {text a}, codec.decode text = .ok a →
    ∃ b, codec.decode (codec.encode a) = .ok b ∧ codec.encode b = codec.encode a

theorem Format.Faithful.roundTrips {α : Type} {format : Format α} (h : format.Faithful) :
    format.codec.RoundTrips := by
  have hback (a : α) : format.codec.decode (format.codec.encode a) = .ok a := by
    obtain ⟨t, htext, hvalue⟩ := h.exists_print a
    refine (Format.decode_eq_ok_iff ?_).2 hvalue
    simpa [Codec.encode] using htext.isTextOf
  exact ⟨hback, fun {_ a} _ => ⟨a, hback a, rfl⟩⟩

/-- The codec of a record type with faithful fields is faithful. -/
theorem RecordFormat.roundTrips {R : Type} {r : RecordFormat R} (h : r.fields.Faithful) :
    r.codec.RoundTrips :=
  (r.faithful_format.2 h).roundTrips

end ManifestAtlas.Json
