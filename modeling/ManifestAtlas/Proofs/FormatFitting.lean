import ManifestAtlas.Proofs.FormatWriting

/-!
# Which trees mean something

A tree means something in a format when each of its parts is of the kind that the
format asks for in its place.  `Format.Fits` says this of one part, without
looking into it, and `Format.Everywhere` says of a property that all parts have
it.

Main statement: as long as no record stands as an array, a tree means something
exactly when it fits everywhere (`Format.isSome_value?_iff`).  So a single part
that does not fit spoils the whole tree.
-/

namespace ManifestAtlas.Json

/-! ## Single parts -/

/-- Whether an object has the members for the fields of a record: none twice, and every one that
has no default. -/
def Fields.Complete : {αs : List Type} → Fields αs → List (String × Tree) → Prop
  | _, .nil, _ => True
  | _, .cons key _ fallback _ rest, ms => (ms.map Prod.fst).count key ≤ 1 ∧
    (fallback = none → key ∈ ms.map Prod.fst) ∧ rest.Complete ms

/-- Whether a tree is of the kind that a format asks for, whatever is inside of it. -/
def Format.Fits : {α : Type} → Format α → Tree → Prop
  | _, .text, t => ∃ s, t.text? = some s
  | _, .boolean, t => ∃ b, t = .boolean b
  | _, .integer _ narrow? _, t => ∃ i a, t.integer? = some i ∧ narrow? i = some a
  | _, .choice names _, t => ∃ name ∈ names.map Prod.fst, t.name? = some name
  | _, .list _, t => ∃ ts, t = .array ts
  | _, .optional _, _ => True
  | _, .keyed _ _, t => ∃ ms, t.members? = some ms
  | _, .record _ fields _ _ _ _, t => ∃ ms, t.members? = some ms ∧ fields.Complete ms

/-- Whether a tree is no array where a record is wanted. -/
def Format.NoRow : {α : Type} → Format α → Tree → Prop
  | _, .record _ _ _ _ _ _, t => ∀ ts, t ≠ .array ts
  | _, _, _ => True

/-! ## All parts -/

mutual

/-- Whether a property holds of a tree and of all its parts, each with the format for its
place. -/
def Format.Everywhere (P : {α : Type} → Format α → Tree → Prop) :
    {α : Type} → Format α → Tree → Prop
  | _, .text => P .text
  | _, .boolean => P .boolean
  | _, .integer wanted narrow? widen => P (.integer wanted narrow? widen)
  | _, .choice names name => P (.choice names name)
  | _, .list entry => fun t => P (.list entry) t ∧
    ∀ ts, t = .array ts → ∀ u ∈ ts, entry.Everywhere P u
  | _, .optional inner => fun t => P (.optional inner) t ∧ (t ≠ .null → inner.Everywhere P t)
  | _, .keyed collection entry => fun t => P (.keyed collection entry) t ∧
    ∀ ms, t.members? = some ms → ∀ m ∈ ms, entry.Everywhere P m.2
  | _, .record name fields make parts make_parts parts_make => fun t =>
    P (.record name fields make parts make_parts parts_make) t ∧
      ∀ ms, t.members? = some ms → fields.Everywhere P ms

/-- Whether a property holds of the values of the fields of a record and of all their parts. -/
def Fields.Everywhere (P : {α : Type} → Format α → Tree → Prop) :
    {αs : List Type} → Fields αs → List (String × Tree) → Prop
  | _, .nil => fun _ => True
  | _, .cons key format _ _ rest => fun ms =>
    (∀ m ∈ ms, m.1 = key → format.Everywhere P m.2) ∧ rest.Everywhere P ms

end

/-- Whether a row says what the members of an object say: a field has the value that the only
member under its key means, or its default when there is no such member. -/
def Fields.Given : {αs : List Type} → Fields αs → List (String × Tree) → Row αs → Prop
  | _, .nil, _, _ => True
  | _, .cons key format fallback _ rest, ms, (a, row) =>
    ((∃ u, ms.filter (·.1 = key) = [(key, u)] ∧ format.value? u = some a) ∨
      key ∉ ms.map Prod.fst ∧ fallback = some a) ∧ rest.Given ms row

/-! ## Lists and fields -/

theorem isSome_foldlM_iff {σ α β : Type} {f : α → Option β} (insert : σ → α → β → σ) (as : List α)
    (s : σ) : (as.foldlM (fun s a => (f a).map (insert s a)) s).isSome ↔
      ∀ a ∈ as, (f a).isSome := by
  induction as generalizing s with
  | nil => simp
  | cons a as ih =>
    rw [List.forall_mem_cons]
    cases ha : f a with
    | none => simp [ha]
    | some b => simp [ha, ih]

theorem isSome_named?_iff {α : Type} {names : List (String × α)} {name : String} :
    (Codec.named? names name).isSome ↔ name ∈ names.map Prod.fst := by
  simp [Codec.named?, List.find?_isSome]

theorem isSome_fieldValue?_iff {α : Type} {fallback : Option α} {value? : Tree → Option α}
    {ms : List (String × Tree)} : (fieldValue? fallback value? ms).isSome ↔
      ms.length ≤ 1 ∧ (fallback = none → ms ≠ []) ∧ ∀ m ∈ ms, (value? m.2).isSome := by
  match ms with
  | [] => cases fallback <;> simp [fieldValue?]
  | [m] => simp [fieldValue?]
  | m :: m' :: ms => simp [fieldValue?]

/-- A field has a value when its key stands at most once, at least once without a default, and
only with values that mean something. -/
theorem isSome_fieldValue?_filter_iff {α : Type} {key : String} {fallback : Option α}
    {value? : Tree → Option α} {ms : List (String × Tree)} :
    (fieldValue? fallback value? (ms.filter (·.1 = key))).isSome ↔
      (ms.map Prod.fst).count key ≤ 1 ∧ (fallback = none → key ∈ ms.map Prod.fst) ∧
        ∀ m ∈ ms, m.1 = key → (value? m.2).isSome := by
  have hcount : (ms.map Prod.fst).count key = (ms.filter (·.1 = key)).length := by
    rw [List.count, List.countP_map, List.countP_eq_length_filter]
    rfl
  have hmem : ms.filter (·.1 = key) ≠ [] ↔ key ∈ ms.map Prod.fst := by
    simp [List.filter_eq_nil_iff]
  rw [isSome_fieldValue?_iff, hcount, hmem]
  simp [List.mem_filter]

/-! ## Fitting everywhere -/

mutual

/-- Without records that stand as arrays, a tree means something exactly when all its parts are
of the kinds that the format asks for. -/
theorem Format.isSome_value?_iff : {α : Type} → {format : Format α} → format.Faithful →
    {t : Tree} → format.Everywhere Format.NoRow t →
      ((format.value? t).isSome ↔ format.Everywhere Format.Fits t)
  | _, .text, _, t, _ => by
    rw [Format.value?, Format.Everywhere, Option.isSome_iff_exists]
    rfl
  | _, .boolean, _, t, _ => by
    rw [Format.value?, Format.Everywhere]
    cases t <;> simp [Tree.boolean?, Format.Fits]
  | _, .integer wanted narrow? widen, _, t, _ => by
    rw [Format.value?, Format.Everywhere]
    rw [Option.isSome_iff_exists]
    simp only [Option.bind_eq_some_iff]
    exact exists_comm.trans (by simp [Format.Fits])
  | _, .choice names name, _, t, _ => by
    rw [Format.value?, Format.Everywhere]
    cases htext : t.name? with
    | none => simp [Format.Fits, htext]
    | some s => simp [Format.Fits, htext, isSome_named?_iff]
  | _, .list entry, h, t, hrow => by
    rw [Format.Faithful] at h
    rw [Format.Everywhere] at hrow
    rw [Format.value?, Format.Everywhere]
    cases t with
    | array ts =>
      have hentries : ((Tree.array ts).entries?.bind (List.mapM entry.value?)).isSome ↔
          ∀ u ∈ ts, (entry.value? u).isSome := isSome_mapM_iff ts
      have hfits : Format.Fits (.list entry) (.array ts) := ⟨ts, rfl⟩
      rw [hentries]
      constructor
      · rintro hall
        refine ⟨hfits, fun ts' hts u hu => ?_⟩
        obtain rfl := Tree.array.inj hts
        exact (Format.isSome_value?_iff h (hrow.2 ts rfl u hu)).1 (hall u hu)
      · rintro ⟨-, hall⟩ u hu
        exact (Format.isSome_value?_iff h (hrow.2 ts rfl u hu)).2 (hall ts rfl u hu)
    | _ => simp [Tree.entries?, Format.Fits]
  | _, .optional inner, h, t, hrow => by
    rw [Format.Faithful] at h
    rw [Format.Everywhere] at hrow
    rw [Format.value?, Format.Everywhere]
    by_cases ht : t = .null
    · subst ht
      simp [Tree.optional?, Format.Fits]
    · rw [Tree.optional?_of_ne ht, Option.isSome_map]
      simpa [Format.Fits, ht] using Format.isSome_value?_iff h.1 (hrow.2 ht)
  | _, .keyed collection entry, h, t, hrow => by
    rw [Format.Faithful] at h
    rw [Format.Everywhere] at hrow
    rw [Format.value?, Format.Everywhere]
    cases hms : t.members? with
    | none => simp [Format.Fits, hms]
    | some ms =>
      have hentries : (ms.foldlM (fun s m => (entry.value? m.2).map (collection.insert s m.1))
          collection.empty).isSome ↔ ∀ m ∈ ms, (entry.value? m.2).isSome :=
        isSome_foldlM_iff (fun s m a => collection.insert s m.1 a) ms collection.empty
      have hfits : Format.Fits (.keyed collection entry) t := ⟨ms, hms⟩
      simp only [hms, Option.bind_some]
      rw [hentries]
      constructor
      · rintro hall
        refine ⟨hfits, fun ms' hms' m hm => ?_⟩
        obtain rfl := Option.some.inj hms'
        exact (Format.isSome_value?_iff h.1 (hrow.2 ms hms m hm)).1 (hall m hm)
      · rintro ⟨-, hall⟩ m hm
        exact (Format.isSome_value?_iff h.1 (hrow.2 ms hms m hm)).2 (hall ms rfl m hm)
  | _, .record name fields make parts make_parts parts_make, h, t, hrow => by
    rw [Format.Faithful] at h
    rw [Format.Everywhere] at hrow
    rw [Format.value?, Format.Everywhere, Option.isSome_map]
    rw [Tree.record?_of_ne_array hrow.1]
    cases hms : t.members? with
    | none => simp [Format.Fits, hms]
    | some ms => simpa [Format.Fits, hms] using Fields.isSome_row?_iff h (hrow.2 ms hms)

/-- The members of an object give a row exactly when they are complete and fit everywhere. -/
theorem Fields.isSome_row?_iff : {αs : List Type} → {fields : Fields αs} → fields.Faithful →
    {ms : List (String × Tree)} → fields.Everywhere Format.NoRow ms →
      ((fields.row? ms).isSome ↔ fields.Complete ms ∧ fields.Everywhere Format.Fits ms)
  | _, .nil, _, ms, _ => by
    rw [Fields.row?, Fields.Everywhere]
    exact iff_of_true rfl ⟨trivial, trivial⟩
  | _, .cons key format fallback hidden rest, h, ms, hrow => by
    rw [Fields.Faithful] at h
    rw [Fields.Everywhere] at hrow
    obtain ⟨hformat, -, hkey, hrest⟩ := h
    have hrow' := Fields.isSome_row?_iff hrest hrow.2
    have hvalue := @isSome_fieldValue?_filter_iff _ key fallback format.value? ms
    have hparts : (∀ m ∈ ms, m.1 = key → (format.value? m.2).isSome) ↔
        ∀ m ∈ ms, m.1 = key → format.Everywhere Format.Fits m.2 :=
      forall_congr' fun m => forall_congr' fun hm => forall_congr' fun hk =>
        Format.isSome_value?_iff hformat (hrow.1 m hm hk)
    rw [hparts] at hvalue
    have hboth : ((Fields.cons key format fallback hidden rest).row? ms).isSome ↔
        (fieldValue? fallback format.value? (ms.filter (·.1 = key))).isSome ∧
          (rest.row? ms).isSome := by
      rw [Fields.row?_cons_of_notMem hkey]
      cases fieldValue? fallback format.value? (ms.filter (·.1 = key)) <;>
        cases rest.row? ms <;> simp
    rw [hboth, hvalue, hrow', Fields.Everywhere, Fields.Complete]
    constructor
    · rintro ⟨⟨hcount, hmem, hfits⟩, hcomplete, hall⟩
      exact ⟨⟨hcount, hmem, hcomplete⟩, hfits, hall⟩
    · rintro ⟨⟨hcount, hmem, hcomplete⟩, hfits, hall⟩
      exact ⟨⟨hcount, hmem, hfits⟩, hcomplete, hall⟩

end

/-! ## Values of fields -/

theorem fieldValue?_filter_eq_some {α : Type} {key : String} {fallback : Option α}
    {value? : Tree → Option α} {ms : List (String × Tree)} {a : α}
    (h : fieldValue? fallback value? (ms.filter (·.1 = key)) = some a) :
    (∃ u, ms.filter (·.1 = key) = [(key, u)] ∧ value? u = some a) ∨
      key ∉ ms.map Prod.fst ∧ fallback = some a := by
  generalize hmine : ms.filter (·.1 = key) = mine at h
  match mine, h with
  | [], h =>
    have hnone : ∀ m ∈ ms, m.1 ≠ key := by simpa [List.filter_eq_nil_iff] using hmine
    exact .inr ⟨by simpa using fun u hu => hnone (key, u) hu rfl, h⟩
  | [(k, u)], h =>
    have hmem : (k, u) ∈ ms.filter (·.1 = key) := by simp [hmine]
    obtain rfl : k = key := by simpa using (List.mem_filter.1 hmem).2
    exact .inl ⟨u, rfl, h⟩

/-- The row of an object says what its members say. -/
theorem Fields.Faithful.given_of_row? : {αs : List Type} → {fields : Fields αs} →
    fields.Faithful → {ms : List (String × Tree)} → {row : Row αs} → fields.row? ms = some row →
      fields.Given ms row
  | _, .nil, _, _, _, _ => trivial
  | _, .cons key format fallback hidden rest, h, ms, row, hrow => by
    rw [Fields.Faithful] at h
    obtain ⟨-, -, hkey, hrest⟩ := h
    obtain ⟨a, more, ha, hmore, rfl⟩ := (Fields.row?_cons_eq_some_iff hkey).1 hrow
    exact ⟨fieldValue?_filter_eq_some ha, hrest.given_of_row? hmore⟩

/-- A record says what the members of its object say. -/
theorem RecordFormat.given_of_value? {R : Type} {r : RecordFormat R} (h : r.fields.Faithful)
    {t : Tree} {ms : List (String × Tree)} (hms : t.members? = some ms) {a : R}
    (ha : r.format.value? t = some a) : r.fields.Given ms (r.parts a) := by
  rw [RecordFormat.format, Format.value?] at ha
  obtain ⟨row, hrow, rfl⟩ := Option.map_eq_some_iff.1 ha
  rw [Tree.record?_of_ne_array (Tree.ne_array_of_members? hms), hms] at hrow
  rw [r.parts_make]
  exact h.given_of_row? hrow

end ManifestAtlas.Json
