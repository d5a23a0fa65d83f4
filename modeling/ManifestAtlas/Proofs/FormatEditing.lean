import ManifestAtlas.Proofs.FormatWriting

/-!
# Changes that do not change the meaning

Some changes to the members of a record do not change what a tree means: another
order, a member under a key that no field has, put in or taken out, and a default
that is left out (`Fields.Edit`).  `Format.Edit` makes one such change anywhere
in a tree.

Main statement: a tree that means something still means the same after a change
(`Format.value?_of_edit`).
-/

namespace ManifestAtlas.Json

variable {α : Type} {αs : List Type}

/-! ## Changes -/

/-- Whether a member has the value that its field takes without it. -/
def Fields.IsDefault : {αs : List Type} → Fields αs → String → Tree → Prop
  | _, .nil, _, _ => False
  | _, .cons key format fallback _ rest, k, u =>
    (key = k ∧ ∃ a, fallback = some a ∧ format.value? u = some a) ∨ rest.IsDefault k u

/-- The changes to the members of a record. -/
inductive Fields.Edit (fields : Fields αs) :
    List (List Piece × Tree) → List (List Piece × Tree) → Prop
  | permute {ms ms' : List (List Piece × Tree)} (h : ms.Perm ms') : fields.Edit ms ms'
  | insert {before after : List (List Piece × Tree)} {key : List Piece} {k : String} {u : Tree}
      (hkey : text? key = some k) (hunknown : k ∉ fields.keys) :
      fields.Edit (before ++ after) (before ++ (key, u) :: after)
  | remove {before after : List (List Piece × Tree)} {key : List Piece} {k : String} {u : Tree}
      (hkey : text? key = some k) (hunknown : k ∉ fields.keys) :
      fields.Edit (before ++ (key, u) :: after) (before ++ after)
  | drop {before after : List (List Piece × Tree)} {key : List Piece} {k : String} {u : Tree}
      (hkey : text? key = some k) (hdefault : fields.IsDefault k u) :
      fields.Edit (before ++ (key, u) :: after) (before ++ after)

mutual

/-- A change to the members of one record somewhere in a tree. -/
def Format.Edit : {α : Type} → Format α → Tree → Tree → Prop
  | _, .text => fun _ _ => False
  | _, .boolean => fun _ _ => False
  | _, .integer _ _ _ => fun _ _ => False
  | _, .choice _ _ => fun _ _ => False
  | _, .list entry => fun t t' => ∃ before u u' after,
    t = .array (before ++ u :: after) ∧ t' = .array (before ++ u' :: after) ∧ entry.Edit u u'
  | _, .optional inner => inner.Edit
  | _, .keyed _ entry => fun t t' => ∃ before key u u' after,
    t = .object (before ++ (key, u) :: after) ∧ t' = .object (before ++ (key, u') :: after) ∧
      entry.Edit u u'
  | _, .record _ fields _ _ _ _ => fun t t' =>
    (∃ ms ms', t = .object ms ∧ t' = .object ms' ∧ fields.Edit ms ms') ∨
    ∃ before key u u' after k, t = .object (before ++ (key, u) :: after) ∧
      t' = .object (before ++ (key, u') :: after) ∧ text? key = some k ∧ fields.EditUnder k u u'

/-- A change somewhere in the value under a key of a record. -/
def Fields.EditUnder : {αs : List Type} → Fields αs → String → Tree → Tree → Prop
  | _, .nil => fun _ _ _ => False
  | _, .cons key format _ _ rest => fun k u u' =>
    (key = k ∧ format.Edit u u') ∨ rest.EditUnder k u u'

end

/-! ## Members by name -/

theorem mapM_member?_cons {key : List Piece} {k : String} {u : Tree}
    {before after : List (List Piece × Tree)} {named named' : List (String × Tree)}
    (hkey : text? key = some k) (hbefore : before.mapM member? = some named)
    (hafter : after.mapM member? = some named') :
    (before ++ (key, u) :: after).mapM member? = some (named ++ (k, u) :: named') := by
  simp [List.mapM_append, hbefore, hafter, member?, hkey]

theorem mapM_member?_append {before after : List (List Piece × Tree)}
    {named : List (String × Tree)} (h : (before ++ after).mapM member? = some named) :
    ∃ l r, before.mapM member? = some l ∧ after.mapM member? = some r ∧ named = l ++ r := by
  rw [List.mapM_append] at h
  cases hbefore : before.mapM member? with
  | none => simp [hbefore] at h
  | some l =>
    cases hafter : after.mapM member? with
    | none => simp [hbefore, hafter] at h
    | some r => exact ⟨l, r, rfl, rfl, by simpa [hbefore, hafter] using h.symm⟩

theorem exists_of_mapM_member?_cons {key : List Piece} {u : Tree}
    {before after : List (List Piece × Tree)} {named : List (String × Tree)}
    (h : (before ++ (key, u) :: after).mapM member? = some named) : ∃ k l r,
      text? key = some k ∧ before.mapM member? = some l ∧ after.mapM member? = some r ∧
        named = l ++ (k, u) :: r := by
  obtain ⟨l, r', hbefore, hcons, rfl⟩ := mapM_member?_append h
  cases hkey : text? key with
  | none => simp [member?, hkey] at hcons
  | some k =>
    cases hafter : after.mapM member? with
    | none => simp [member?, hkey, hafter] at hcons
    | some r =>
      refine ⟨k, l, r, rfl, hbefore, rfl, ?_⟩
      have : r' = (k, u) :: r := by simpa [member?, hkey, hafter] using hcons.symm
      rw [this]

/-- Members in another order have the same names, in another order. -/
theorem exists_mapM_member?_of_perm {ms ms' : List (List Piece × Tree)} (h : ms.Perm ms')
    {named : List (String × Tree)} (hnamed : ms.mapM member? = some named) :
    ∃ named', ms'.mapM member? = some named' ∧ named.Perm named' := by
  have hall : ∀ m ∈ ms, (member? m).isSome := (isSome_mapM_iff ms).1 (by rw [hnamed]; rfl)
  have hall' : (ms'.mapM member?).isSome :=
    (isSome_mapM_iff ms').2 fun m hm => hall m (h.mem_iff.2 hm)
  obtain ⟨named', hnamed'⟩ := Option.isSome_iff_exists.1 hall'
  refine ⟨named', hnamed', ?_⟩
  rw [← filterMap_of_mapM hnamed, ← filterMap_of_mapM hnamed']
  exact h.filterMap _

/-! ## Fields that keep their values -/

theorem fieldValue?_perm {fallback : Option α} {value? : Tree → Option α}
    {ms ms' : List (String × Tree)} (h : ms.Perm ms') :
    fieldValue? fallback value? ms = fieldValue? fallback value? ms' := by
  match ms, h with
  | [], h => rw [h.nil_eq]
  | [m], h => rw [h.singleton_eq]
  | m :: m' :: ms, h =>
    match ms', h.length_eq with
    | n :: n' :: ms', _ => rfl

/-- A field that has a value and a member takes its value from that member. -/
theorem fieldValue?_cons_eq_some {key : String} {fallback : Option α} {value? : Tree → Option α}
    {l r : List (String × Tree)} {u : Tree} {a : α}
    (h : fieldValue? fallback value? ((l ++ (key, u) :: r).filter (·.1 = key)) = some a) :
    l.filter (·.1 = key) = [] ∧ r.filter (·.1 = key) = [] ∧ value? u = some a := by
  rw [List.filter_append, List.filter_cons_of_pos (by simp)] at h
  generalize l.filter (·.1 = key) = before at h ⊢
  generalize r.filter (·.1 = key) = after at h ⊢
  cases before with
  | nil =>
    cases after with
    | nil => exact ⟨rfl, rfl, h⟩
    | cons m after => simp [fieldValue?] at h
  | cons m before => cases before <;> simp [fieldValue?] at h

/-- Whether every field that takes a value from some members takes the same value from others. -/
def Fields.Keeps : {αs : List Type} → Fields αs → (ms ms' : List (String × Tree)) → Prop
  | _, .nil, _, _ => True
  | _, .cons key format fallback _ rest, ms, ms' =>
    (∀ a, fieldValue? fallback format.value? (ms.filter (·.1 = key)) = some a →
      fieldValue? fallback format.value? (ms'.filter (·.1 = key)) = some a) ∧ rest.Keeps ms ms'

theorem Fields.Faithful.row?_of_keeps : {αs : List Type} → {fields : Fields αs} →
    fields.Faithful → {ms ms' : List (String × Tree)} → fields.Keeps ms ms' → {row : Row αs} →
    fields.row? ms = some row → fields.row? ms' = some row
  | _, .nil, _, _, _, _, _, _ => by
    rw [Fields.row?]
    rfl
  | _, .cons key format fallback hidden rest, h, ms, ms', hkeeps, row, hrow => by
    rw [Fields.Faithful] at h
    obtain ⟨-, -, hkey, hrest⟩ := h
    rw [Fields.row?_cons_eq_some_iff hkey] at hrow ⊢
    obtain ⟨a, more, ha, hmore, heq⟩ := hrow
    exact ⟨a, more, hkeeps.1 a ha, hrest.row?_of_keeps hkeeps.2 hmore, heq⟩

/-- Fields keep their values when the members under their keys are the same. -/
theorem Fields.keeps_of_filter_eq : {αs : List Type} → (fields : Fields αs) →
    {ms ms' : List (String × Tree)} →
    (∀ key ∈ fields.keys, ms.filter (·.1 = key) = ms'.filter (·.1 = key)) → fields.Keeps ms ms'
  | _, .nil, _, _, _ => trivial
  | _, .cons _ _ _ _ rest, _, _, h => by
    obtain ⟨hkey, hrest⟩ := List.forall_mem_cons.1 h
    exact ⟨fun a ha => hkey ▸ ha, rest.keeps_of_filter_eq hrest⟩

theorem Fields.keeps_of_perm : {αs : List Type} → (fields : Fields αs) →
    {ms ms' : List (String × Tree)} → ms.Perm ms' → fields.Keeps ms ms'
  | _, .nil, _, _, _ => trivial
  | _, .cons _ _ _ _ rest, _, _, h =>
    ⟨fun _ ha => (fieldValue?_perm (h.filter _)).symm.trans ha, rest.keeps_of_perm h⟩

theorem Fields.IsDefault.mem_keys : {αs : List Type} → {fields : Fields αs} → {k : String} →
    {u : Tree} → fields.IsDefault k u → k ∈ fields.keys
  | _, .cons key _ _ _ rest, k, u, h => by
    obtain ⟨rfl, -⟩ | h := h
    · exact List.mem_cons_self
    · exact List.mem_cons_of_mem _ h.mem_keys

/-- Fields under other keys keep their values when a member is left out. -/
theorem filter_key_cons {k key : String} (hkey : key ≠ k) (l r : List (String × Tree)) (u : Tree) :
    (l ++ (k, u) :: r).filter (·.1 = key) = (l ++ r).filter (·.1 = key) := by
  rw [List.filter_append, List.filter_cons_of_neg (by simpa using hkey.symm), List.filter_append]

/-- Fields keep their values when a member with a default is left out. -/
theorem Fields.Faithful.keeps_of_isDefault : {αs : List Type} → {fields : Fields αs} →
    fields.Faithful → {k : String} → {u : Tree} → fields.IsDefault k u →
    (l r : List (String × Tree)) → fields.Keeps (l ++ (k, u) :: r) (l ++ r)
  | _, .cons key format fallback hidden rest, h, k, u, hdefault, l, r => by
    rw [Fields.Faithful] at h
    obtain ⟨-, -, hkey, hrest⟩ := h
    obtain ⟨rfl, b, hb, hvalue⟩ | hdefault := hdefault
    · refine ⟨fun a ha => ?_, rest.keeps_of_filter_eq fun key' hkey' => ?_⟩
      · obtain ⟨hl, hr, ha⟩ := fieldValue?_cons_eq_some ha
        rw [List.filter_append, hl, hr]
        exact hb.trans (hvalue.symm.trans ha)
      · have hne : key' ≠ key := fun heq => hkey (heq ▸ hkey')
        exact filter_key_cons hne l r u
    · have hne : key ≠ k := fun heq => hkey (heq ▸ hdefault.mem_keys)
      refine ⟨fun a ha => ?_, hrest.keeps_of_isDefault hdefault l r⟩
      rwa [filter_key_cons hne] at ha

/-- A change to the members of a record keeps the values of its fields. -/
theorem Fields.Faithful.row?_of_edit {fields : Fields αs} (h : fields.Faithful)
    {ms ms' : List (List Piece × Tree)} (hedit : fields.Edit ms ms') {row : Row αs}
    (hrow : (ms.mapM member?).bind fields.row? = some row) :
    (ms'.mapM member?).bind fields.row? = some row := by
  obtain ⟨named, hnamed, hrow⟩ := Option.bind_eq_some_iff.1 hrow
  cases hedit with
  | permute hperm =>
    obtain ⟨named', hnamed', hperm⟩ := exists_mapM_member?_of_perm hperm hnamed
    rw [hnamed', Option.bind_some]
    exact h.row?_of_keeps (fields.keeps_of_perm hperm) hrow
  | @insert before after key k u hkey hunknown =>
    obtain ⟨l, r, hl, hr, rfl⟩ := mapM_member?_append hnamed
    rw [mapM_member?_cons hkey hl hr, Option.bind_some]
    refine h.row?_of_keeps (fields.keeps_of_filter_eq fun key' hkey' => ?_) hrow
    have hne : key' ≠ k := fun heq => hunknown (heq ▸ hkey')
    exact (filter_key_cons hne l r u).symm
  | @remove before after key k u hkey hunknown =>
    obtain ⟨k', l, r, hk, hl, hr, rfl⟩ := exists_of_mapM_member?_cons hnamed
    obtain rfl : k' = k := Option.some.inj (hk.symm.trans hkey)
    rw [List.mapM_append, hl, hr]
    refine h.row?_of_keeps (fields.keeps_of_filter_eq fun key' hkey' => ?_) hrow
    have hne : key' ≠ k' := fun heq => hunknown (heq ▸ hkey')
    exact filter_key_cons hne l r u
  | @drop before after key k u hkey hdefault =>
    obtain ⟨k', l, r, hk, hl, hr, rfl⟩ := exists_of_mapM_member?_cons hnamed
    obtain rfl : k' = k := Option.some.inj (hk.symm.trans hkey)
    rw [List.mapM_append, hl, hr]
    exact h.row?_of_keeps (h.keeps_of_isDefault hdefault l r) hrow

/-! ## Changes anywhere -/

/-- Where one entry of a list may stand for another one, so may the list. -/
theorem mapM_of_edit {β : Type} {value? : Tree → Option β} {u u' : Tree}
    (hu : ∀ b, value? u = some b → value? u' = some b) {before after : List Tree} {bs : List β}
    (h : (before ++ u :: after).mapM value? = some bs) :
    (before ++ u' :: after).mapM value? = some bs := by
  induction before generalizing bs with
  | nil =>
    cases hvalue : value? u with
    | none => simp [hvalue] at h
    | some b => simpa [hvalue, hu b hvalue] using h
  | cons t before ih =>
    cases hvalue : value? t with
    | none => simp [hvalue] at h
    | some b =>
      cases hvalues : (before ++ u :: after).mapM value? with
      | none => simp [hvalue, hvalues] at h
      | some bs' => simpa [hvalue, hvalues, ih hvalues] using h

/-- Where one value of a collection may stand for another one, so may the collection. -/
theorem foldlM_of_edit {σ β : Type} {value? : Tree → Option β} {insert : σ → String → β → σ}
    {u u' : Tree} (hu : ∀ b, value? u = some b → value? u' = some b) {k : String}
    {l r : List (String × Tree)} {s s' : σ}
    (h : (l ++ (k, u) :: r).foldlM (fun s m => (value? m.2).map (insert s m.1)) s = some s') :
    (l ++ (k, u') :: r).foldlM (fun s m => (value? m.2).map (insert s m.1)) s = some s' := by
  induction l generalizing s with
  | nil =>
    cases hvalue : value? u with
    | none => simp [hvalue] at h
    | some b => simpa [hvalue, hu b hvalue] using h
  | cons m l ih =>
    cases hvalue : value? m.2 with
    | none => simp [hvalue] at h
    | some b =>
      simp only [List.cons_append, List.foldlM_cons, hvalue, Option.map_some] at h ⊢
      exact ih h

/-- What is changed, and what it is changed into, is not missing. -/
theorem Format.ne_null_of_edit : {α : Type} → {format : Format α} → {t t' : Tree} →
    format.Edit t t' → t ≠ .null ∧ t' ≠ .null
  | _, .text, _, _, h => by
    rw [Format.Edit] at h
    exact h.elim
  | _, .boolean, _, _, h => by
    rw [Format.Edit] at h
    exact h.elim
  | _, .integer _ _ _, _, _, h => by
    rw [Format.Edit] at h
    exact h.elim
  | _, .choice _ _, _, _, h => by
    rw [Format.Edit] at h
    exact h.elim
  | _, .list entry, _, _, h => by
    rw [Format.Edit] at h
    obtain ⟨_, _, _, _, rfl, rfl, -⟩ := h
    exact ⟨nofun, nofun⟩
  | _, .optional inner, _, _, h => by
    rw [Format.Edit] at h
    exact inner.ne_null_of_edit h
  | _, .keyed _ _, _, _, h => by
    rw [Format.Edit] at h
    obtain ⟨_, _, _, _, _, rfl, rfl, -⟩ := h
    exact ⟨nofun, nofun⟩
  | _, .record _ _ _ _ _ _, _, _, h => by
    rw [Format.Edit] at h
    obtain ⟨_, _, rfl, rfl, -⟩ | ⟨_, _, _, _, _, _, rfl, rfl, -⟩ := h <;> exact ⟨nofun, nofun⟩

theorem Fields.EditUnder.mem_keys : {αs : List Type} → {fields : Fields αs} → {k : String} →
    {u u' : Tree} → fields.EditUnder k u u' → k ∈ fields.keys
  | _, .nil, _, _, _, h => by
    rw [Fields.EditUnder] at h
    exact h.elim
  | _, .cons key _ _ _ rest, k, u, u', h => by
    rw [Fields.EditUnder] at h
    obtain ⟨rfl, -⟩ | h := h
    · exact List.mem_cons_self
    · exact List.mem_cons_of_mem _ h.mem_keys

mutual

/-- A change to the members of a record anywhere in a tree does not change what the tree means,
if it means something. -/
theorem Format.Faithful.value?_of_edit : {α : Type} → {format : Format α} → format.Faithful →
    {t t' : Tree} → format.Edit t t' → {a : α} → format.value? t = some a →
      format.value? t' = some a
  | _, .text, _, t, t', hedit, a, _ => by
    rw [Format.Edit] at hedit
    exact hedit.elim
  | _, .boolean, _, t, t', hedit, a, _ => by
    rw [Format.Edit] at hedit
    exact hedit.elim
  | _, .integer _ _ _, _, t, t', hedit, a, _ => by
    rw [Format.Edit] at hedit
    exact hedit.elim
  | _, .choice _ _, _, t, t', hedit, a, _ => by
    rw [Format.Edit] at hedit
    exact hedit.elim
  | _, .list entry, h, t, t', hedit, as, hvalue => by
    rw [Format.Faithful] at h
    rw [Format.Edit] at hedit
    rw [Format.value?] at hvalue ⊢
    obtain ⟨before, u, u', after, rfl, rfl, hedit⟩ := hedit
    exact mapM_of_edit (fun b hb => h.value?_of_edit hedit hb) hvalue
  | _, .optional inner, h, t, t', hedit, a, hvalue => by
    rw [Format.Faithful] at h
    rw [Format.Edit] at hedit
    rw [Format.value?] at hvalue ⊢
    obtain ⟨ht, ht'⟩ := inner.ne_null_of_edit hedit
    rw [Tree.optional?_of_ne ht] at hvalue
    obtain ⟨b, hb, rfl⟩ := Option.map_eq_some_iff.1 hvalue
    rw [Tree.optional?_of_ne ht', h.1.value?_of_edit hedit hb]
    rfl
  | _, .keyed collection entry, h, t, t', hedit, s, hvalue => by
    rw [Format.Faithful] at h
    rw [Format.Edit] at hedit
    rw [Format.value?] at hvalue ⊢
    obtain ⟨before, key, u, u', after, rfl, rfl, hedit⟩ := hedit
    obtain ⟨named, hnamed, hfold⟩ := Option.bind_eq_some_iff.1 hvalue
    obtain ⟨k, l, r, hk, hl, hr, rfl⟩ := exists_of_mapM_member?_cons hnamed
    have hnamed' := mapM_member?_cons (u := u') hk hl hr
    simp only [Tree.members?, hnamed', Option.bind_some]
    exact foldlM_of_edit (fun b hb => h.1.value?_of_edit hedit hb) hfold
  | _, .record name fields make parts make_parts parts_make, h, t, t', hedit, r, hvalue => by
    rw [Format.Faithful] at h
    rw [Format.Edit] at hedit
    rw [Format.value?] at hvalue ⊢
    obtain ⟨row, hrow, rfl⟩ := Option.map_eq_some_iff.1 hvalue
    refine Option.map_eq_some_iff.2 ⟨row, ?_, rfl⟩
    obtain ⟨ms, ms', rfl, rfl, hedit⟩ |
      ⟨before, key, u, u', after, k, rfl, rfl, hkey, hedit⟩ := hedit
    · exact h.row?_of_edit hedit hrow
    · obtain ⟨named, hnamed, hrow⟩ := Option.bind_eq_some_iff.1 hrow
      obtain ⟨k', l, r, hk, hl, hr, rfl⟩ := exists_of_mapM_member?_cons hnamed
      obtain rfl : k' = k := Option.some.inj (hk.symm.trans hkey)
      have hnamed' := mapM_member?_cons (u := u') hk hl hr
      simp only [Tree.record?, Tree.members?, hnamed', Option.bind_some]
      exact h.row?_of_keeps (h.keeps_of_editUnder hedit l r) hrow

/-- A change under one key keeps the values of all fields. -/
theorem Fields.Faithful.keeps_of_editUnder : {αs : List Type} → {fields : Fields αs} →
    fields.Faithful → {k : String} → {u u' : Tree} → fields.EditUnder k u u' →
    (l r : List (String × Tree)) → fields.Keeps (l ++ (k, u) :: r) (l ++ (k, u') :: r)
  | _, .nil, _, k, u, u', hedit, l, r => trivial
  | _, .cons key format fallback hidden rest, h, k, u, u', hedit, l, r => by
    rw [Fields.Faithful] at h
    rw [Fields.EditUnder] at hedit
    obtain ⟨hformat, -, hkey, hrest⟩ := h
    obtain ⟨rfl, hedit⟩ | hedit := hedit
    · refine ⟨fun a ha => ?_, rest.keeps_of_filter_eq fun key' hkey' => ?_⟩
      · obtain ⟨hl, hr, ha⟩ := fieldValue?_cons_eq_some ha
        rw [List.filter_append, hl, List.filter_cons_of_pos (by simp), hr]
        exact hformat.value?_of_edit hedit ha
      · have hne : key' ≠ key := fun heq => hkey (heq ▸ hkey')
        rw [filter_key_cons hne, filter_key_cons hne]
    · have hne : key ≠ k := fun heq => hkey (heq ▸ hedit.mem_keys)
      refine ⟨fun a ha => ?_, hrest.keeps_of_editUnder hedit l r⟩
      rw [filter_key_cons hne] at ha ⊢
      exact ha

end

end ManifestAtlas.Json
