import ManifestAtlas.Json.Format
import ManifestAtlas.Proofs.JsonSyntax

/-!
# What a tree means in a format

`Format.value?` says which value a JSON text is in a format, given its tree.  It
knows nothing of characters, positions or the order of reading: an object is the
list of its members, and a field of a record looks for the members under its key.

A record is an object, or an array of the first of its fields.  In an object a
field takes the member under its key; it must not have two, and it takes its
default when it has none.  Members with other keys do not matter.
-/

namespace ManifestAtlas.Json

/-! ## Lists of optional values -/

theorem isSome_mapM_iff {α β : Type} {f : α → Option β} (as : List α) :
    (as.mapM f).isSome ↔ ∀ a ∈ as, (f a).isSome := by
  induction as with
  | nil => simp
  | cons a as ih =>
    rw [List.forall_mem_cons, ← ih]
    cases ha : f a <;> cases has : as.mapM f <;> simp [ha, has]

theorem filterMap_of_mapM {α β : Type} {f : α → Option β} {as : List α} {bs : List β}
    (h : as.mapM f = some bs) : as.filterMap f = bs := by
  induction as generalizing bs with
  | nil => simpa using h
  | cons a as ih =>
    cases ha : f a with
    | none => simp [ha] at h
    | some b =>
      cases has : as.mapM f with
      | none => simp [ha, has] at h
      | some bs' =>
        have hbs : b :: bs' = bs := by simpa [ha, has] using h
        rw [List.filterMap_cons_some ha, ih has, hbs]

/-! ## Parts of trees -/

/-- A member by what its key means. -/
def member? (m : List Piece × Tree) : Option (String × Tree) :=
  (text? m.1).map fun key => (key, m.2)

namespace Tree

/-- The text that a tree means, if it is a string. -/
def text? : Tree → Option String
  | .string pieces => Json.text? pieces
  | _ => none

/-- The truth value that a tree means. -/
def boolean? : Tree → Option Bool
  | .boolean value => some value
  | _ => none

/-- The integer that a tree means. -/
def integer? : Tree → Option Int
  | .number n => n.integer?
  | _ => none

/-- The name that a tree means: a string, or an object with a single key without a value. -/
def name? : Tree → Option String
  | .string pieces => Json.text? pieces
  | .object [(key, .null)] => Json.text? key
  | _ => none

/-- The entries of a tree, if it is an array. -/
def entries? : Tree → Option (List Tree)
  | .array ts => some ts
  | _ => none

/-- The members of a tree by what their keys mean, if it is an object. -/
def members? : Tree → Option (List (String × Tree))
  | .object ms => ms.mapM member?
  | _ => none

/-- What a tree means where a value may be missing. -/
def optional? {α : Type} (value? : Tree → Option α) : Tree → Option (Option α)
  | .null => some none
  | t => (value? t).map some

theorem optional?_of_ne {α : Type} {value? : Tree → Option α} {t : Tree} (ht : t ≠ .null) :
    t.optional? value? = (value? t).map some := by
  cases t with
  | null => exact absurd rfl ht
  | _ => rfl

/-- What a tree means where a record is wanted, by its entries or by its members. -/
def record? {ρ : Type} (fromEntries : List Tree → Option ρ)
    (fromMembers : List (String × Tree) → Option ρ) : Tree → Option ρ
  | .array ts => fromEntries ts
  | t => t.members?.bind fromMembers

theorem record?_of_ne_array {ρ : Type} {fromEntries : List Tree → Option ρ}
    {fromMembers : List (String × Tree) → Option ρ} {t : Tree} (h : ∀ ts, t ≠ .array ts) :
    t.record? fromEntries fromMembers = t.members?.bind fromMembers := by
  cases t with
  | array ts => exact absurd rfl (h ts)
  | _ => rfl

theorem ne_array_of_members? {t : Tree} {ms : List (String × Tree)} (h : t.members? = some ms)
    (ts : List Tree) : t ≠ .array ts := by
  rintro rfl
  cases h

end Tree

/-! ## Formats -/

/-- A row with one more value in front. -/
def Row.cons {α : Type} {αs : List Type} (a : α) (row : Row αs) : Row (α :: αs) :=
  (a, row)

/-- The value of a field, given the members under its key. -/
def fieldValue? {α : Type} (fallback : Option α) (value? : Tree → Option α) :
    List (String × Tree) → Option α
  | [] => fallback
  | [m] => value? m.2
  | _ => none

/-- The value of the first field of an array, and those of the fields behind it. -/
def entryValue? {α : Type} {αs : List Type} (fallback : Option α) (value? : Tree → Option α)
    (others : List Tree → Option (Row αs)) : List Tree → Option (Row (α :: αs))
  | [] => fallback.bind fun a => (others []).map (Row.cons a)
  | t :: ts => (value? t).bind fun a => (others ts).map (Row.cons a)

mutual

/-- The value that a tree means. -/
def Format.value? : {α : Type} → Format α → Tree → Option α
  | _, .text => Tree.text?
  | _, .boolean => Tree.boolean?
  | _, .integer _ narrow? _ => fun t => t.integer?.bind narrow?
  | _, .choice names _ => fun t => t.name?.bind (Codec.named? names)
  | _, .list entry => fun t => t.entries?.bind (List.mapM entry.value?)
  | _, .optional inner => Tree.optional? inner.value?
  | _, .keyed collection entry => fun t => t.members?.bind fun ms =>
    ms.foldlM (fun s m => (entry.value? m.2).map (collection.insert s m.1)) collection.empty
  | _, .record _ fields make _ _ _ => fun t =>
    (Tree.record? fields.prefix? fields.row? t).map make

/-- The values of the fields, given the members of an object. -/
def Fields.row? : {αs : List Type} → Fields αs → List (String × Tree) → Option (Row αs)
  | _, .nil => fun _ => some ()
  | _, .cons key format fallback _ rest => fun ms =>
    (fieldValue? fallback format.value? (ms.filter (·.1 = key))).bind fun a =>
      (rest.row? (ms.filter (·.1 ≠ key))).map (Row.cons a)

/-- The values of the fields, given the entries of an array. -/
def Fields.prefix? : {αs : List Type} → Fields αs → List Tree → Option (Row αs)
  | _, .nil => fun ts => if ts.isEmpty then some () else none
  | _, .cons _ format fallback _ rest => entryValue? fallback format.value? rest.prefix?

end

theorem Fields.row?_cons {α : Type} {αs : List Type} (key : String) (format : Format α)
    (fallback : Option α) (hidden : α → Bool) (rest : Fields αs) (ms : List (String × Tree)) :
    (Fields.cons key format fallback hidden rest).row? ms =
      (fieldValue? fallback format.value? (ms.filter (·.1 = key))).bind fun a =>
        (rest.row? (ms.filter (·.1 ≠ key))).map (Row.cons a) := by
  rw [Fields.row?]

/-- Members under keys that no field has do not matter. -/
theorem Fields.row?_filter {p : String → Bool} : {αs : List Type} → (fields : Fields αs) →
    (∀ key ∈ fields.keys, p key = true) → (ms : List (String × Tree)) →
      fields.row? (ms.filter fun m => p m.1) = fields.row? ms
  | _, .nil, _, ms => by
    rw [Fields.row?]
  | _, .cons key format fallback hidden rest, hp, ms => by
    obtain ⟨hkey, hrest⟩ := List.forall_mem_cons.1 hp
    have hmine : (ms.filter fun m => p m.1).filter (·.1 = key) = ms.filter (·.1 = key) := by
      rw [List.filter_filter]
      refine List.filter_congr fun m _ => ?_
      by_cases hm : m.1 = key <;> simp [hm, hkey]
    have hothers : (ms.filter fun m => p m.1).filter (·.1 ≠ key) =
        (ms.filter (·.1 ≠ key)).filter fun m => p m.1 := by
      rw [List.filter_filter, List.filter_filter]
      exact List.filter_congr fun m _ => Bool.and_comm _ _
    rw [row?_cons, row?_cons, hmine, hothers, row?_filter rest hrest]

/-- Where keys differ, every field takes its value from the same members. -/
theorem Fields.row?_cons_of_notMem {α : Type} {αs : List Type} {key : String} {format : Format α}
    {fallback : Option α} {hidden : α → Bool} {rest : Fields αs} (hkey : key ∉ rest.keys)
    (ms : List (String × Tree)) :
    (Fields.cons key format fallback hidden rest).row? ms =
      (fieldValue? fallback format.value? (ms.filter (·.1 = key))).bind fun a =>
        (rest.row? ms).map (Row.cons a) := by
  have hrest := @Fields.row?_filter (fun k => k ≠ key) _ rest
    (fun k hk => by simpa using fun heq : k = key => hkey (heq ▸ hk)) ms
  rw [row?_cons, ← hrest]

theorem Fields.row?_cons_eq_some_iff {α : Type} {αs : List Type} {key : String} {format : Format α}
    {fallback : Option α} {hidden : α → Bool} {rest : Fields αs} (hkey : key ∉ rest.keys)
    {ms : List (String × Tree)} {row : Row (α :: αs)} :
    (Fields.cons key format fallback hidden rest).row? ms = some row ↔
      ∃ a more, fieldValue? fallback format.value? (ms.filter (·.1 = key)) = some a ∧
        rest.row? ms = some more ∧ Row.cons a more = row := by
  simp only [Fields.row?_cons_of_notMem hkey, Option.bind_eq_some_iff, Option.map_eq_some_iff,
    exists_and_left]

theorem Fields.prefix?_nil (ts : List Tree) :
    Fields.nil.prefix? ts = if ts.isEmpty then some () else none := by
  rw [Fields.prefix?]
  rfl

theorem Fields.prefix?_cons {α : Type} {αs : List Type} (key : String) (format : Format α)
    (fallback : Option α) (hidden : α → Bool) (rest : Fields αs) (t : Tree) (ts : List Tree) :
    (Fields.cons key format fallback hidden rest).prefix? (t :: ts) =
      (format.value? t).bind fun a => (rest.prefix? ts).map (Row.cons a) := by
  rw [Fields.prefix?]
  rfl

end ManifestAtlas.Json
