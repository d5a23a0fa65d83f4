import ManifestAtlas.Proofs.FormatEditing
import ManifestAtlas.Proofs.FormatFitting
import ManifestAtlas.Proofs.ManifestRoundTrip

/-!
# Which manifests are accepted

Decoding a manifest follows its schema and nothing else: a text is accepted when
each part of it is of the kind that the schema asks for in its place, and then
every part of the manifest is what the text says.

Main statement: `decode_follows_schema`.
-/

namespace ManifestAtlas

open Json

/-! ## The glossary -/

theorem lookup_cons_eq {β : Type} (key k : String) (b : β) (entries : List (String × β)) :
    ((k, b) :: entries).lookup key = if key = k then some b else entries.lookup key := by
  rw [List.lookup_cons]
  by_cases h : key = k
  · simp [h]
  · rw [if_neg h, beq_false_of_ne h]

theorem lookup_put (key k : String) (entry : GlossaryEntry)
    (entries : List (String × GlossaryEntry)) :
    (put k entry entries).lookup key = if key = k then some entry else entries.lookup key := by
  induction entries with
  | nil => exact lookup_cons_eq key k entry []
  | cons other entries ih =>
    obtain ⟨o, b⟩ := other
    rw [put]
    split
    · exact lookup_cons_eq key k entry _
    · split
      · rename_i hlt
        have hne : o ≠ k := fun h => String.lt_irrefl k (h ▸ hlt)
        rw [lookup_cons_eq, lookup_cons_eq, ih]
        by_cases hkey : key = k
        · simp [hkey, hne.symm]
        · simp [hkey]
      · rename_i hle hge
        obtain rfl : o = k := String.le_antisymm (String.not_lt.1 hle) (String.not_lt.1 hge)
        rw [lookup_cons_eq, lookup_cons_eq]
        by_cases hkey : key = o <;> simp [hkey]

/-- A glossary that is put together from members has the last one under each key. -/
theorem lookup_foldlM_insert {value? : Tree → Option GlossaryEntry} {named : List (String × Tree)}
    {start g : Glossary}
    (h : named.foldlM (fun s m => (value? m.2).map (s.insert m.1)) start = some g)
    (key : String) : g.entries.lookup key =
      ((named.filter (·.1 = key)).getLast?.bind fun m => value? m.2).or
        (start.entries.lookup key) := by
  induction named generalizing start with
  | nil =>
    obtain rfl : start = g := by simpa using h
    rfl
  | cons m named ih =>
    cases hm : value? m.2 with
    | none => simp [hm] at h
    | some entry =>
      have hrest : named.foldlM (fun s m => (value? m.2).map (s.insert m.1))
          (start.insert m.1 entry) = some g := by simpa [hm] using h
      have hsome : ∀ n ∈ named, (value? n.2).isSome :=
        (isSome_foldlM_iff (fun s n => Glossary.insert s n.1) named (start.insert m.1 entry)).1
          (by rw [hrest]; rfl)
      have hstart : (start.insert m.1 entry).entries.lookup key =
          if key = m.1 then some entry else start.entries.lookup key := lookup_put key m.1 entry _
      rw [ih hrest, hstart]
      -- A later member with the key replaces this one, and this one what was there at the start.
      cases hlast : (named.filter (·.1 = key)).getLast? with
      | none =>
        have hnil := List.getLast?_eq_none_iff.1 hlast
        by_cases hkey : m.1 = key
        · simp [hkey, hnil, hm]
        · simp [hkey, Ne.symm hkey, hnil]
      | some n =>
        have hn : n ∈ named := (List.mem_filter.1 (List.mem_of_getLast? hlast)).1
        obtain ⟨b, hb⟩ := Option.isSome_iff_exists.1 (hsome n hn)
        by_cases hkey : m.1 = key
        · simp [hkey, hlast, hb, List.getLast?_cons]
        · simp [hkey, hlast, hb]

/-- The glossary of a manifest is what the member under its key means. -/
theorem value?_glossary {named : List (String × Tree)} {m : Manifest} {u : Tree}
    (h : Schema.manifest.fields.Given named (Schema.manifest.parts m))
    (hu : ("glossary", u) ∈ named) : Schema.glossary.value? u = some m.glossary := by
  obtain ⟨-, -, -, -, ⟨u', hmine, hvalue⟩ | ⟨hnone, -⟩, -⟩ := h
  · have hmem : ("glossary", u) ∈ named.filter (·.1 = "glossary") :=
      List.mem_filter.2 ⟨hu, by simp⟩
    rw [hmine, List.mem_singleton, Prod.mk.injEq] at hmem
    rw [hmem.2, hvalue]
  · exact absurd (List.mem_map_of_mem hu) hnone

/-- A glossary has, under each key, what the last member under that key means. -/
theorem lookup_glossary {u : Tree} {entries : List (String × Tree)} {g : Glossary}
    (h : Schema.glossary.value? u = some g) (hentries : u.members? = some entries)
    (key : String) : g.entries.lookup key = (entries.filter (·.1 = key)).getLast?.bind
      fun e => Schema.glossaryEntry.format.value? e.2 := by
  rw [Schema.glossary, Format.value?] at h
  simp only [hentries, Option.bind_some] at h
  rw [lookup_foldlM_insert h key]
  exact Option.or_none

/-! ## Sample texts -/

/-- A string that is written without escapes. -/
def plainPieces (s : String) : List Piece :=
  s.toList.map .plain

@[simp] theorem text?_plainPieces (s : String) : Json.text? (plainPieces s) = some s := by
  have hmeaning (cs : List Char) : unescape? (cs.map .plain) = some cs := by
    induction cs with
    | nil => rfl
    | cons c cs ih => rw [List.map_cons, unescape?, ih]; rfl
  simp [Json.text?, plainPieces, hmeaning]

/-- A text is one of a tree when it is the one without space. -/
theorem isTextOf_of_compact {t : Tree} {text : String} (h : t.isWellFormed)
    (htext : text.toList = t.compact) : t.IsTextOf text.toList :=
  htext ▸ (Tree.spelled_compact h).isTextOf

/-- A project with nothing but a name. -/
def projectMember : List Piece × Tree :=
  (plainPieces "project", .object [(plainPieces "name", .string (plainPieces "x"))])

/-- A member under a key that no field of a manifest has. -/
def noteMember : List Piece × Tree :=
  (plainPieces "note", .number ⟨false, [1], some [5], none⟩)

/-- An entry of the glossary, under a key. -/
def termMember (key term : String) : List Piece × Tree :=
  (plainPieces key, .object [(plainPieces "term", .string (plainPieces term))])

/-- A glossary with two entries under one key. -/
def glossaryMember : List Piece × Tree :=
  (plainPieces "glossary", .object [termMember "k" "a", termMember "k" "b"])

/-- A manifest with a note and a glossary. -/
def notedTree : Tree :=
  .object ([projectMember] ++ noteMember :: [glossaryMember])

/-- A manifest with a glossary. -/
def glossaryTree : Tree :=
  .object ([projectMember] ++ [glossaryMember])

def notedText : String :=
  "\x7b\"project\":\x7b\"name\":\"x\"\x7d,\"note\":1.5," ++
    "\"glossary\":\x7b\"k\":\x7b\"term\":\"a\"\x7d,\"k\":\x7b\"term\":\"b\"\x7d\x7d\x7d"

def glossaryText : String :=
  "\x7b\"project\":\x7b\"name\":\"x\"\x7d," ++
    "\"glossary\":\x7b\"k\":\x7b\"term\":\"a\"\x7d,\"k\":\x7b\"term\":\"b\"\x7d\x7d\x7d"

/-- The manifest that both texts decode to. -/
def glossaryManifest : Manifest where
  project := ⟨"x", none, none, none, none⟩
  modules := []
  entities := []
  dataModels := []
  glossary := Glossary.empty.insert "k" ⟨"b", ""⟩
  changelog := []

theorem members?_notedTree : notedTree.members? = some [("project", projectMember.2),
    ("note", noteMember.2), ("glossary", glossaryMember.2)] := by
  simp [notedTree, Tree.members?, member?, projectMember, noteMember, glossaryMember]

theorem noRow_notedTree : Schema.manifest.format.Everywhere Format.NoRow notedTree := by
  simp [-Prod.forall, notedTree, projectMember, noteMember, glossaryMember, termMember,
    Tree.members?, member?, RecordFormat.format, Format.Everywhere, Fields.Everywhere, Format.NoRow,
    Schema.manifest, Schema.projectMeta, Schema.glossary, Schema.glossaryEntry, Fields.required,
    Fields.defaulted, Fields.listed, Fields.optional]

theorem edit_notedTree : Schema.manifest.format.Edit notedTree glossaryTree := by
  have hunknown : "note" ∉ Schema.manifest.fields.keys := by decide
  rw [RecordFormat.format, Format.Edit]
  exact .inl ⟨_, _, rfl, rfl, .remove (text?_plainPieces "note") hunknown⟩

/-- A member whose key means nothing: half of a pair of surrogates. -/
def loneMember : List Piece × Tree :=
  ([.unit 'd' '8' '0' '0'], .number ⟨false, [1], none, none⟩)

def projectText : String :=
  "\x7b\"project\":\x7b\"name\":\"x\"\x7d\x7d"

def loneText : String :=
  "\x7b\"project\":\x7b\"name\":\"x\"\x7d,\"\\ud800\":1\x7d"

/-- A manifest with a place in the code at line zero, with or without a sign. -/
def linedTree (negative : Bool) : Tree :=
  .object [projectMember, (plainPieces "modules", .array [.object [
    (plainPieces "id", .string (plainPieces "m")), (plainPieces "name", .string (plainPieces "M")),
    (plainPieces "codeRefs", .array [.object [(plainPieces "file", .string (plainPieces "f")),
      (plainPieces "line", .number ⟨negative, [0], none, none⟩)]])]])]

def zeroText : String :=
  "\x7b\"project\":\x7b\"name\":\"x\"\x7d,\"modules\":[\x7b\"id\":\"m\",\"name\":\"M\"," ++
    "\"codeRefs\":[\x7b\"file\":\"f\",\"line\":0\x7d]\x7d]\x7d"

def signedText : String :=
  "\x7b\"project\":\x7b\"name\":\"x\"\x7d,\"modules\":[\x7b\"id\":\"m\",\"name\":\"M\"," ++
    "\"codeRefs\":[\x7b\"file\":\"f\",\"line\":-0\x7d]\x7d]\x7d"

/-! ## The schema -/

theorem Schema.faithful_format : Schema.manifest.format.Faithful :=
  Schema.manifest.faithful_format.2 Schema.faithful_manifest

theorem Manifest.decode_eq_ok_iff_value? {text : String} {t : Tree} (h : t.IsTextOf text.toList)
    (m : Manifest) :
    Manifest.decode text = .ok m ↔ Schema.manifest.format.value? t = some m :=
  Manifest.decode_eq_ok_iff.trans (Format.decode_eq_ok_iff h)

/-- A text decodes to some manifest when its tree means one. -/
theorem exists_decode_iff {text : String} {t : Tree} (h : t.IsTextOf text.toList) :
    (∃ m, Manifest.decode text = .ok m) ↔ (Schema.manifest.format.value? t).isSome := by
  simp only [Manifest.decode_eq_ok_iff_value? h, Option.isSome_iff_exists]

/-- A text of a tree decodes to the manifest that the tree means.  Unless a record stands as an
array in it, it decodes exactly when all its parts are of the kinds that the schema asks for, so
that a single other part anywhere spoils it.  A decoded manifest has what the members of the text
say, and its glossary has the last entry under each key.  Other texts with the same members in
another order, with other members under keys that no field has, or without a member that says what
its field says without it, decode to the same manifest. -/
theorem decode_follows_schema {text : String} {t : Tree} (h : t.IsTextOf text.toList) :
    (∀ m, Manifest.decode text = .ok m ↔ Schema.manifest.format.value? t = some m) ∧
    (Schema.manifest.format.Everywhere Format.NoRow t →
      ((∃ m, Manifest.decode text = .ok m) ↔ Schema.manifest.format.Everywhere Format.Fits t)) ∧
    (∀ m named, Manifest.decode text = .ok m → t.members? = some named →
      Schema.manifest.fields.Given named (Schema.manifest.parts m) ∧
      ∀ u entries, ("glossary", u) ∈ named → u.members? = some entries → ∀ key,
        m.glossary.entries.lookup key = (entries.filter (·.1 = key)).getLast?.bind
          fun e => Schema.glossaryEntry.format.value? e.2) ∧
    ∀ text' t', t'.IsTextOf text'.toList → Schema.manifest.format.Edit t t' →
      ∀ m, Manifest.decode text = .ok m → Manifest.decode text' = .ok m := by
  have hdecode := Manifest.decode_eq_ok_iff_value? h
  refine ⟨hdecode, fun hrow => ?_, fun m named hm hnamed => ?_, fun text' t' h' hedit m hm => ?_⟩
  · exact (exists_decode_iff h).trans (Format.isSome_value?_iff Schema.faithful_format hrow)
  · have hgiven : Schema.manifest.fields.Given named (Schema.manifest.parts m) :=
      RecordFormat.given_of_value? Schema.faithful_manifest hnamed ((hdecode m).1 hm)
    exact ⟨hgiven, fun u entries hu => lookup_glossary (value?_glossary hgiven hu)⟩
  · have hvalue := Schema.faithful_format.value?_of_edit hedit ((hdecode m).1 hm)
    exact (Manifest.decode_eq_ok_iff_value? h' m).2 hvalue

/-- The note does not matter, and the second entry of the glossary counts. -/
theorem notedText_follows_schema :
    notedTree.IsTextOf notedText.toList ∧
    Schema.manifest.format.Everywhere Format.NoRow notedTree ∧
    Schema.manifest.format.Everywhere Format.Fits notedTree ∧
    Manifest.decode notedText = .ok glossaryManifest ∧
    Manifest.decode glossaryText = .ok glossaryManifest ∧
    glossaryManifest.glossary.entries.lookup "k" =
      Schema.glossaryEntry.format.value? (termMember "k" "b").2 := by
  have htext : notedTree.IsTextOf notedText.toList :=
    isTextOf_of_compact (by decide +kernel) (by decide +kernel)
  have htext' : glossaryTree.IsTextOf glossaryText.toList :=
    isTextOf_of_compact (by decide +kernel) (by decide +kernel)
  obtain ⟨hvalue, hfits, hgiven, hedit⟩ := decode_follows_schema htext
  have hdecode : Manifest.decode notedText = .ok glossaryManifest :=
    (hvalue glossaryManifest).2 (by decide +kernel)
  obtain ⟨-, hlast⟩ := hgiven glossaryManifest _ hdecode members?_notedTree
  have hentries : glossaryMember.2.members? =
      some [("k", (termMember "k" "a").2), ("k", (termMember "k" "b").2)] := by
    simp [glossaryMember, termMember, Tree.members?, member?]
  refine ⟨htext, noRow_notedTree, (hfits noRow_notedTree).1 ⟨_, hdecode⟩, hdecode,
    hedit glossaryText glossaryTree htext' edit_notedTree _ hdecode, ?_⟩
  rw [hlast glossaryMember.2 _ (by simp) hentries]
  rfl

/-- A text may keep to the grammar and be refused all the same, for a key that means nothing where
any other key does not matter, or for a zero with a sign where a zero without one is taken. -/
theorem decode_refuses_lone_key_and_signed_zero :
    (Tree.object [projectMember]).IsTextOf projectText.toList ∧
    (∃ m, Manifest.decode projectText = .ok m) ∧
    (Tree.object [projectMember, loneMember]).IsTextOf loneText.toList ∧
    (¬∃ m, Manifest.decode loneText = .ok m) ∧
    (linedTree false).IsTextOf zeroText.toList ∧
    (∃ m, Manifest.decode zeroText = .ok m) ∧
    (linedTree true).IsTextOf signedText.toList ∧
    ¬∃ m, Manifest.decode signedText = .ok m := by
  have hproject : (Tree.object [projectMember]).IsTextOf projectText.toList :=
    isTextOf_of_compact (by decide +kernel) (by decide +kernel)
  have hlone : (Tree.object [projectMember, loneMember]).IsTextOf loneText.toList :=
    isTextOf_of_compact (by decide +kernel) (by decide +kernel)
  have hzero : (linedTree false).IsTextOf zeroText.toList :=
    isTextOf_of_compact (by decide +kernel) (by decide +kernel)
  have hsigned : (linedTree true).IsTextOf signedText.toList :=
    isTextOf_of_compact (by decide +kernel) (by decide +kernel)
  rw [exists_decode_iff hproject, exists_decode_iff hlone, exists_decode_iff hzero,
    exists_decode_iff hsigned]
  exact ⟨hproject, by decide +kernel, hlone, by decide +kernel, hzero, by decide +kernel, hsigned,
    by decide +kernel⟩

end ManifestAtlas
