import ManifestAtlas.Manifest.Index
import ManifestAtlas.Proofs.FormatWriting
import ManifestAtlas.Proofs.JsonValues
import ManifestAtlas.Proofs.ManifestAcceptance

/-!
# The shapes of an index

An index lists its entries in an array, bare or under the key `projects` of an
object (`Lists`).  An entry describes a project in one of three ways
(`Describes`): by its identifier, by the members of an object, or by the same
details in a fixed order.

The decoder accepts a text exactly if the value in it lists entries that
describe projects, and gives these projects in order (`decode_eq_ok_iff`).  What
matters of a text is thus only what it lists: putting the array under
`projects` does not change the result, nor does writing an identifier as an
object (`decode_eq_of_rewritten`).  The projects can be written as an array of
objects and are read back from it (`exists_holdsValue_printProjects`).
-/

namespace ManifestAtlas

open Json

/-! ## What the values of an index say -/

/-- What an optional detail says: a string something, `null` or no value nothing. -/
inductive Says : Option Value → Option String → Prop
  | missing : Says none none
  | null : Says (some .null) none
  | text (s : String) : Says (some (.string s)) (some s)

/-- The members of an object that describe a project. -/
structure MembersDescribe (members : List (String × Value)) (project : ProjectSummary) : Prop where
  id : valuesAt "id" members = [.string project.id]
  name : ∃ v : Option Value, valuesAt "name" members = v.toList ∧ Says v project.name
  description : ∃ v : Option Value,
    valuesAt "description" members = v.toList ∧ Says v project.description
  manifest : ∃ v : Option Value, valuesAt "manifest" members = v.toList ∧ Says v project.manifest

/-- The project that an entry of an index describes. -/
inductive Describes : Value → ProjectSummary → Prop
  | id (id : String) : Describes (.string id) ⟨id, none, none, none⟩
  | members {members : List (String × Value)} {project : ProjectSummary}
      (h : MembersDescribe members project) : Describes (.object members) project
  | details (id : String) (rest : List Value) {name description manifest : Option String}
      (hlength : rest.length ≤ 3) (hname : Says rest[0]? name)
      (hdescription : Says rest[1]? description) (hmanifest : Says rest[2]? manifest) :
      Describes (.array (.string id :: rest)) ⟨id, name, description, manifest⟩

/-- The entries that an index lists. -/
inductive Lists : Value → List Value → Prop
  | bare (entries : List Value) : Lists (.array entries) entries
  | wrapped {members : List (String × Value)} {entries : List Value}
      (h : valuesAt "projects" members = [.array entries]) : Lists (.object members) entries

/-- An entry written in the same way, or an identifier written as an object. -/
inductive Rewritten : Value → Value → Prop
  | same (v : Value) : Rewritten v v
  | id (id : String) : Rewritten (.string id) (.object [("id", .string id)])

/-! ## The decoder finds what they say -/

theorem text?_eq_some_iff {v : Value} {s : String} :
    ManifestAtlas.text? v = some s ↔ v = .string s := by
  cases v <;> simp [ManifestAtlas.text?]

theorem optionalText?_eq_some_iff {v : Value} {detail : Option String} :
    optionalText? v = some detail ↔ Says (some v) detail := by
  constructor
  · intro h
    cases v with
    | null =>
      obtain rfl := Option.some.inj h
      exact .null
    | string s =>
      obtain rfl := Option.some.inj h
      exact .text s
    | _ => simp [optionalText?, ManifestAtlas.text?] at h
  · intro h
    cases h <;> rfl

theorem optionalMember?_eq_some_iff {key : String} {members : List (String × Value)}
    {detail : Option String} : optionalMember? key members = some detail ↔
      ∃ v : Option Value, valuesAt key members = v.toList ∧ Says v detail := by
  unfold optionalMember?
  constructor
  · intro h
    split at h
    · next hvalues =>
      obtain rfl := Option.some.inj h
      exact ⟨none, hvalues, .missing⟩
    · next v hvalues => exact ⟨some v, hvalues, optionalText?_eq_some_iff.1 h⟩
    · cases h
  · rintro ⟨v, hvalues, hsays⟩
    cases v with
    | none =>
      cases hsays
      simp [hvalues]
    | some v => simpa [hvalues] using optionalText?_eq_some_iff.2 hsays

theorem summaryOfMembers?_eq_some_iff {members : List (String × Value)}
    {project : ProjectSummary} :
    summaryOfMembers? members = some project ↔ MembersDescribe members project := by
  unfold summaryOfMembers?
  constructor
  · intro h
    split at h
    · next id hid =>
      simp only [Option.bind_eq_bind, Option.bind_eq_some_iff, Option.some_inj] at h
      obtain ⟨_, hs, _, hname, _, hdescription, _, hmanifest, rfl⟩ := h
      rw [text?_eq_some_iff.1 hs] at hid
      exact ⟨hid, optionalMember?_eq_some_iff.1 hname, optionalMember?_eq_some_iff.1 hdescription,
        optionalMember?_eq_some_iff.1 hmanifest⟩
    · cases h
  · rintro ⟨hid, hname, hdescription, hmanifest⟩
    simp [hid, ManifestAtlas.text?, optionalMember?_eq_some_iff.2 hname,
      optionalMember?_eq_some_iff.2 hdescription, optionalMember?_eq_some_iff.2 hmanifest]

theorem summaryOfList?_eq_some_iff {details : List Value} {project : ProjectSummary} :
    summaryOfList? details = some project ↔ Describes (.array details) project := by
  constructor
  · intro h
    unfold summaryOfList? at h
    split at h
    -- One case for each number of details; those that are not given are missing.
    · simp only [Option.bind_eq_bind, Option.bind_eq_some_iff, Option.some_inj] at h
      obtain ⟨_, hid, rfl⟩ := h
      obtain rfl := text?_eq_some_iff.1 hid
      exact .details _ [] (by simp) .missing .missing .missing
    · simp only [Option.bind_eq_bind, Option.bind_eq_some_iff, Option.some_inj] at h
      obtain ⟨_, hid, _, hname, rfl⟩ := h
      obtain rfl := text?_eq_some_iff.1 hid
      exact .details _ [_] (by simp) (optionalText?_eq_some_iff.1 hname) .missing .missing
    · simp only [Option.bind_eq_bind, Option.bind_eq_some_iff, Option.some_inj] at h
      obtain ⟨_, hid, _, hname, _, hdescription, rfl⟩ := h
      obtain rfl := text?_eq_some_iff.1 hid
      exact .details _ [_, _] (by simp) (optionalText?_eq_some_iff.1 hname)
        (optionalText?_eq_some_iff.1 hdescription) .missing
    · simp only [Option.bind_eq_bind, Option.bind_eq_some_iff, Option.some_inj] at h
      obtain ⟨_, hid, _, hname, _, hdescription, _, hmanifest, rfl⟩ := h
      obtain rfl := text?_eq_some_iff.1 hid
      exact .details _ [_, _, _] (by simp) (optionalText?_eq_some_iff.1 hname)
        (optionalText?_eq_some_iff.1 hdescription) (optionalText?_eq_some_iff.1 hmanifest)
    · cases h
  · intro h
    cases h with
    | details id rest hlength hname hdescription hmanifest =>
      rcases rest with _ | ⟨v, _ | ⟨w, _ | ⟨x, _ | ⟨y, rest⟩⟩⟩⟩
      · cases hname
        cases hdescription
        cases hmanifest
        rfl
      · cases hdescription
        cases hmanifest
        simp [summaryOfList?, ManifestAtlas.text?, optionalText?_eq_some_iff.2 hname]
      · cases hmanifest
        simp [summaryOfList?, ManifestAtlas.text?, optionalText?_eq_some_iff.2 hname,
          optionalText?_eq_some_iff.2 hdescription]
      · simp [summaryOfList?, ManifestAtlas.text?, optionalText?_eq_some_iff.2 hname,
          optionalText?_eq_some_iff.2 hdescription, optionalText?_eq_some_iff.2 hmanifest]
      · simp only [List.length_cons] at hlength
        omega

/-- The decoder finds the project that an entry describes. -/
theorem summary?_eq_some_iff {v : Value} {project : ProjectSummary} :
    summary? v = some project ↔ Describes v project := by
  constructor
  · intro h
    cases v with
    | string id =>
      obtain rfl := Option.some.inj h
      exact .id id
    | object members => exact .members (summaryOfMembers?_eq_some_iff.1 h)
    | array details => exact summaryOfList?_eq_some_iff.1 h
    | _ => cases h
  · intro h
    cases v with
    | string id =>
      cases h
      rfl
    | object members =>
      cases h with
      | members h => exact summaryOfMembers?_eq_some_iff.2 h
    | array details => exact summaryOfList?_eq_some_iff.2 h
    | _ => cases h

theorem Lists.projects?_eq {v : Value} {entries : List Value} (h : Lists v entries) :
    projects? v = entries.mapM summary? := by
  cases h with
  | bare => rfl
  | wrapped hvalues => simp [projects?, hvalues, summaries?]

/-- The decoder finds the projects that the listed entries describe, in order. -/
theorem projects?_eq_some_iff {v : Value} {projects : List ProjectSummary} :
    projects? v = some projects ↔
      ∃ entries, Lists v entries ∧ List.Forall₂ Describes entries projects := by
  have hentries : ∀ entries : List Value, entries.mapM summary? = some projects ↔
      List.Forall₂ Describes entries projects := fun entries => by
    simp only [mapM_eq_some_iff, summary?_eq_some_iff]
  constructor
  · intro h
    cases v with
    | array entries => exact ⟨entries, .bare entries, (hentries entries).1 h⟩
    | object members =>
      simp only [projects?] at h
      split at h
      · next value hvalues =>
        cases value with
        | array entries => exact ⟨entries, .wrapped hvalues, (hentries entries).1 h⟩
        | _ => cases h
      · cases h
    | _ => cases h
  · rintro ⟨entries, hlists, hdescribe⟩
    rw [hlists.projects?_eq]
    exact (hentries entries).2 hdescribe

/-- Entries that are written in another way are found to be the same. -/
theorem summary?_eq_of_rewritten {v w : Value} (h : Rewritten v w) : summary? w = summary? v := by
  cases h <;> rfl

/-! ## Texts of an index -/

section

variable {text : String} {v : Value}

/-- Decoding a text that holds a value finds what the value says. -/
theorem decode_of_holdsValue (h : HoldsValue maxDepth text v) :
    ProjectIndex.decode text = match projects? v with
      | some projects => .ok ⟨projects⟩
      | none => .error .shape := by
  obtain ⟨r, hvalue, rfl, hdone⟩ := h.exists_ok_value
  rw [ProjectIndex.decode, hvalue]
  cases hprojects : projects? r.value <;> simp [hprojects, hdone]

theorem decode_eq_ok_iff (h : HoldsValue maxDepth text v) {projects : List ProjectSummary} :
    ProjectIndex.decode text = .ok ⟨projects⟩ ↔
      ∃ entries, Lists v entries ∧ List.Forall₂ Describes entries projects := by
  rw [decode_of_holdsValue h, ← projects?_eq_some_iff]
  cases projects? v <;> simp

/-- Texts that list the same entries, perhaps written in another way, decode alike. -/
theorem decode_eq_of_rewritten (h : HoldsValue maxDepth text v) {other : String} {w : Value}
    (hother : HoldsValue maxDepth other w) {entries rewritten : List Value}
    (hlists : Lists v entries) (hlisted : Lists w rewritten)
    (hrewritten : List.Forall₂ Rewritten entries rewritten) :
    ProjectIndex.decode other = ProjectIndex.decode text := by
  have hsame : rewritten.mapM summary? = entries.mapM summary? := by
    clear hlists hlisted
    induction hrewritten with
    | nil => rfl
    | cons hentry _ ih => simp only [List.mapM_cons, summary?_eq_of_rewritten hentry, ih]
  rw [decode_of_holdsValue h, decode_of_holdsValue hother, hlists.projects?_eq,
    hlisted.projects?_eq, hsame]

/-- The text of an object that holds a text under `projects`. -/
def wrappedText (text : String) : String :=
  "\x7b\"projects\": " ++ text ++ "\x7d"

/-- A text under `projects` holds the value there, with one more bracket open. -/
theorem holdsValue_wrappedText {depth : Nat} (h : HoldsValue depth text v) :
    HoldsValue (depth + 1) (wrappedText text) (.object [("projects", v)]) := by
  obtain ⟨t, ⟨before, body, after, hbefore, hbody, hafter, htext⟩, hv⟩ := h
  refine ⟨.object [(plainPieces "projects", t)], Tree.Spelled.isTextOf
    ⟨_, ⟨[], '"' :: ("projects".toList ++ ['"']), ':' :: ' ' :: before, body, after ++ ['\x7d'],
      isSpace_nil, ⟨?_, ?_⟩, ⟨[], ' ' :: before, isSpace_nil, ?_, rfl⟩, hbody,
      ⟨after, hafter, rfl⟩, rfl⟩, ?_⟩, ?_⟩
  · decide
  · rfl
  · exact List.forall_mem_cons.2 ⟨rfl, hbefore⟩
  · simp [wrappedText, htext]
  · simp [Tree.value?, member?, hv]

end

/-! ## Writing projects -/

/-- Members that are strings are written as a text that means them. -/
theorem exists_printMembers_of_strings (depth : Nat) (members : List (String × Value))
    (h : ∀ m ∈ members, ∃ s, m.2 = .string s) (first : Bool) : ∃ ms named,
      MembersSpelled first ms (printMembers first members ++ ['\x7d']) ∧
      ms.mapM member? = some named ∧
      named.mapM (fun m => (Tree.value? depth m.2).map (Prod.mk m.1)) = some members := by
  induction members generalizing first with
  | nil => exact ⟨[], [], ⟨[], isSpace_nil, rfl⟩, rfl, rfl⟩
  | cons m members ih =>
    obtain ⟨⟨s, hs⟩, hmembers⟩ := List.forall_mem_cons.1 h
    obtain ⟨ms, named, hspelled, hnamed, hvalues⟩ := ih hmembers false
    obtain ⟨pieces, hpieces, hmeaning⟩ := exists_printString s
    have hstring : (Tree.string pieces).Spelled m.2.print := hs ▸ hpieces
    obtain ⟨key, hkey, hcons⟩ := exists_printMembers_cons hstring hspelled first m.1
    have hvalue : (Tree.string pieces).value? depth = some m.2 := by
      cases depth <;> simp [Tree.value?, Tree.scalar?, hmeaning, hs]
    exact ⟨_, (m.1, .string pieces) :: named, hcons, by simp [member?, hkey, hnamed],
      by simp [hvalue, hvalues]⟩

theorem textMember_strings {key : String} {text : Option String} :
    ∀ m ∈ textMember key text, ∃ s, m.2 = .string s := by
  intro m hm
  obtain ⟨s, -, rfl⟩ := List.mem_map.1 hm
  exact ⟨s, rfl⟩

/-- A project is written as a text that means it. -/
theorem ProjectSummary.exists_print (depth : Nat) (project : ProjectSummary) :
    ∃ t : Tree, t.Spelled project.value.print ∧ t.value? (depth + 1) = some project.value := by
  obtain ⟨ms, named, hspelled, hnamed, hvalues⟩ := exists_printMembers_of_strings depth
    (("id", .string project.id) :: (textMember "name" project.name ++
      textMember "description" project.description ++ textMember "manifest" project.manifest))
    (by
      simp only [List.forall_mem_cons, List.forall_mem_append]
      exact ⟨⟨_, rfl⟩, ⟨textMember_strings, textMember_strings⟩, textMember_strings⟩) true
  refine ⟨.object ms, ⟨_, hspelled, rfl⟩, ?_⟩
  simp [Tree.value?, hnamed, hvalues, ProjectSummary.value]

/-- An object describes the project it was written for. -/
theorem ProjectSummary.describes_value (project : ProjectSummary) :
    Describes project.value project := by
  have hsays : ∀ detail : Option String,
      ∃ v : Option Value, detail.toList.map Value.string = v.toList ∧ Says v detail
    | none => ⟨none, rfl, .missing⟩
    | some s => ⟨some (.string s), rfl, .text s⟩
  obtain ⟨id, name, description, manifest⟩ := project
  refine .members ⟨?_, ?_, ?_, ?_⟩
  · cases name <;> cases description <;> cases manifest <;> rfl
  · convert hsays name using 3
    cases name <;> cases description <;> cases manifest <;> rfl
  · convert hsays description using 3
    cases name <;> cases description <;> cases manifest <;> rfl
  · convert hsays manifest using 3
    cases name <;> cases description <;> cases manifest <;> rfl

/-- The text of an array of projects. -/
def printProjects (projects : List ProjectSummary) : String :=
  String.ofList (Value.array (projects.map ProjectSummary.value)).print

/-- What is written for projects holds an array of entries that describe them. -/
theorem exists_holdsValue_printProjects (projects : List ProjectSummary) :
    ∃ entries, HoldsValue maxDepth (printProjects projects) (.array entries) ∧
      List.Forall₂ Describes entries projects := by
  obtain ⟨ts, hspelled, hprojects⟩ := exists_printEntries
    (fun project => by
      obtain ⟨t, ht, hvalue⟩ := project.exists_print 125
      refine ⟨t, ht, ?_⟩
      show (t.value? 126).bind summary? = some project
      rw [hvalue]
      exact summary?_eq_some_iff.2 project.describes_value) projects true
  obtain ⟨entries, hentries, hdescribed⟩ := exists_mapM_of_bind hprojects
  refine ⟨entries, ⟨.array ts, Tree.Spelled.isTextOf ⟨_, hspelled, ?_⟩, ?_⟩, ?_⟩
  · simp [printProjects, Value.print]
  · exact Option.map_eq_some_iff.2 ⟨entries, hentries, rfl⟩
  · simpa only [mapM_eq_some_iff, summary?_eq_some_iff] using hdescribed

/-! ## Sample texts -/

/-- Three projects, each in another shape. -/
def sampleEntries (first : Value) : List Value :=
  [first, .object [("id", .string "crm"), ("name", .null), ("port", .number (.integer 8))],
    .array [.string "erp", .string "ERP"]]

def sampleEntryTrees (first : Tree) : List Tree :=
  [first, .object [(plainPieces "id", .string (plainPieces "crm")), (plainPieces "name", .null),
      (plainPieces "port", .number ⟨false, [8], none, none⟩)],
    .array [.string (plainPieces "erp"), .string (plainPieces "ERP")]]

def bareText : String :=
  "[\"shop\",\x7b\"id\":\"crm\",\"name\":null,\"port\":8\x7d,[\"erp\",\"ERP\"]]"

/-- The first project is written as an object, and the array stands under `projects`. -/
def detailedText : String :=
  "\x7b\"v\":true,\"projects\":[\x7b\"id\":\"shop\"\x7d," ++
    "\x7b\"id\":\"crm\",\"name\":null,\"port\":8\x7d,[\"erp\",\"ERP\"]]\x7d"

theorem holdsValue_bareText {depth : Nat} :
    HoldsValue (depth + 2) bareText (.array (sampleEntries (.string "shop"))) := by
  refine ⟨.array (sampleEntryTrees (.string (plainPieces "shop"))),
    isTextOf_of_compact (by decide) (by decide), ?_⟩
  have hport : (⟨false, [8], none, none⟩ : Numeral).number?.toOption = some (.integer 8) := by
    decide
  cases depth <;> simp [sampleEntries, sampleEntryTrees, Tree.value?, Tree.scalar?, member?, hport]

theorem holdsValue_detailedText : HoldsValue maxDepth detailedText
    (.object [("v", .boolean true),
      ("projects", .array (sampleEntries (.object [("id", .string "shop")])))]) := by
  refine ⟨.object [(plainPieces "v", .boolean true), (plainPieces "projects",
      .array (sampleEntryTrees (.object [(plainPieces "id", .string (plainPieces "shop"))])))],
    isTextOf_of_compact (by decide) (by decide), ?_⟩
  have hport : (⟨false, [8], none, none⟩ : Numeral).number?.toOption = some (.integer 8) := by
    decide
  simp [maxDepth, sampleEntries, sampleEntryTrees, Tree.value?, Tree.scalar?, member?, hport]

/-! ## The decoder of an index -/

theorem exists_forall₂_iff {α β : Type} {r : α → β → Prop} {as : List α} :
    (∃ bs, List.Forall₂ r as bs) ↔ ∀ a ∈ as, ∃ b, r a b := by
  induction as with
  | nil => exact ⟨fun _ => by simp, fun _ => ⟨[], .nil⟩⟩
  | cons a as ih =>
    rw [List.forall_mem_cons, ← ih]
    constructor
    · rintro ⟨_, h⟩
      cases h with
      | cons ha has => exact ⟨⟨_, ha⟩, _, has⟩
    · rintro ⟨⟨b, hb⟩, bs, hbs⟩
      exact ⟨b :: bs, .cons hb hbs⟩

/-- For every text that holds a value, the decoder succeeds exactly if the value lists entries that
describe projects, and gives these projects in order.  The result depends only on what is listed:
a text with the same entries, some identifiers written as objects, decodes alike, bare or wrapped;
so does the text itself when it is put under `projects`.  The projects come back from their text. -/
theorem decode_accepts_index_shapes {text : String} {v : Value}
    (h : HoldsValue maxDepth text v) :
    ((∃ index, ProjectIndex.decode text = .ok index) ↔
      ∃ entries, Lists v entries ∧ ∀ entry ∈ entries, ∃ project, Describes entry project) ∧
    (∀ projects, ProjectIndex.decode text = .ok ⟨projects⟩ ↔
      ∃ entries, Lists v entries ∧ List.Forall₂ Describes entries projects) ∧
    (∀ other w entries rewritten, HoldsValue maxDepth other w → Lists v entries →
      Lists w rewritten → List.Forall₂ Rewritten entries rewritten →
      ProjectIndex.decode other = ProjectIndex.decode text) ∧
    (∀ entries, v = .array entries → HoldsValue (maxDepth - 1) text v →
      ProjectIndex.decode (wrappedText text) = ProjectIndex.decode text) ∧
    (∀ projects, ProjectIndex.decode text = .ok ⟨projects⟩ →
      ProjectIndex.decode (printProjects projects) = .ok ⟨projects⟩) := by
  refine ⟨?_, fun projects => decode_eq_ok_iff h, ?_, ?_, ?_⟩
  · simp only [decode_eq_ok_iff h, ← exists_forall₂_iff]
    constructor
    · rintro ⟨index, entries, hlists, hdescribed⟩
      exact ⟨entries, hlists, index.projects, hdescribed⟩
    · rintro ⟨entries, hlists, projects, hdescribed⟩
      exact ⟨⟨projects⟩, entries, hlists, hdescribed⟩
  · intro other w entries rewritten hother
    exact decode_eq_of_rewritten h hother
  · rintro entries rfl hinside
    have hwrapped : Lists (.object [("projects", .array entries)]) entries := .wrapped rfl
    exact decode_eq_of_rewritten h (holdsValue_wrappedText hinside) (.bare entries) hwrapped
      (List.forall₂_same.2 fun entry _ => .same entry)
  · intro projects _
    obtain ⟨entries, hholds, hdescribed⟩ := exists_holdsValue_printProjects projects
    exact (decode_eq_ok_iff hholds).2 ⟨entries, .bare entries, hdescribed⟩

theorem bareText_lists_three_projects : HoldsValue maxDepth bareText
      (.array (sampleEntries (.string "shop"))) ∧
    ProjectIndex.decode bareText =
      .ok ⟨[⟨"shop", none, none, none⟩, ⟨"crm", none, none, none⟩,
        ⟨"erp", some "ERP", none, none⟩]⟩ ∧
    ProjectIndex.decode detailedText = ProjectIndex.decode bareText ∧
    ProjectIndex.decode (wrappedText bareText) = ProjectIndex.decode bareText := by
  obtain ⟨-, hok, hrewritten, hwrapped, -⟩ := decode_accepts_index_shapes holdsValue_bareText
  refine ⟨holdsValue_bareText, (hok _).2 ⟨_, .bare _, ?_⟩, ?_, ?_⟩
  · exact .cons (.id _) (.cons (.members ⟨rfl, ⟨some .null, rfl, .null⟩, ⟨none, rfl, .missing⟩,
      ⟨none, rfl, .missing⟩⟩) (.cons (.details "erp" [.string "ERP"] (by decide) (.text _)
        .missing .missing) .nil))
  · exact hrewritten _ _ _ _ holdsValue_detailedText (.bare _) (.wrapped rfl)
      (.cons (.id _) (.cons (.same _) (.cons (.same _) .nil)))
  · exact hwrapped _ rfl holdsValue_bareText

end ManifestAtlas
