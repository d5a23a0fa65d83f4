import ManifestAtlas.Proofs.FormatWriting
import ManifestAtlas.Workspace.Load

/-!
# Manifests come back from their JSON text

Every format of the schema is faithful: the names of its enumerations and the
keys of its records differ, its numbers keep their range, and its glossary is
put together again from its entries.

Main statement: `manifest_roundTrips`.
-/

namespace ManifestAtlas

open Json

/-! ## The glossary -/

/-- An entry whose key comes after all other ones is put at the end. -/
theorem put_append {key : String} (entry : GlossaryEntry)
    {entries : List (String × GlossaryEntry)} (h : ∀ x ∈ entries, x.1 < key) :
    put key entry entries = entries ++ [(key, entry)] := by
  induction entries with
  | nil => rfl
  | cons x entries ih =>
    obtain ⟨hx, hentries⟩ := List.forall_mem_cons.1 h
    have hkey : ¬ key < x.1 := fun hlt => String.lt_irrefl _ (String.lt_trans hlt hx)
    simp [put, hkey, hx, ih hentries]

theorem foldl_put {before after : List (String × GlossaryEntry)}
    (h : Ascending (before ++ after)) :
    after.foldl (fun entries m => put m.1 m.2 entries) before = before ++ after := by
  induction after generalizing before with
  | nil => simp
  | cons m after ih =>
    have hbefore : ∀ x ∈ before, x.1 < m.1 := fun x hx =>
      (List.pairwise_append.1 h).2.2 x hx m List.mem_cons_self
    rw [List.foldl_cons, put_append m.2 hbefore, ih (by simpa using h)]
    simp

/-- A glossary is put together again from its entries. -/
theorem Glossary.foldl_insert_entries (g : Glossary) :
    g.entries.foldl (fun g m => g.insert m.1 m.2) .empty = g := by
  have hfold (start : Glossary) (ms : List (String × GlossaryEntry)) :
      (ms.foldl (fun g m => g.insert m.1 m.2) start).entries =
        ms.foldl (fun entries m => put m.1 m.2 entries) start.entries := by
    induction ms generalizing start with
    | nil => rfl
    | cons m ms ih => exact ih _
  have hascending : Ascending ([] ++ g.entries) := g.ascending
  apply Glossary.ext
  rw [hfold]
  exact foldl_put hascending

namespace Schema

@[simp] theorem faithful_priority : priorityFormat.Faithful := by
  rw [priorityFormat, Format.Faithful]
  intro p
  cases p <;> decide

@[simp] theorem faithful_pseudoStepKind : pseudoStepKindFormat.Faithful := by
  rw [pseudoStepKindFormat, Format.Faithful]
  intro k
  cases k <;> decide

@[simp] theorem faithful_callKind : callKindFormat.Faithful := by
  rw [callKindFormat, Format.Faithful]
  intro k
  cases k <;> decide

@[simp] theorem faithful_codeRef : codeRef.fields.Faithful := by
  simp [codeRef]

@[simp] theorem faithful_rule : rule.fields.Faithful := by
  simp [rule]

@[simp] theorem faithful_step : step.fields.Faithful := by
  simp [step]

@[simp] theorem faithful_flow : flow.fields.Faithful := by
  simp [flow]

@[simp] theorem faithful_state : state.fields.Faithful := by
  simp [state]

@[simp] theorem faithful_transition : transition.fields.Faithful := by
  simp [transition]

@[simp] theorem faithful_stateMachine : stateMachine.fields.Faithful := by
  simp [stateMachine]

@[simp] theorem faithful_param : param.fields.Faithful := by
  simp [param]

@[simp] theorem faithful_pseudoStep : pseudoStep.fields.Faithful := by
  simp [pseudoStep]

@[simp] theorem faithful_externalCall : externalCall.fields.Faithful := by
  simp [externalCall]

@[simp] theorem faithful_pseudocode : pseudocode.fields.Faithful := by
  simp [pseudocode]

@[simp] theorem faithful_module : module.fields.Faithful := by
  simp [module]

@[simp] theorem faithful_entity : entity.fields.Faithful := by
  simp [entity]

@[simp] theorem faithful_field : field.fields.Faithful := by
  simp [field]

@[simp] theorem faithful_dataModel : dataModel.fields.Faithful := by
  simp [dataModel]

@[simp] theorem faithful_glossaryEntry : glossaryEntry.fields.Faithful := by
  simp [glossaryEntry]

@[simp] theorem faithful_glossary : glossary.Faithful := by
  rw [glossary, Format.Faithful]
  exact ⟨by simp, Glossary.foldl_insert_entries⟩

@[simp] theorem faithful_changelogEntry : changelogEntry.fields.Faithful := by
  simp [changelogEntry]

@[simp] theorem faithful_projectMeta : projectMeta.fields.Faithful := by
  simp [projectMeta]

@[simp] theorem faithful_manifest : manifest.fields.Faithful := by
  simp [manifest]

end Schema

/-! ## Round trips -/

theorem Manifest.decode_eq_ok_iff {text : String} {m : Manifest} :
    Manifest.decode text = .ok m ↔ Schema.manifest.codec.decode text = .ok m := by
  unfold Manifest.decode
  cases Schema.manifest.codec.decode text <;> simp

/-- Decoding the JSON text of a manifest gives the manifest back, and the text of a manifest that
was decoded stays the same when it is decoded and encoded once more.  The same is true of
everything that a manifest is made of. -/
theorem manifest_roundTrips :
    (∀ m, Manifest.decode (Schema.manifest.codec.encode m) = .ok m) ∧
    (∀ text m, Manifest.decode text = .ok m →
      ∃ m', Manifest.decode (Schema.manifest.codec.encode m) = .ok m' ∧
        Schema.manifest.codec.encode m' = Schema.manifest.codec.encode m) ∧
    Schema.projectMeta.codec.RoundTrips ∧ Schema.module.codec.RoundTrips ∧
    Schema.flow.codec.RoundTrips ∧ Schema.step.codec.RoundTrips ∧ Schema.rule.codec.RoundTrips ∧
    Schema.stateMachine.codec.RoundTrips ∧ Schema.state.codec.RoundTrips ∧
    Schema.transition.codec.RoundTrips ∧ Schema.pseudocode.codec.RoundTrips ∧
    Schema.param.codec.RoundTrips ∧ Schema.pseudoStep.codec.RoundTrips ∧
    Schema.externalCall.codec.RoundTrips ∧ Schema.entity.codec.RoundTrips ∧
    Schema.dataModel.codec.RoundTrips ∧ Schema.field.codec.RoundTrips ∧
    Schema.glossary.codec.RoundTrips ∧ Schema.glossaryEntry.codec.RoundTrips ∧
    Schema.changelogEntry.codec.RoundTrips ∧ Schema.codeRef.codec.RoundTrips ∧
    Schema.priority.RoundTrips ∧ Schema.pseudoStepKind.RoundTrips ∧
    Schema.callKind.RoundTrips := by
  have hmanifest : Schema.manifest.codec.RoundTrips :=
    RecordFormat.roundTrips Schema.faithful_manifest
  simp only [Manifest.decode_eq_ok_iff]
  refine ⟨hmanifest.decode_encode, fun _ _ => hmanifest.encode_decode, ?_⟩
  exact ⟨RecordFormat.roundTrips Schema.faithful_projectMeta,
    RecordFormat.roundTrips Schema.faithful_module,
    RecordFormat.roundTrips Schema.faithful_flow,
    RecordFormat.roundTrips Schema.faithful_step,
    RecordFormat.roundTrips Schema.faithful_rule,
    RecordFormat.roundTrips Schema.faithful_stateMachine,
    RecordFormat.roundTrips Schema.faithful_state,
    RecordFormat.roundTrips Schema.faithful_transition,
    RecordFormat.roundTrips Schema.faithful_pseudocode,
    RecordFormat.roundTrips Schema.faithful_param,
    RecordFormat.roundTrips Schema.faithful_pseudoStep,
    RecordFormat.roundTrips Schema.faithful_externalCall,
    RecordFormat.roundTrips Schema.faithful_entity,
    RecordFormat.roundTrips Schema.faithful_dataModel,
    RecordFormat.roundTrips Schema.faithful_field,
    Schema.faithful_glossary.roundTrips,
    RecordFormat.roundTrips Schema.faithful_glossaryEntry,
    RecordFormat.roundTrips Schema.faithful_changelogEntry,
    RecordFormat.roundTrips Schema.faithful_codeRef,
    Schema.faithful_priority.roundTrips,
    Schema.faithful_pseudoStepKind.roundTrips,
    Schema.faithful_callKind.roundTrips⟩

end ManifestAtlas
