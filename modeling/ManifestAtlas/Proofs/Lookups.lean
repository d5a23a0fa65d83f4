import Mathlib.Data.List.Nodup
import ManifestAtlas.Manifest.Project

/-!
# Lookups by identifier

A lookup takes the first entry with an identifier.  Where no two entries share
one, it takes the only entry, so that every entry can be looked up
(`find?_key_eq_some_iff`); an identifier that no entry has is not found
(`find?_key_eq_none_iff`).
-/

namespace ManifestAtlas

section

variable {α κ : Type} [BEq κ] [LawfulBEq κ] {key : α → κ} {entries : List α}

theorem mem_of_find?_key {k : κ} {entry : α} (h : entries.find? (key · == k) = some entry) :
    entry ∈ entries ∧ key entry = k :=
  ⟨List.mem_of_find?_eq_some h, by simpa using List.find?_some h⟩

theorem find?_key_eq_some_iff (h : (entries.map key).Nodup) {k : κ} {entry : α} :
    entries.find? (key · == k) = some entry ↔ entry ∈ entries ∧ key entry = k := by
  refine ⟨mem_of_find?_key, fun hentry => ?_⟩
  obtain ⟨hmem, rfl⟩ := hentry
  have hsome : (entries.find? (key · == key entry)).isSome = true :=
    List.find?_isSome.2 ⟨entry, hmem, by simp⟩
  obtain ⟨found, hfound⟩ := Option.isSome_iff_exists.1 hsome
  obtain ⟨hfoundMem, hkey⟩ := mem_of_find?_key hfound
  rw [hfound, List.inj_on_of_nodup_map h hfoundMem hmem hkey]

theorem find?_key_eq_none_iff {k : κ} :
    entries.find? (key · == k) = none ↔ k ∉ entries.map key := by
  rw [List.find?_eq_none]
  simp

end

section

variable {manifest : Manifest} {module : Module} {id : String}

/-- A module with an identifier that no other module has is the one that is found. -/
theorem module?_eq_some_iff_mem (h : (manifest.modules.map Module.id).Nodup) :
    manifest.module? id = some module ↔ module ∈ manifest.modules ∧ module.id = id :=
  find?_key_eq_some_iff h

end

end ManifestAtlas
