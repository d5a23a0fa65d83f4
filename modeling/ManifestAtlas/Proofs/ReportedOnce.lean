import Mathlib
import ManifestAtlas.Proofs.CycleNotes
import ManifestAtlas.Proofs.RepeatedFindings
import ManifestAtlas.Text.Markdown

/-!
# Reports without repeats

Two reports are the same if they come from one finding, or from two findings
that read alike.  `diagnostics_nodup_iff` says when a manifest with different
names has no two reports that are the same.

There are four groups.

* Separators.  What stands in front of a separator, or behind one, can be read
  back if it holds no separator itself (`IsPlainId.append_inj`).
* Where a finding comes from.  Some findings hold lists that their reports do
  not delimit; these lists are told by the rest of the finding
  (`sharedNode_mem_lint` and its neighbours).
* Plain identifiers.  In a manifest whose identifiers hold no separator, two
  findings that read alike are one (`Finding.ReadsLike.eq_of_mem_lint`).
* The report, and a manifest of which two notes are the same
  (`stackedManifest`).
-/

namespace ManifestAtlas

open ModuleGraph (build)

/-! ## Separators -/

/-- The characters that separate identifiers in a report. -/
def separators : List Char :=
  [backtick, '/', '>']

/-- An identifier that holds no separator. -/
def IsPlainId (id : String) : Prop :=
  ∀ c ∈ separators, c ∉ id.toList

/-- A list that a character does not occur in can be read back in front of that character. -/
theorem append_cons_inj_of_notMem_front {c : Char} {a b x y : List Char} (ha : c ∉ a) (hb : c ∉ b)
    (h : a ++ c :: x = b ++ c :: y) : a = b ∧ x = y := by
  induction a generalizing b with
  | nil =>
    cases b with
    | nil => exact ⟨rfl, (List.cons.inj h).2⟩
    | cons d b =>
      obtain ⟨rfl, _⟩ := List.cons.inj h
      exact absurd List.mem_cons_self hb
  | cons d a ih =>
    cases b with
    | nil =>
      obtain ⟨rfl, _⟩ := List.cons.inj h
      exact absurd List.mem_cons_self ha
    | cons e b =>
      obtain ⟨rfl, htail⟩ := List.cons.inj h
      obtain ⟨rfl, rfl⟩ := ih (fun hc => ha (List.mem_cons_of_mem _ hc))
        (fun hc => hb (List.mem_cons_of_mem _ hc)) htail
      exact ⟨rfl, rfl⟩

section

variable {sep a b x y : String}

/-- A plain identifier can be read back in front of a separator. -/
theorem IsPlainId.append_inj (ha : IsPlainId a) (hb : IsPlainId b)
    (hsep : ∃ c ∈ separators, sep.toList.head? = some c) (h : a ++ (sep ++ x) = b ++ (sep ++ y)) :
    a = b ∧ x = y := by
  obtain ⟨c, hc, hhead⟩ := hsep
  obtain ⟨tail, htail⟩ := List.head?_eq_some_iff.1 hhead
  have hlist := congrArg String.toList h
  simp only [String.toList_append, htail, List.cons_append] at hlist
  obtain ⟨hab, hxy⟩ := append_cons_inj_of_notMem_front (ha c hc) (hb c hc) hlist
  exact ⟨String.toList_inj.1 hab, String.toList_inj.1 (List.append_cancel_left hxy)⟩

/-- The same in front of an arrow, whose separator is its tip. -/
theorem IsPlainId.append_arrow_inj (ha : IsPlainId a) (hb : IsPlainId b)
    (h : a ++ (" -> " ++ x) = b ++ (" -> " ++ y)) : a = b ∧ x = y := by
  have hnone : ∀ c ∈ separators, c ∉ " -".toList := by
    simp [separators, backtick]
  have hshaft : ∀ id : String, IsPlainId id → IsPlainId (id ++ " -") := by
    intro id hid c hc hmem
    rw [String.toList_append, List.mem_append] at hmem
    exact hmem.elim (hid c hc) (hnone c hc)
  have harrow : " -> " = " -" ++ "> " := by decide
  have hshafts : (a ++ " -") ++ ("> " ++ x) = (b ++ " -") ++ ("> " ++ y) := by
    simpa only [harrow, String.append_assoc] using h
  obtain ⟨hab, hxy⟩ := (hshaft a ha).append_inj (hshaft b hb) (by simp [separators]) hshafts
  exact ⟨(String.append_left_inj _).1 hab, hxy⟩

theorem IsPlainId.ne_append_arrow (ha : IsPlainId a) : a ≠ b ++ (" -> " ++ x) := by
  rintro rfl
  refine ha '>' (by simp [separators]) ?_
  simp [String.toList_append]

/-- The first of several identifiers with arrows between them can be read back. -/
theorem exists_mem_of_arrows_eq {ids others : List String} (hids : ∀ id ∈ ids, IsPlainId id)
    (hothers : ∀ id ∈ others, IsPlainId id) (hne : ids ≠ []) (hne' : others ≠ [])
    (h : " -> ".intercalate ids = " -> ".intercalate others) : ∃ id, id ∈ ids ∧ id ∈ others := by
  match ids, others, hne, hne' with
  | [a], [b], _, _ =>
    rw [String.intercalate_singleton, String.intercalate_singleton] at h
    exact ⟨a, List.mem_singleton_self a, List.mem_singleton.2 h⟩
  | [a], b :: b' :: bs, _, _ =>
    rw [String.intercalate_singleton, String.intercalate_cons_cons, String.append_assoc] at h
    exact absurd h (hids a List.mem_cons_self).ne_append_arrow
  | a :: a' :: as, [b], _, _ =>
    rw [String.intercalate_singleton, String.intercalate_cons_cons, String.append_assoc] at h
    exact absurd h.symm (hothers b List.mem_cons_self).ne_append_arrow
  | a :: a' :: as, b :: b' :: bs, _, _ =>
    rw [String.intercalate_cons_cons, String.intercalate_cons_cons, String.append_assoc,
      String.append_assoc] at h
    obtain ⟨rfl, _⟩ :=
      (hids a List.mem_cons_self).append_arrow_inj (hothers b List.mem_cons_self) h
    exact ⟨a, List.mem_cons_self, List.mem_cons_self⟩

/-- A plain identifier can also be read back behind a separator. -/
theorem IsPlainId.append_inj_right (hx : IsPlainId x) (hy : IsPlainId y)
    (hsep : ∃ c ∈ separators, sep.toList.getLast? = some c)
    (h : a ++ (sep ++ x) = b ++ (sep ++ y)) : x = y := by
  obtain ⟨c, hc, hlast⟩ := hsep
  obtain ⟨front, hfront⟩ := List.getLast?_eq_some_iff.1 hlast
  have hlist := congrArg (fun text => text.toList.reverse) h
  simp only [String.toList_append, hfront, List.reverse_append, List.reverse_cons,
    List.nil_append, List.append_assoc, List.cons_append] at hlist
  have hreverse := (append_cons_inj_of_notMem_front (mt List.mem_reverse.1 (hx c hc))
    (mt List.mem_reverse.1 (hy c hc)) hlist).1
  exact String.toList_inj.1 (List.reverse_injective hreverse)

end

/-! ## Scopes -/

namespace Scope

theorem word_module (id : String) : (module id).word = "module `" ++ (id ++ "`") :=
  String.append_assoc

theorem word_stateMachine (owner machine : String) :
    (stateMachine owner machine).word =
      "state machine `" ++ (owner ++ ("/" ++ (machine ++ "`"))) := by
  show "state machine `" ++ owner ++ "/" ++ machine ++ "`" = _
  simp only [String.append_assoc]

/-- The first letters of the wording tell what kind of scope it is. -/
theorem take_word (s : Scope) : s.word.toList.take 2 = match s with
    | .manifest => ['m', 'a']
    | .module _ => ['m', 'o']
    | .stateMachine _ _ => ['s', 't'] := by
  cases s with
  | manifest => decide +kernel
  | module id =>
    rw [word_module, String.toList_append]
    simp
  | stateMachine owner machine =>
    rw [word_stateMachine, String.toList_append]
    simp

/-- The wording of a scope tells what it is, if the module of a state machine can be read back. -/
theorem word_inj {s t : Scope} (hs : ∀ owner machine, s = .stateMachine owner machine →
    IsPlainId owner) (ht : ∀ owner machine, t = .stateMachine owner machine → IsPlainId owner)
    (h : s.word = t.word) : s = t := by
  have hstart := congrArg (fun word => word.toList.take 2) h
  simp only [take_word] at hstart
  cases s with
  | manifest =>
    cases t with
    | manifest => rfl
    | module _ => simp at hstart
    | stateMachine _ _ => simp at hstart
  | module id =>
    cases t with
    | manifest => simp at hstart
    | module other =>
      rw [word_module, word_module, String.append_right_inj, String.append_left_inj] at h
      rw [h]
    | stateMachine _ _ => simp at hstart
  | stateMachine owner machine =>
    cases t with
    | manifest => simp at hstart
    | module _ => simp at hstart
    | stateMachine owner' machine' =>
      rw [word_stateMachine, word_stateMachine, String.append_right_inj] at h
      obtain ⟨rfl, hmachine⟩ :=
        (hs owner machine rfl).append_inj (ht owner' machine' rfl) (by simp [separators]) h
      rw [(String.append_left_inj _).1 hmachine]

end Scope

/-! ## Where a finding comes from -/

section

variable {manifest : Manifest} {f g : Finding}

theorem exists_flow_of_mem_lint (hf : f ∈ (lint manifest).findings) (h : f.flow?.isSome) :
    ∃ module ∈ manifest.modules, ∃ flow ∈ module.flows, f ∈ flowFindings module flow := by
  have hmem : f ∈ (lint manifest).findings.filter (·.flow?.isSome) := List.mem_filter.2 ⟨hf, h⟩
  rw [filter_flow?_lint] at hmem
  obtain ⟨⟨module, flow⟩, hpair, hmem⟩ := List.mem_flatMap.1 hmem
  obtain ⟨hmodule, hflow⟩ := mem_flows.1 hpair
  exact ⟨module, hmodule, flow, hflow, hmem⟩

theorem exists_machine_of_mem_lint (hf : f ∈ (lint manifest).findings) (h : f.machine?.isSome) :
    ∃ module ∈ manifest.modules, ∃ machine ∈ module.stateMachines,
      f ∈ stateMachineFindings module machine := by
  have hmem : f ∈ (lint manifest).findings.filter (·.machine?.isSome) := List.mem_filter.2 ⟨hf, h⟩
  rw [filter_machine?_lint] at hmem
  obtain ⟨⟨module, machine⟩, hpair, hmem⟩ := List.mem_flatMap.1 hmem
  obtain ⟨hmodule, hmachine⟩ := mem_machines.1 hpair
  exact ⟨module, hmodule, machine, hmachine, hmem⟩

/-- A repeated identifier is one of the identifiers looked at. -/
theorem of_mem_duplicateFindings {kind : IdKind} {scope scope' : Scope} {id : String}
    {ids : List String} (hf : .duplicateId kind scope id ∈ duplicateFindings kind scope' ids) :
    scope = scope' ∧ id ∈ ids := by
  obtain ⟨id, hid, heq⟩ := mem_duplicateFindings.1 hf
  cases heq
  have hcount := (mem_repeated.1 hid).2
  rw [List.count_nil] at hcount
  exact ⟨rfl, List.count_pos_iff.1 (by omega)⟩

theorem isPlainId_nodeId (kind : NodeKind) (id : String) : IsPlainId (nodeId kind.tag id) := by
  have htag : kind.tag.toList.all isNodeChar = true := by cases kind <;> decide +kernel
  intro c hc hmem
  have hchar : isNodeChar c = true := by
    rw [toList_nodeId, List.mem_append] at hmem
    rcases hmem with hmem | hmem
    · exact List.all_eq_true.1 htag c hmem
    · exact (isWord_nodeWord id.toList).isNodeChar hmem
  have hnone : separators.all (isNodeChar · = false) = true := by decide
  rw [of_decide_eq_true (List.all_eq_true.1 hnone c hc)] at hchar
  cases hchar

/-- The start of a machine is found fault with once at most. -/
theorem initial_eq_of_machine?_eq (h : manifest.HasUniqueNames)
    (hf : f ∈ (lint manifest).findings) (hg : g ∈ (lint manifest).findings)
    (hfcheck : f.check ∈ [.severalInitial, .noInitial])
    (hgcheck : g.check ∈ [.severalInitial, .noInitial]) (hsome : f.machine?.isSome)
    (hplace : f.machine? = g.machine?) : f = g := by
  obtain ⟨module, hm, machine, hn, hf⟩ := exists_machine_of_mem_lint hf hsome
  obtain ⟨module', hm', machine', hn', hg⟩ := exists_machine_of_mem_lint hg (hplace ▸ hsome)
  rw [(parts_of_mem_stateMachineFindings hf).2, (parts_of_mem_stateMachineFindings hg).2] at hplace
  obtain ⟨hmodule, hmachine⟩ := Prod.mk.inj (Option.some.inj hplace)
  obtain rfl := List.inj_on_of_nodup_map h.modules hm hm' hmodule
  obtain rfl := List.inj_on_of_nodup_map (h.machines module hm) hn hn' hmachine
  rw [(splitsInto_machineParts module machine).mem_iff (i := 2) rfl hfcheck] at hf
  rw [(splitsInto_machineParts module machine).mem_iff (i := 2) rfl hgcheck] at hg
  match hall : initialFindings module machine, length_initialFindings module machine with
  | [], _ => rw [hall] at hf; cases hf
  | [only], _ =>
    rw [hall] at hf hg
    rw [List.mem_singleton.1 hf, List.mem_singleton.1 hg]

/-- A node is reported with all the identifiers that give it. -/
theorem sharedNode_mem_lint {kind : NodeKind} {node : String} {ids : List String}
    (hf : .sharedNode kind node ids ∈ (lint manifest).findings) :
    IsPlainId node ∧
      ids = distinct ((kind.ids manifest).filter fun id => nodeId kind.tag id = node) := by
  have hpart : .sharedNode kind node ids ∈
      sharedNodeFindings kind kind.tag (kind.ids manifest) := by
    cases kind with
    | modules =>
      exact ((splitsInto_manifestParts manifest).mem_iff (i := 1) rfl List.mem_cons_self).1 hf
    | dependencies =>
      exact ((splitsInto_manifestParts manifest).mem_iff (i := 2) rfl List.mem_cons_self).1 hf
  obtain ⟨node, hnode, heq⟩ := List.mem_filterMap.1 hpart
  simp only [Option.ite_none_right_eq_some, Option.some.injEq] at heq
  obtain ⟨_, heq⟩ := heq
  cases heq
  obtain ⟨id, _, rfl⟩ := List.mem_map.1 (mem_distinct.1 hnode)
  exact ⟨isPlainId_nodeId kind id, rfl⟩

/-- A dependency on an unknown module is reported with all the modules that have it. -/
theorem externalDependency_mem_lint {id : String} {dependants : List String}
    (hf : .externalDependency id dependants ∈ (lint manifest).findings) :
    dependants = (((build manifest).modules.filter fun m => m.dependencies.contains id).map
      Module.id) := by
  rw [(splitsInto_manifestParts manifest).mem_iff (i := 3) rfl List.mem_cons_self] at hf
  obtain ⟨id, _, heq⟩ := List.mem_map.1 hf
  cases heq
  rfl

end

/-! ## Plain identifiers -/

/-- The identifiers of a manifest hold no separator. -/
structure Manifest.HasPlainIds (manifest : Manifest) : Prop where
  modules : ∀ module ∈ manifest.modules, IsPlainId module.id
  flows : ∀ module ∈ manifest.modules, ∀ flow ∈ module.flows, IsPlainId flow.id
  rules : ∀ module ∈ manifest.modules, ∀ rule ∈ module.rules, IsPlainId rule.id
  machines : ∀ module ∈ manifest.modules, ∀ machine ∈ module.stateMachines, IsPlainId machine.id
  states : ∀ module ∈ manifest.modules, ∀ machine ∈ module.stateMachines,
    ∀ state ∈ machine.states, IsPlainId state.id
  sources : ∀ module ∈ manifest.modules, ∀ machine ∈ module.stateMachines,
    ∀ t ∈ machine.transitions, IsPlainId t.source

section

variable {manifest : Manifest} {f g : Finding}

theorem Manifest.HasPlainIds.duplicateId (h : manifest.HasPlainIds) {kind : IdKind} {scope : Scope}
    {id : String} (hf : .duplicateId kind scope id ∈ (lint manifest).findings) :
    IsPlainId id ∧ ∀ owner machine, scope = .stateMachine owner machine → IsPlainId owner := by
  cases kind with
  | module =>
    rw [(splitsInto_manifestParts manifest).mem_iff (i := 0) rfl List.mem_cons_self] at hf
    obtain ⟨rfl, hid⟩ := of_mem_duplicateFindings hf
    obtain ⟨module, hm, rfl⟩ := List.mem_map.1 hid
    exact ⟨h.modules module hm, nofun⟩
  | flow =>
    obtain ⟨module, hm, hf⟩ := exists_module_of_mem_lint hf
      (show Check.duplicateId .flow ∈ moduleChecks by decide)
    rw [(splitsInto_moduleParts module).mem_iff (i := 0) rfl List.mem_cons_self] at hf
    obtain ⟨rfl, hid⟩ := of_mem_duplicateFindings hf
    obtain ⟨flow, hflow, rfl⟩ := List.mem_map.1 hid
    exact ⟨h.flows module hm flow hflow, nofun⟩
  | rule =>
    obtain ⟨module, hm, hf⟩ := exists_module_of_mem_lint hf
      (show Check.duplicateId .rule ∈ moduleChecks by decide)
    rw [(splitsInto_moduleParts module).mem_iff (i := 1) rfl List.mem_cons_self] at hf
    obtain ⟨rfl, hid⟩ := of_mem_duplicateFindings hf
    obtain ⟨rule, hrule, rfl⟩ := List.mem_map.1 hid
    exact ⟨h.rules module hm rule hrule, nofun⟩
  | stateMachine =>
    obtain ⟨module, hm, hf⟩ := exists_module_of_mem_lint hf
      (show Check.duplicateId .stateMachine ∈ moduleChecks by decide)
    rw [(splitsInto_moduleParts module).mem_iff (i := 2) rfl List.mem_cons_self] at hf
    obtain ⟨rfl, hid⟩ := of_mem_duplicateFindings hf
    obtain ⟨machine, hn, rfl⟩ := List.mem_map.1 hid
    exact ⟨h.machines module hm machine hn, nofun⟩
  | state =>
    obtain ⟨module, hm, hf⟩ := exists_module_of_mem_lint hf
      (show Check.duplicateId .state ∈ moduleChecks by decide)
    obtain ⟨machine, hn, hf⟩ := exists_machine_of_mem_moduleFindings hf
      (show Check.duplicateId .state ∈ machineChecks by decide)
    rw [(splitsInto_machineParts module machine).mem_iff (i := 1) rfl List.mem_cons_self] at hf
    obtain ⟨rfl, hid⟩ := of_mem_duplicateFindings hf
    obtain ⟨state, hstate, rfl⟩ := List.mem_map.1 hid
    refine ⟨h.states module hm machine hn state hstate, ?_⟩
    rintro owner _ heq
    cases heq
    exact h.modules module hm

theorem Manifest.HasPlainIds.flowFinding (h : manifest.HasPlainIds) {module flow : String}
    (hf : f ∈ (lint manifest).findings) (hplace : f.flow? = some (module, flow)) :
    IsPlainId module ∧ IsPlainId flow := by
  have hsome : f.flow?.isSome := by simp [hplace]
  obtain ⟨m, hm, n, hn, hmem⟩ := exists_flow_of_mem_lint hf hsome
  rw [(parts_of_mem_flowFindings hmem).1] at hplace
  cases hplace
  exact ⟨h.modules m hm, h.flows m hm n hn⟩

theorem Manifest.HasPlainIds.machineFinding (h : manifest.HasPlainIds) {module machine : String}
    (hf : f ∈ (lint manifest).findings) (hplace : f.machine? = some (module, machine)) :
    IsPlainId module ∧ IsPlainId machine := by
  have hsome : f.machine?.isSome := by simp [hplace]
  obtain ⟨m, hm, n, hn, hmem⟩ := exists_machine_of_mem_lint hf hsome
  rw [(parts_of_mem_stateMachineFindings hmem).2] at hplace
  cases hplace
  exact ⟨h.modules m hm, h.machines m hm n hn⟩

theorem Manifest.HasPlainIds.source (h : manifest.HasPlainIds)
    {module machine source target id : String}
    (hf : .unknownState module machine source target id ∈ (lint manifest).findings) :
    IsPlainId source := by
  obtain ⟨m, hm, n, hn, hf⟩ := exists_machine_of_mem_lint hf rfl
  rw [(splitsInto_machineParts m n).mem_iff (i := 3) rfl List.mem_cons_self] at hf
  obtain ⟨t, ht, hf⟩ := List.mem_flatMap.1 hf
  obtain ⟨id, _, heq⟩ := List.mem_map.1 hf
  cases heq
  exact h.sources m hm n hn t ht

theorem Manifest.HasPlainIds.mem_cycle (h : manifest.HasPlainIds) {cycle : List String}
    (hcycle : cycle ∈ (build manifest).cycles) {id : String} (hid : id ∈ cycle) : IsPlainId id := by
  obtain ⟨_, _, _, module, hmodule, rfl⟩ :=
    Relation.TransGen.tail'_iff.1 (reaches_of_mem_cycle hcycle hid hid)
  exact h.modules module hmodule

theorem cycle_eq_of_text_eq (h : manifest.HasPlainIds) {cycle other : List String}
    (hcycle : cycle ∈ (build manifest).cycles) (hother : other ∈ (build manifest).cycles)
    (htext : " -> ".intercalate cycle = " -> ".intercalate other) : cycle = other := by
  have hlisting := isListingOf_cycles manifest
  -- The texts start with the same identifier, and an identifier is in one cycle only.
  obtain ⟨id, hid, hid'⟩ := exists_mem_of_arrows_eq (fun _ => h.mem_cycle hcycle)
    (fun _ => h.mem_cycle hother) (hlisting.nonempty _ hcycle) (hlisting.nonempty _ hother) htext
  exact group_eq_of_nodup_flatten hlisting.nodup hcycle hother hid hid'

/-- In a report about plain identifiers, two findings that read alike are one. -/
theorem Finding.ReadsLike.eq_of_mem_lint (hunique : manifest.HasUniqueNames)
    (hplain : manifest.HasPlainIds) (hf : f ∈ (lint manifest).findings)
    (hg : g ∈ (lint manifest).findings) (h : f.ReadsLike g) : f = g := by
  cases h with
  | duplicateId kind htext =>
    obtain ⟨hid, hscope⟩ := hplain.duplicateId hf
    obtain ⟨hid', hscope'⟩ := hplain.duplicateId hg
    obtain ⟨rfl, hword⟩ := hid.append_inj hid' (by simp [separators, backtick]) htext
    rw [Scope.word_inj hscope hscope' hword]
  | sharedNode kind htext =>
    obtain ⟨hnode, rfl⟩ := sharedNode_mem_lint hf
    obtain ⟨hnode', rfl⟩ := sharedNode_mem_lint hg
    rw [hnode.append_inj_right hnode' (by simp [separators, backtick]) htext]
  | externalDependency id _ => rw [externalDependency_mem_lint hf, externalDependency_mem_lint hg]
  | dependencyCycle htext =>
    rw [cycle_eq_of_text_eq hplain (dependencyCycle_mem_lint_iff.1 hf)
      (dependencyCycle_mem_lint_iff.1 hg) htext]
  | noSteps module flow => rfl
  | sharedOrder order htext =>
    obtain ⟨rfl, rfl⟩ := (hplain.flowFinding hf rfl).1.append_inj (hplain.flowFinding hg rfl).1
      (by simp [separators]) htext
    rfl
  | unknownRule module rule htext =>
    obtain ⟨rfl, rfl⟩ := (hplain.flowFinding hf rfl).2.append_inj (hplain.flowFinding hg rfl).2
      (by simp [separators, backtick]) htext
    rfl
  | noStates module machine => rfl
  | severalInitial first hplace hall =>
    obtain ⟨rfl, rfl⟩ := (hplain.machineFinding hf rfl).1.append_inj
      (hplain.machineFinding hg rfl).1 (by simp [separators]) hplace
    exact initial_eq_of_machine?_eq hunique hf hg List.mem_cons_self List.mem_cons_self rfl rfl
  | noInitial first hplace =>
    obtain ⟨rfl, rfl⟩ := (hplain.machineFinding hf rfl).1.append_inj
      (hplain.machineFinding hg rfl).1 (by simp [separators]) hplace
    rfl
  | unknownState id htext =>
    obtain ⟨hmodule, hmachine⟩ := hplain.machineFinding hf rfl
    obtain ⟨hmodule', hmachine'⟩ := hplain.machineFinding hg rfl
    obtain ⟨rfl, hrest⟩ := hmodule.append_inj hmodule' (by simp [separators]) htext
    obtain ⟨rfl, hends⟩ := hmachine.append_inj hmachine' (by simp [separators, backtick]) hrest
    obtain ⟨rfl, rfl⟩ := (hplain.source hf).append_arrow_inj (hplain.source hg) hends
    rfl

end

/-! ## The report -/

theorem diagnostics_nodup_iff_findings {report : LintReport} :
    report.diagnostics.Nodup ↔ report.findings.Nodup ∧
      ∀ f ∈ report.findings, ∀ g ∈ report.findings, f.ReadsLike g → f = g := by
  simp only [LintReport.diagnostics, ← Finding.diagnostic_eq_iff]
  constructor
  · intro h
    exact ⟨h.of_map, fun f hf g hg => List.inj_on_of_nodup_map h hf hg⟩
  · intro h
    exact h.1.map_on h.2

/-- Where names differ, no two reports are the same exactly if no finding is listed twice and no two
findings read alike.  Where identifiers are plain as well, no two findings do. -/
theorem diagnostics_nodup_iff {manifest : Manifest} (h : manifest.HasUniqueNames) :
    ((lint manifest).diagnostics.Nodup ↔ manifest.ReportsOnce ∧
      ∀ f ∈ (lint manifest).findings, ∀ g ∈ (lint manifest).findings, f.ReadsLike g → f = g) ∧
    (manifest.HasPlainIds → ((lint manifest).diagnostics.Nodup ↔ manifest.ReportsOnce)) := by
  have hiff := nodup_findings_iff h
  refine ⟨by rw [diagnostics_nodup_iff_findings, hiff], fun hplain => ?_⟩
  rw [diagnostics_nodup_iff_findings, hiff]
  exact and_iff_left fun f hf g hg halike => halike.eq_of_mem_lint h hplain hf hg

/-- A module with one flow, whose steps share an order number. -/
def stackedModule (names : List String) : Module where
  id := "shop"
  name := "Shop"
  description := ""
  tags := []
  dependencies := []
  codeRefs := []
  flows := [⟨"pay", "Pay", none, none, names.map fun name => ⟨none, 1, name, none, [], none⟩, none⟩]
  rules := []
  stateMachines := []
  pseudocodes := []

/-- A manifest with that module. -/
def stackedManifest (names : List String) : Manifest where
  project := ⟨"Shop", none, none, none, none⟩
  modules := [stackedModule names]
  entities := []
  dataModels := []
  glossary := .empty
  changelog := []

theorem hasUniqueNames_stackedManifest {names : List String} (h : names.Nodup) :
    (stackedManifest names).HasUniqueNames where
  modules := List.nodup_singleton "shop"
  flows := by simp [stackedManifest, stackedModule]
  machines := by simp [stackedManifest, stackedModule]
  steps := by simpa [stackedManifest, stackedModule, Function.comp_def] using h

theorem hasPlainIds_stackedManifest (names : List String) :
    (stackedManifest names).HasPlainIds where
  modules := by simp [stackedManifest, stackedModule, IsPlainId, separators, backtick]
  flows := by simp [stackedManifest, stackedModule, IsPlainId, separators, backtick]
  rules := by simp [stackedManifest, stackedModule]
  machines := by simp [stackedManifest, stackedModule]
  states := by simp [stackedManifest, stackedModule]
  sources := by simp [stackedManifest, stackedModule]

/-- Two steps with one order number are reported once. -/
theorem reportsOnce_stackedManifest {names : List String} (h : names.length ≤ 2) :
    (stackedManifest names).ReportsOnce where
  flows := by
    intro module hmodule flow hflow
    obtain rfl := List.mem_singleton.1 hmodule
    obtain rfl := List.mem_singleton.1 hflow
    refine ⟨fun order => List.count_le_length.trans ?_, ?_⟩
    · simpa using h
    · simp
  machines := by simp [stackedManifest, stackedModule]

theorem stackedManifest_pair_reported_once :
    (stackedManifest ["check", "charge"]).HasUniqueNames ∧
      (stackedManifest ["check", "charge"]).HasPlainIds ∧
      (lint (stackedManifest ["check", "charge"])).diagnostics.Nodup := by
  have hnames : (stackedManifest ["check", "charge"]).HasUniqueNames :=
    hasUniqueNames_stackedManifest (by decide)
  have hplain : (stackedManifest ["check", "charge"]).HasPlainIds := hasPlainIds_stackedManifest _
  exact ⟨hnames, hplain,
    ((diagnostics_nodup_iff hnames).2 hplain).2 (reportsOnce_stackedManifest le_rfl)⟩

/-- The third step with an order number gives the same note as the second. -/
theorem stackedManifest_triple_reported_twice :
    (stackedManifest ["check", "charge", "ship"]).HasUniqueNames ∧
      (lint (stackedManifest ["check", "charge", "ship"])).findings =
        [.sharedOrder "shop" "pay" 1, .sharedOrder "shop" "pay" 1] ∧
      ¬ (lint (stackedManifest ["check", "charge", "ship"])).diagnostics.Nodup := by
  have hfindings : (lint (stackedManifest ["check", "charge", "ship"])).findings =
        [.sharedOrder "shop" "pay" 1, .sharedOrder "shop" "pay" 1] := by
    cbv
  refine ⟨hasUniqueNames_stackedManifest (by decide), hfindings, ?_⟩
  intro hnodup
  rw [LintReport.diagnostics, hfindings] at hnodup
  exact absurd hnodup.of_map (by simp)

end ManifestAtlas
