import Mathlib
import ManifestAtlas.Proofs.LabelEscapes
import ManifestAtlas.Proofs.OutlineShape
import ManifestAtlas.Proofs.OutlineTexts
import ManifestAtlas.Proofs.TextLines

/-!
# The lines of an outline

A reader that knows nothing of manifests tells the kind of a line from its
first characters (`lineKind?`).  No entry of an outline has a line feed in it,
since every text goes through `escapeOutline` or `inlineCode` first; so the
outline has one line for each entry, and the reader finds the kind of the entry
(`lineKind?_line`).

Main statement: the kinds of the lines are those of the shape of the manifest,
so no text in it can add, remove or change one (`outline_follows_shape`).
-/

namespace ManifestAtlas

/-! ## Reading the kind of a line -/

/-- The kind of a line: one to six number signs and a space make a heading, and an even number of
spaces, up to twice the deepest nesting, with a dash and a space behind them make a bullet. -/
def lineKind? (line : String) : Option LineKind :=
  let chars := line.toList
  let signs := (chars.takeWhile (· = '#')).length
  let spaces := (chars.takeWhile (· = ' ')).length
  if 1 ≤ signs ∧ signs ≤ 6 ∧ chars[signs]? = some ' ' then
    some (.heading signs)
  else if spaces % 2 = 0 ∧ spaces ≤ 64 ∧ chars[spaces]? = some '-' ∧
      chars[spaces + 1]? = some ' ' then
    some (.bullet (spaces / 2))
  else none

example : lineKind? "### 订单（o）" = some (.heading 3) := by decide

example : lineKind? "    - 说明：x" = some (.bullet 2) := by decide

/-- The kind of the line of an entry. -/
def Entry.kind : Entry → LineKind
  | .heading level _ => .heading (max 1 (min level maxHeadingLevel))
  | .bullet depth _ => .bullet (min depth Lines.maxNesting)

/-- The characters of a marker in front of something else. -/
theorem takeWhile_replicate_append {mark next : Char} (hne : next ≠ mark) (n : Nat)
    (rest : List Char) :
    (List.replicate n mark ++ next :: rest).takeWhile (· = mark) = List.replicate n mark := by
  rw [List.takeWhile_append_of_pos (by simp), List.takeWhile_cons_of_neg (by simpa using hne),
    List.append_nil]

theorem lineKind?_heading (level : Nat) (text : String) :
    lineKind? (headingLine level text) = some (.heading (max 1 (min level maxHeadingLevel))) := by
  have hchars : (headingLine level text).toList =
      List.replicate (max 1 (min level maxHeadingLevel)) '#' ++ ' ' :: text.toList := by
    simp [headingLine]
  have hsix : max 1 (min level maxHeadingLevel) ≤ 6 := by
    simp only [maxHeadingLevel]
    omega
  simp only [lineKind?, hchars, takeWhile_replicate_append (by decide : ' ' ≠ '#'),
    List.length_replicate]
  rw [if_pos ⟨le_max_left _ _, hsix, by simp⟩]

theorem lineKind?_bullet (depth : Nat) (text : String) :
    lineKind? (Lines.nestedLine depth ("- " ++ text)) =
      some (.bullet (min depth Lines.maxNesting)) := by
  have hchars : (Lines.nestedLine depth ("- " ++ text)).toList =
      List.replicate (2 * min depth Lines.maxNesting) ' ' ++ '-' :: ' ' :: text.toList := by
    simp [Lines.nestedLine]
  -- A bullet starts with a space or a dash, and so with no number sign.
  have hsigns : (Lines.nestedLine depth ("- " ++ text)).toList.takeWhile (· = '#') = [] := by
    rw [hchars]
    cases 2 * min depth Lines.maxNesting <;> simp [List.replicate_succ]
  have hspaces : 2 * min depth Lines.maxNesting ≤ 64 := by
    simp only [Lines.maxNesting]
    omega
  simp only [lineKind?, hsigns, List.length_nil]
  rw [if_neg fun h => absurd h.1 (by decide), hchars]
  simp only [takeWhile_replicate_append (by decide : '-' ≠ ' '), List.length_replicate]
  rw [if_pos ⟨by omega, hspaces, by simp, by simp⟩, Nat.mul_div_cancel_left _ (by decide)]

theorem lineKind?_line (entry : Entry) : lineKind? entry.line = some entry.kind := by
  cases entry with
  | heading level text => exact lineKind?_heading level text
  | bullet depth text => exact lineKind?_bullet depth text

/-! ## One line for each entry -/

/-- The lines of an outline are those of its entries. -/
theorem splitLines_outline (manifest : Manifest) :
    splitLines (outline manifest) = (outlineEntries manifest).map Entry.line ++ [""] := by
  have hne : (outlineLines (outlineEntries manifest)).lines ≠ [] := by
    simp [outlineLines, outlineEntries, projectEntries]
  refine splitLines_text hne fun line hline => ?_
  obtain ⟨entry, hentry, rfl⟩ := List.mem_map.1 hline
  have hwoven : AllWoven (fun _ => True) (outlineEntries manifest) :=
    allWoven_outlineEntries fun _ _ => trivial
  exact notMem_line (by decide)
    ((hwoven entry hentry).notMem (by decide) fun t _ => lineFeed_notMem_escapeOutline t)

/-! ## The kinds of the entries -/

@[simp] theorem kind_heading (level : Nat) (text : String) :
    (Entry.heading level text).kind = .heading (max 1 (min level maxHeadingLevel)) := rfl

@[simp] theorem kind_bullet (depth : Nat) (text : String) :
    (Entry.bullet depth text).kind = .bullet (min depth Lines.maxNesting) := rfl

@[simp] theorem kinds_fieldEntry (depth : Nat) (label : String) (text : Option String) :
    (fieldEntry depth label text).map Entry.kind =
      optionalKind (min depth Lines.maxNesting) (isVisible text) := by
  cases hshown : visible? text <;> simp [fieldEntry, isVisible, optionalKind, hshown]

@[simp] theorem kinds_placeEntry (depth : Nat) (place : Option CodeRef) :
    (placeEntry depth place).map Entry.kind =
      optionalKind (min depth Lines.maxNesting) (isPlaced place) := by
  cases hshown : (displayPlace place).isEmpty <;>
    simp [placeEntry, isPlaced, optionalKind, hshown]

@[simp] theorem kind_inlineListEntry (depth : Nat) (label separator : String)
    (texts : List String) :
    (inlineListEntry depth label texts separator).kind = .bullet (min depth Lines.maxNesting) := by
  simp only [inlineListEntry]
  split <;> rfl

@[simp] theorem kinds_listEntries (label : String) (texts : List String) :
    (listEntries 0 label texts).map Entry.kind = listKinds texts.length := by
  simp [listEntries, listKinds, Lines.maxNesting, Function.comp_def]

theorem kinds_stepEntries (rules : List Rule) (step : Step) :
    (stepEntries rules step).map Entry.kind = step.shape.kinds := by
  have hnames : (outlineRules rules step).isEmpty = (distinctVisible step.rules).isEmpty := by
    simp [outlineRules]
  cases hruled : (distinctVisible step.rules).isEmpty <;>
    simp [stepEntries, hnames, hruled, StepShape.kinds, Step.shape, optionalKind, Lines.maxNesting]

theorem kinds_flowEntries (rules : List Rule) (flow : Flow) :
    (flowEntries rules flow).map Entry.kind = flow.shape.kinds := by
  simp [flowEntries, FlowShape.kinds, Flow.shape, List.map_flatMap, List.flatMap_map,
    kinds_stepEntries, maxHeadingLevel]

theorem kinds_ruleEntries (rule : Rule) :
    (ruleEntries rule).map Entry.kind = rule.shape.kinds := by
  cases himpacting : rule.impactedFields.isEmpty <;>
    simp [ruleEntries, himpacting, RuleShape.kinds, Rule.shape, optionalKind, maxHeadingLevel]

theorem kinds_stateMachineEntries (machine : StateMachine) :
    (stateMachineEntries machine).map Entry.kind = machine.shape.kinds := by
  simp [stateMachineEntries, MachineShape.kinds, StateMachine.shape, machinePartKinds,
    List.map_flatMap, List.flatMap_map, maxHeadingLevel, Lines.maxNesting]

theorem kinds_pseudocodeEntries (pseudo : Pseudocode) :
    (pseudocodeEntries pseudo).map Entry.kind = pseudo.shape.kinds := by
  cases hsigned : nonempty? pseudo.signature <;>
    simp [pseudocodeEntries, hsigned, PseudocodeShape.kinds, Pseudocode.shape, optionalKind,
      pseudoStepEntry, indentKind, Function.comp_def, maxHeadingLevel]

theorem kinds_moduleEntries (module : Module) :
    (moduleEntries module).map Entry.kind = module.shape.kinds := by
  simp [moduleEntries, ModuleShape.kinds, Module.shape, List.map_flatMap, List.flatMap_map,
    kinds_flowEntries, kinds_ruleEntries, kinds_stateMachineEntries, kinds_pseudocodeEntries,
    maxHeadingLevel]

theorem kinds_entityEntries (entity : Entity) :
    (entityEntries entity).map Entry.kind = entityKinds (isVisible entity.description) := by
  simp [entityEntries, entityKinds, maxHeadingLevel]

theorem kinds_dataModelEntries (model : DataModel) :
    (dataModelEntries model).map Entry.kind = model.shape.kinds := by
  simp [dataModelEntries, DataModelShape.kinds, DataModel.shape, maxHeadingLevel]

/-- The entries of an outline are of the kinds that the shape of the manifest gives. -/
theorem kinds_outlineEntries (manifest : Manifest) :
    (outlineEntries manifest).map Entry.kind = manifest.shape.kinds := by
  cases hhosted : nonempty? manifest.project.repository <;>
    simp [outlineEntries, projectEntries, hhosted, OutlineShape.kinds, Manifest.shape,
      optionalKind, glossaryBullet, changelogBullet, List.map_flatMap, List.flatMap_map,
      kinds_moduleEntries, kinds_entityEntries, kinds_dataModelEntries, maxHeadingLevel,
      Function.comp_def]

/-! ## The whole outline -/

theorem map_lineKind?_lines (entries : List Entry) :
    (entries.map Entry.line).map lineKind? = (entries.map Entry.kind).map some := by
  simp [lineKind?_line]

theorem filterMap_lineKind?_lines (entries : List Entry) :
    (entries.map Entry.line).filterMap lineKind? = entries.map Entry.kind := by
  induction entries with
  | nil => rfl
  | cons entry entries ih => simp [lineKind?_line, ih]

/-- The kinds of the lines of an outline, with the empty piece behind the last line. -/
theorem map_lineKind?_outline (manifest : Manifest) :
    (splitLines (outline manifest)).map lineKind? = manifest.shape.kinds.map some ++ [none] := by
  rw [splitLines_outline, List.map_append, map_lineKind?_lines, kinds_outlineEntries,
    List.map_singleton, show lineKind? "" = none by decide]

/-- Every line of an outline is a heading or a bullet.  Which one it is depends on the shape of the
manifest alone, so no text can add a line, take one away or change its kind, and the headings
depend on nothing but the lengths of the lists in the manifest. -/
theorem outline_follows_shape (manifest : Manifest) :
    ∃ lines, splitLines (outline manifest) = lines ++ [""] ∧
      lines.map lineKind? = manifest.shape.kinds.map some ∧
      levels (lines.filterMap lineKind?) = manifest.headingLevels ∧
      (∀ level,
        (levels (lines.filterMap lineKind?)).count level = manifest.headingCount level) ∧
      (levels (lines.filterMap lineKind?)).IsChain (fun above level => level ≤ above + 1) ∧
      ∀ other : Manifest, other.shape = manifest.shape →
        (splitLines (outline other)).map lineKind? =
          (splitLines (outline manifest)).map lineKind? := by
  have hlevels : levels (((outlineEntries manifest).map Entry.line).filterMap lineKind?) =
      manifest.headingLevels := by
    rw [filterMap_lineKind?_lines, kinds_outlineEntries, levels_kinds_shape]
  refine ⟨_, splitLines_outline manifest, ?_, hlevels, fun level => ?_, ?_, fun other hshape => ?_⟩
  · rw [map_lineKind?_lines, kinds_outlineEntries]
  · rw [hlevels, count_headingLevels]
  · rw [hlevels]
    exact isChain_headingLevels manifest
  · rw [map_lineKind?_outline, map_lineKind?_outline, hshape]

end ManifestAtlas
