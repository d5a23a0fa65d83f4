import Mathlib
import ManifestAtlas.Proofs.OutlineLines

/-!
# What stands under a line of an outline

The lines of an outline have ranks: headings by their level, and bullets below
all headings by their depth.  Under a line stand the lines behind it up to the
next one of the same or a higher rank (`under`), as a reader of the outline
would say.

`Scoped` says of all lines of a list what is said of one line and the lines
under it.  A list is put together from parts that start high enough to end what
is under the lines before them, so what holds in each part holds in the whole
list (`IsPart.append`, `IsPart.flatMap`).  The step is `IsPart.announce`: a line,
and under it nothing but lines of lower ranks.
-/

namespace ManifestAtlas

/-! ## Lists of ranked items -/

section

variable {α : Type} (rank : α → Nat) (r : Nat)

/-- The items at the front of a list that are ranked below `r`. -/
def under (items : List α) : List α :=
  items.takeWhile fun item => r < rank item

/-- Each item of a list has a property together with the items under it. -/
def Scoped (P : α → List α → Prop) (items : List α) : Prop :=
  ∀ before item after, items = before ++ item :: after → P item (under rank r after)

/-- A part of a longer list in which each item has a property together with the items under it; it
starts high enough to end what is under the items before it. -/
structure IsPart (P : α → List α → Prop) (items : List α) : Prop where
  starts : ∀ item ∈ items.head?, rank item ≤ r
  holds : Scoped rank r P items

end

section

variable {α : Type} {rank : α → Nat} {r : Nat} {P : α → List α → Prop} {items more : List α}

theorem under_eq_self (h : ∀ item ∈ items, r < rank item) : under rank r items = items :=
  List.takeWhile_eq_self_iff.2 fun item hitem => by simpa using h item hitem

theorem under_append (hmore : ∀ item ∈ more.head?, rank item ≤ r) :
    under rank r (items ++ more) = under rank r items := by
  induction items with
  | nil =>
    cases more with
    | nil => rfl
    | cons item more =>
      have hstop : ¬ r < rank item := by simpa using hmore item rfl
      simp [under, hstop]
  | cons item items ih =>
    rw [under, under, List.cons_append, List.takeWhile_cons, List.takeWhile_cons]
    split
    · exact congrArg _ ih
    · rfl

theorem scoped_nil : Scoped rank r P [] := by
  intro before item after h
  simp at h

theorem scoped_cons {item : α} :
    Scoped rank r P (item :: items) ↔ P item (under rank r items) ∧ Scoped rank r P items := by
  constructor
  · intro h
    exact ⟨h [] item items rfl, fun before other after hitems =>
      h (item :: before) other after (by rw [hitems]; rfl)⟩
  · rintro ⟨hitem, hrest⟩ before other after h
    rcases List.cons_eq_append_iff.1 h with ⟨rfl, h⟩ | ⟨before, rfl, hitems⟩
    · obtain ⟨rfl, rfl⟩ := List.cons.inj h
      exact hitem
    · exact hrest before other after hitems

/-- What is said of an item and the lines under it may say nothing of some items. -/
theorem scoped_of_forall (h : ∀ item ∈ items, ∀ body, P item body) : Scoped rank r P items := by
  rintro before item after rfl
  exact h item (by simp) _

theorem Scoped.append (h : Scoped rank r P items) (hmore : Scoped rank r P more)
    (hstarts : ∀ item ∈ more.head?, rank item ≤ r) : Scoped rank r P (items ++ more) := by
  induction items with
  | nil => exact hmore
  | cons item items ih =>
    obtain ⟨hitem, hitems⟩ := scoped_cons.1 h
    rw [List.cons_append, scoped_cons, under_append hstarts]
    exact ⟨hitem, ih hitems⟩

/-! ## Parts -/

theorem IsPart.nil : IsPart rank r P [] :=
  ⟨by simp, scoped_nil⟩

theorem IsPart.append (h : IsPart rank r P items) (hmore : IsPart rank r P more) :
    IsPart rank r P (items ++ more) where
  starts item hitem := by
    rw [List.head?_append, Option.mem_def, Option.or_eq_some_iff] at hitem
    rcases hitem with hitem | ⟨_, hitem⟩
    · exact h.starts item hitem
    · exact hmore.starts item hitem
  holds := h.holds.append hmore.holds hmore.starts

theorem IsPart.flatMap {β : Type} {f : β → List α} {l : List β}
    (h : ∀ b ∈ l, IsPart rank r P (f b)) : IsPart rank r P (l.flatMap f) := by
  induction l with
  | nil => exact IsPart.nil
  | cons b l ih =>
    rw [List.flatMap_cons]
    exact (h b List.mem_cons_self).append (ih fun b hb => h b (List.mem_cons_of_mem _ hb))

/-- An item with nothing but items of lower ranks under it. -/
theorem IsPart.announce {item : α} (hrank : rank item ≤ r) (hbelow : ∀ b ∈ items, r < rank b)
    (hitem : P item items) (hitems : ∀ b ∈ items, ∀ body, P b body) :
    IsPart rank r P (item :: items) where
  starts _ h := by
    rw [← Option.some.inj h]
    exact hrank
  holds := by
    rw [scoped_cons, under_eq_self hbelow]
    exact ⟨hitem, scoped_of_forall hitems⟩

/-- An item of which nothing is said starts a part. -/
theorem IsPart.cons {item : α} (h : IsPart rank r P items) (hrank : rank item ≤ r)
    (hitem : ∀ body, P item body) : IsPart rank r P (item :: items) where
  starts _ hhead := by
    rw [← Option.some.inj hhead]
    exact hrank
  holds := scoped_cons.2 ⟨hitem _, h.holds⟩

/-- A list of items of which nothing is said is a part if it starts high enough. -/
theorem IsPart.of_forall (hstarts : ∀ item ∈ items.head?, rank item ≤ r)
    (h : ∀ item ∈ items, ∀ body, P item body) : IsPart rank r P items :=
  ⟨hstarts, scoped_of_forall h⟩

theorem IsPart.single {item : α} (hrank : rank item ≤ r) (hitem : P item []) :
    IsPart rank r P [item] :=
  .announce hrank (by simp) hitem (by simp)

/-- What is said of items may be said of what stands for them. -/
theorem Scoped.map {β : Type} {other : β → Nat} {f : α → β} {Q : β → List β → Prop}
    (hrank : ∀ item, other (f item) = rank item)
    (h : Scoped rank r (fun item body => Q (f item) (body.map f)) items) :
    Scoped other r Q (items.map f) := by
  have hunder : ∀ items : List α, under other r (items.map f) = (under rank r items).map f := by
    intro items
    simp only [under, List.takeWhile_map, Function.comp_def, hrank]
  induction items with
  | nil => exact scoped_nil
  | cons item items ih =>
    obtain ⟨hitem, hitems⟩ := scoped_cons.1 h
    rw [List.map_cons, scoped_cons, hunder]
    exact ⟨hitem, ih hitems⟩

end

/-! ## The ranks of lines and entries -/

/-- The rank of a line of a kind: bullets are below all headings. -/
def LineKind.rank : LineKind → Nat
  | .heading level => level
  | .bullet depth => 7 + depth

/-- The rank of a line of an outline; what is no line of an outline ends everything. -/
def lineRank (line : String) : Nat :=
  ((lineKind? line).map LineKind.rank).getD 0

/-- The rank of an entry. -/
def Entry.rank (entry : Entry) : Nat :=
  entry.kind.rank

@[simp] theorem rank_heading (level : Nat) (text : String) :
    (Entry.heading level text).rank = max 1 (min level maxHeadingLevel) :=
  rfl

@[simp] theorem rank_bullet (depth : Nat) (text : String) :
    (Entry.bullet depth text).rank = 7 + min depth Lines.maxNesting :=
  rfl

theorem lineRank_line (entry : Entry) : lineRank entry.line = entry.rank := by
  rw [lineRank, lineKind?_line]
  rfl

/-- The lines of a kind among some lines. -/
def countKind (kind : LineKind) (lines : List String) : Nat :=
  lines.countP fun line => lineKind? line = some kind

theorem countKind_lines (kind : LineKind) (entries : List Entry) :
    countKind kind (entries.map Entry.line) = (entries.map Entry.kind).count kind := by
  rw [countKind, List.countP_map, List.count, List.countP_map]
  refine List.countP_congr fun entry _ => ?_
  simp [lineKind?_line]

/-- Where an outline is split into lines, an empty piece stands behind the last one. -/
theorem Scoped.lines {r : Nat} {P : String → List String → Prop} {entries : List Entry}
    (h : Scoped Entry.rank r (fun entry body => P entry.line (body.map Entry.line)) entries)
    (hempty : P "" []) : Scoped lineRank r P (entries.map Entry.line ++ [""]) := by
  have hrank : lineRank "" ≤ r := by
    rw [lineRank, show lineKind? "" = none by decide]
    exact Nat.zero_le r
  have hlast : IsPart lineRank r P [""] := .single hrank hempty
  exact (h.map lineRank_line).append hlast.holds hlast.starts

end ManifestAtlas
