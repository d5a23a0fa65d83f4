import Mathlib.Data.List.Basic
import ManifestAtlas.Files.Path

/-!
# Joined paths

A relative path that is seen from a directory stands behind the text of the
directory, with a slash between them (`Path.join_eq`).  From this follows when
two directories give the same path (`Path.join_eq_join_iff`), and what becomes
of a path that is seen from a directory twice (`Path.join_join_eq_iff`).
-/

namespace ManifestAtlas

theorem splitSlashes_append_cons (front back : List Char) :
    splitSlashes (front ++ '/' :: back) = splitSlashes front ++ splitSlashes back := by
  induction front with
  | nil => simp [splitSlashes]
  | cons c rest ih =>
    rw [List.cons_append, splitSlashes, splitSlashes, ih]
    split
    · rfl
    · obtain ⟨first, more, hsplit⟩ := List.exists_cons_of_ne_nil (Path.splitSlashes_ne_nil rest)
      rw [hsplit]
      rfl

namespace Path

variable {base other rel : Path}

theorem isAbsolute_append (hbase : base.text ≠ "") (text : String) :
    isAbsolute ⟨base.text ++ text⟩ = base.isAbsolute := by
  have hchars : base.text.toList ≠ [] := by simpa using hbase
  rw [isAbsolute, isAbsolute, String.toList_append, List.head?_append_of_ne_nil _ hchars]

/-- What stands in front of a relative path that is seen from a directory. -/
def lead (base : Path) : String :=
  (base.join ⟨""⟩).text

theorem join_eq (hrel : rel.isAbsolute = false) (base : Path) :
    base.join rel = ⟨base.lead ++ rel.text⟩ := by
  have hempty : isAbsolute ⟨""⟩ = false := by decide
  simp only [lead, join, hrel, hempty, Bool.false_or]
  split
  · simp
  · split <;> simp

theorem lead_eq_empty_iff : base.lead = "" ↔ base.text = "" := by
  have hempty : isAbsolute ⟨""⟩ = false := by decide
  simp only [lead, join, hempty, Bool.false_or]
  split
  · simp_all
  · split <;> simp_all

theorem join_eq_join_iff (hrel : rel.isAbsolute = false) :
    base.join rel = other.join rel ↔ base.lead = other.lead := by
  rw [join_eq hrel, join_eq hrel]
  simp

theorem isAbsolute_join (hrel : rel.isAbsolute = false) (hbase : base.text ≠ "") :
    (base.join rel).isAbsolute = base.isAbsolute := by
  rw [join, hrel, Bool.false_or, if_neg (by simpa using hbase)]
  split
  · exact isAbsolute_append hbase _
  · rw [String.append_assoc]
    exact isAbsolute_append hbase _

/-- Seen from a directory a second time, a path is the same if it is absolute, or the directory
is, or if there is no directory. -/
theorem join_join_eq_iff :
    base.join (base.join rel) = base.join rel ↔
      rel.isAbsolute = true ∨ base.isAbsolute = true ∨ base.text = "" := by
  cases hrel : rel.isAbsolute with
  | true => simp [join_of_isAbsolute hrel]
  | false =>
    by_cases hempty : base.text = ""
    · have hjoin : ∀ q : Path, base.join q = q := fun q => by simp [join, hempty]
      simp [hjoin, hempty]
    · have hjoined := isAbsolute_join hrel hempty
      cases hbase : base.isAbsolute with
      | true => simp [join_of_isAbsolute (hjoined.trans hbase)]
      | false =>
        simp only [Bool.false_eq_true, hempty, or_self, iff_false]
        intro heq
        have htext := congrArg text heq
        rw [join_eq (hjoined.trans hbase)] at htext
        exact hempty (lead_eq_empty_iff.1 (by simpa using htext))

end Path

end ManifestAtlas
