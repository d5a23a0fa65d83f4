import Mathlib.Data.List.TakeWhile
import ManifestAtlas.Proofs.AncestorPaths
import ManifestAtlas.Proofs.ProperTrees

/-!
# Long paths

A path can be spelled with more slashes than it takes, and leads to the same
place as long as the system takes it: at most `maxPathBytes` bytes
(`Disk.resolve_slashes`).  Then a name of an ordinary length behind it can make
a path that is too long (`not_isOpenable_longName`), although there is a
directory of that name.
-/

namespace ManifestAtlas

open FileTree

/-! ## Many slashes -/

theorem utf8ByteSize_replicate (c : Char) (n : Nat) :
    (String.ofList (List.replicate n c)).utf8ByteSize = n * c.utf8Size := by
  induction n with
  | zero => simp
  | succ n ih =>
    rw [List.replicate_succ, String.ofList_cons, String.utf8ByteSize_append, ih, Nat.succ_mul,
      Nat.add_comm, String.utf8ByteSize_singleton]

theorem eq_of_mem_replicate {c d : Char} {n : Nat}
    (h : d ∈ (String.ofList (List.replicate n c)).toList) : d = c := by
  rw [String.toList_ofList] at h
  exact List.eq_of_mem_replicate h

theorem splitSlashes_replicate (n : Nat) :
    splitSlashes (List.replicate n '/') = List.replicate (n + 1) [] := by
  induction n with
  | zero => rfl
  | succ n ih => rw [List.replicate_succ, splitSlashes, if_pos rfl, ih, ← List.replicate_succ]

namespace Path

/-- The root, spelled with some slashes more than it takes. -/
def slashes (n : Nat) : Path :=
  ⟨String.ofList (List.replicate (n + 1) '/')⟩

theorem utf8ByteSize_slashes (n : Nat) : (slashes n).text.utf8ByteSize = n + 1 := by
  have hslash : '/'.utf8Size = 1 := by decide
  rw [slashes, utf8ByteSize_replicate, hslash, Nat.mul_one]

theorem slashes_ne_empty (n : Nat) : (slashes n).text ≠ "" := by
  simp [slashes]

theorem isAbsolute_slashes (n : Nat) : (slashes n).isAbsolute = true := by
  simp [isAbsolute, slashes, List.replicate_succ]

theorem segments_slashes (n : Nat) : (slashes n).segments = List.replicate (n + 1) "" := by
  rw [segments, isAbsolute_slashes]
  simp [slashes, List.replicate_succ, splitSlashes_replicate]

/-- One step above a name behind slashes is the root. -/
theorem parent?_slashes_child {name : String} (hname : IsFileName name) (n : Nat) :
    ((slashes n).child name).parent? = some ⟨"/"⟩ := by
  obtain ⟨front, hchild, hbase⟩ := segments_child hname (slashes n)
  have hidle : ∀ s ∈ front, isIdle s = true := by
    intro s hs
    have hmem : s ∈ (slashes n).segments := by
      rcases hbase with hbase | hbase <;> simp [hbase, hs]
    rw [segments_slashes] at hmem
    rw [List.eq_of_mem_replicate hmem]
    decide
  have hlast : trimIdle (front ++ [name]) = front ++ [name] := by
    simp [trimIdle, hname.notIdle]
  have hfront : trimIdle front = [] := by
    rw [trimIdle, List.reverse_eq_nil_iff, List.dropWhile_eq_nil_iff]
    simpa using hidle
  rw [parent?, isAbsolute_child hname (slashes_ne_empty n), isAbsolute_slashes, hchild,
    trimmed_true, hlast]
  simp only [List.reverse_append, List.reverse_singleton, List.singleton_append,
    List.reverse_reverse, trimmed_true, hfront]
  decide

theorem ancestorsWithin_root (fuel : Nat) : ancestorsWithin fuel ⟨"/"⟩ = [⟨"/"⟩] := by
  have hparent : parent? ⟨"/"⟩ = none := by decide
  cases fuel with
  | zero => rfl
  | succ fuel => rw [ancestorsWithin, hparent]

theorem ancestors_slashes_child {name : String} (hname : IsFileName name) (n : Nat) :
    ((slashes n).child name).ancestors = [(slashes n).child name, ⟨"/"⟩] := by
  obtain ⟨front, hchild, -⟩ := segments_child hname (slashes n)
  rw [ancestors, hchild, List.length_append, List.length_singleton, ancestorsWithin,
    parent?_slashes_child hname]
  dsimp only
  rw [ancestorsWithin_root]

end Path

/-- Slashes lead to the root, as long as there are not too many. -/
theorem Disk.resolve_slashes {n : Nat} (hn : n < maxPathBytes) (disk : Disk) :
    disk.resolve .look (.slashes n) = .ok (.present [] .directory) := by
  have husable : (Path.slashes n).IsUsable := by
    refine ⟨?_, ?_, ?_⟩
    · simp [Path.slashes]
    · simp [Path.slashes, List.replicate_succ]
    · rw [Path.utf8ByteSize_slashes]
      exact hn
  rw [Disk.resolve_of_isUsable husable, Disk.startOf, Path.isAbsolute_slashes,
    Path.segments_slashes]
  exact (leads_of_isLast (by simp [isLast])).follow maxLinks

/-! ## A long name -/

/-- A name that is long, but no longer than the name of an entry may be. -/
def longName : String :=
  String.ofList (List.replicate 200 'a')

theorem utf8ByteSize_longName : longName.utf8ByteSize = 200 :=
  (utf8ByteSize_replicate 'a' 200).trans (by decide)

theorem longName_ne {s : String} (h : s.utf8ByteSize ≠ 200) : longName ≠ s := by
  rintro rfl
  exact h utf8ByteSize_longName

theorem isFileName_longName : IsFileName longName := by
  have hmem : ∀ c ∈ longName.toList, c = 'a' := fun _ => eq_of_mem_replicate
  refine ⟨⟨?_, longName_ne (by decide), ?_⟩, fun h => ?_, fun h => ?_⟩
  · simp [isIdle, longName_ne (s := "") (by decide), longName_ne (s := ".") (by decide)]
  · rw [utf8ByteSize_longName]
    decide
  · exact absurd (hmem _ h) (by decide)
  · exact absurd (hmem _ h) (by decide)

theorem not_isOpenable_longName {n : Nat} (h : maxPathBytes ≤ n + 200) :
    ¬ ((Path.slashes n).below [longName]).IsOpenable := by
  have hsize := Path.utf8ByteSize_add_le_child isFileName_longName (.slashes n)
  rw [Path.utf8ByteSize_slashes, utf8ByteSize_longName] at hsize
  rw [Path.below_singleton, Path.IsOpenable]
  omega

end ManifestAtlas
