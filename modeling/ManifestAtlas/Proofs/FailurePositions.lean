import ManifestAtlas.Proofs.JsonBounds
import ManifestAtlas.Proofs.TextLines
import ManifestAtlas.Workspace.Load

/-!
# Positions of refused manifests

A manifest that is refused is reported with a line and a column.  Whatever was
wrong with it, that place is in the text: every reader stays in its text
(`Json.Format.stays`), so the failure has read some number of its bytes, and
moving over that many bytes leads to a line of the text and to a column of that
line (`Json.Position.exists_line_advance`).

Main statement: `decode_error_lies_in_text`.
-/

namespace ManifestAtlas

namespace Json

/-! ## Moving over a text -/

theorem byteLength_eq_utf8Len (chars : List Char) : byteLength chars = String.utf8Len chars := by
  induction chars with
  | nil => rfl
  | cons c rest ih => rw [byteLength, ih, String.utf8Len_cons, Nat.add_comm]

theorem byteLength_toList (text : String) : byteLength text.toList = text.utf8ByteSize := by
  rw [byteLength_eq_utf8Len, ← String.utf8ByteSize_ofList, String.ofList_toList]

/-- Moving over bytes of a text ends in one of its lines.  What was read of the first of them
before counts in its column only. -/
theorem Position.exists_line_advance (p : Position) (bytes : Nat) (text : List Char) :
    ∃ k line, (text.splitOn '\n')[k]? = some line ∧ (p.advance bytes text).line = p.line + k ∧
      (p.advance bytes text).column ≤ (if k = 0 then p.column else 0) + byteLength line := by
  -- A line feed puts an empty line in front of those of the rest; any other character makes the
  -- first of them longer.
  fun_induction Position.advance p bytes text with
  | case1 p bytes => exact ⟨0, [], by simp, rfl, Nat.le_refl _⟩
  | case2 p bytes c rest hshort =>
    obtain ⟨first, more, hlines⟩ := List.exists_cons_of_ne_nil (List.splitOn_ne_nil '\n' rest)
    rw [List.splitOn_cons_eq_if_modifyHead, hlines]
    by_cases hc : c = '\n'
    · subst hc
      have hbytes : bytes = 0 := Nat.lt_one_iff.1 hshort
      exact ⟨0, [], by simp, rfl, by simp [hbytes]⟩
    · refine ⟨0, c :: first, by simp [hc], rfl, ?_⟩
      simp only [if_true, byteLength]
      omega
  | case3 p bytes rest hlong ih =>
    obtain ⟨k, line, hline, hcount, hcolumn⟩ := ih
    refine ⟨k + 1, line, ?_, ?_, ?_⟩
    · rw [List.splitOn_cons_eq_if_modifyHead]
      simpa using hline
    · rw [hcount]
      exact Nat.succ_add_eq_add_succ p.line k
    · rw [if_neg (Nat.succ_ne_zero k)]
      simpa using hcolumn
  | case4 p bytes c rest hlong hc ih =>
    obtain ⟨k, line, hline, hcount, hcolumn⟩ := ih
    obtain ⟨first, more, hlines⟩ := List.exists_cons_of_ne_nil (List.splitOn_ne_nil '\n' rest)
    rw [hlines] at hline
    rw [List.splitOn_cons_eq_if_modifyHead, hlines]
    cases k with
    | zero =>
      refine ⟨0, c :: first, by simp [hc], hcount, ?_⟩
      obtain rfl : first = line := by simpa using hline
      simp only [if_true, byteLength] at hcolumn ⊢
      omega
    | succ k => exact ⟨k + 1, line, by simpa [hc] using hline, hcount, by simpa using hcolumn⟩

end Json

/-! ## Refused manifests -/

/-- Every manifest that is refused is refused at a place in its text, namely where the unread part
of it begins.  The line of that place is one of the lines of the text, its column is at most the
length of that line in bytes, and the message ends with both. -/
theorem decode_error_lies_in_text {text : String} {problem : ManifestProblem}
    (h : Manifest.decode text = .error problem) :
    ∃ (failure : Json.Failure) (consumed : Nat) (position : Json.Position),
      Schema.manifest.codec.decode text = .error failure ∧
      consumed + failure.unread = text.utf8ByteSize ∧
      position = Json.Position.advance ⟨1, 0⟩ consumed text.toList ∧
      problem = .malformed position
        s!"{failure.cause.message} at line {position.line} column {position.column}" ∧
      1 ≤ position.line ∧ position.line ≤ 1 + text.toList.count '\n' ∧
      ∃ line, (splitLines text)[position.line - 1]? = some line ∧
        position.column ≤ line.utf8ByteSize := by
  rw [Manifest.decode] at h
  cases hdecode : Schema.manifest.codec.decode text with
  | ok manifest =>
    rw [hdecode] at h
    cases h
  | error failure =>
    rw [hdecode] at h
    cases h
    have hunread : failure.unread ≤ text.utf8ByteSize := by
      rw [← Json.byteLength_toList]
      exact (Json.Format.stays _).liesIn_of_readWhole hdecode
    obtain ⟨k, line, hline, hcount, hcolumn⟩ := Json.Position.exists_line_advance ⟨1, 0⟩
      (text.utf8ByteSize - failure.unread) text.toList
    have hposition : failure.position text =
        Json.Position.advance ⟨1, 0⟩ (text.utf8ByteSize - failure.unread) text.toList := by
      rw [Json.Failure.position, Json.Position.of, Json.byteLength_toList]
    refine ⟨failure, _, failure.position text, rfl, Nat.sub_add_cancel hunread, hposition, rfl, ?_,
      Json.Position.line_of_le _ _, String.ofList line, ?_, ?_⟩
    · rw [hposition, hcount]
      exact Nat.le_add_right 1 k
    · rw [hposition, hcount, Nat.add_sub_cancel_left, splitLines, List.getElem?_map, hline]
      rfl
    · rw [hposition, String.utf8ByteSize_ofList, ← Json.byteLength_eq_utf8Len]
      simpa using hcolumn

/-- A number where a project is wanted is reported behind the number, in the second line. -/
theorem decode_error_behind_number :
    ∃ failure consumed line,
      Schema.manifest.codec.decode "\x7b\n  \"project\": 42\n\x7d" = .error failure ∧
      consumed + failure.unread = 19 ∧
      Json.Position.advance ⟨1, 0⟩ consumed "\x7b\n  \"project\": 42\n\x7d".toList = ⟨2, 15⟩ ∧
      (splitLines "\x7b\n  \"project\": 42\n\x7d")[1]? = some line ∧
      15 ≤ line.utf8ByteSize := by
  have herror : Manifest.decode "\x7b\n  \"project\": 42\n\x7d" =
      .error (.malformed ⟨2, 15⟩
        "invalid type: integer `42`, expected struct ProjectMeta at line 2 column 15") := by
    decide +kernel
  obtain ⟨failure, consumed, position, hdecode, hbytes, hposition, hproblem, -, -, line, hline,
    hcolumn⟩ := decode_error_lies_in_text herror
  obtain ⟨rfl, -⟩ := ManifestProblem.malformed.inj hproblem
  exact ⟨failure, consumed, line, hdecode, hbytes, hposition.symm, hline, hcolumn⟩

end ManifestAtlas
