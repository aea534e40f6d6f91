import SensorLib.Text.CString

/-! # Lines of a text -/

namespace CString

/-- The lines that a newline ends. -/
def terminatedLines (text : Text) : List Text := (text.splitOn 10).dropLast

theorem terminatedLines_append {line : Text} (hline : 10 ∉ line) (rest : Text) :
    terminatedLines (line ++ 10 :: rest) = line :: terminatedLines rest := by
  rw [terminatedLines, List.splitOn_append_cons_self, List.splitOn_eq_singleton hline,
    List.singleton_append, List.dropLast_cons_of_ne_nil (List.splitOn_ne_nil _ _), terminatedLines]

theorem terminatedLines_of_notMem {text : Text} (htext : 10 ∉ text) : terminatedLines text = [] := by
  rw [terminatedLines, List.splitOn_eq_singleton htext, List.dropLast_singleton]

/-! ## What stands behind a line -/

/-- The end of the text, or a newline and other lines. -/
def AfterLine (rest : Text) : Prop := ∀ b ∈ rest.head?, b = 10

theorem afterLine_nil : AfterLine [] := nofun

theorem afterLine_newline (later : Text) : AfterLine (10 :: later) := fun _ h => (Option.some.inj h).symm

/-- The bytes of a class without newline are taken from the line. -/
theorem takeWhile_append_afterLine {p : UInt8 → Bool} (hp : p 10 = false) {rest : Text}
    (hrest : AfterLine rest) (line : Text) :
    (line ++ rest).takeWhile p = line.takeWhile p := by
  have hnone : rest.takeWhile p = [] := by
    cases rest with
    | nil => rfl
    | cons b rest =>
      rw [hrest b rfl]
      exact List.takeWhile_cons_of_neg (by simp [hp])
  rw [List.takeWhile_append, hnone, List.append_nil]
  split
  · rename_i hlength
    exact ((List.takeWhile_prefix p).eq_of_length hlength).symm
  · rfl

theorem exists_afterLine (text : Text) : ∃ line rest, text = line ++ rest ∧ 10 ∉ line ∧ AfterLine rest := by
  refine ⟨text.takeWhile (· ≠ 10), text.dropWhile (· ≠ 10), List.takeWhile_append_dropWhile.symm, ?_, ?_⟩
  · intro hmem
    simpa using List.mem_takeWhile_imp hmem
  · intro b hb
    have hhead := List.head?_dropWhile_not (fun b => decide (b ≠ 10)) text
    rw [Option.mem_def.mp hb] at hhead
    simpa using hhead

/-- What is not in a line and has no newline is looked for in the lines behind it. -/
theorem strstr_newline {needle : Text} (hneedle : 10 ∉ needle) {line : Text} (h : ¬ needle <:+: line)
    (later : Text) : strstr needle (line ++ 10 :: later) = strstr needle (10 :: later) := by
  induction line with
  | nil => rfl
  | cons b line ih =>
    rw [List.infix_cons_iff, not_or] at h
    rw [List.cons_append, strstr_cons_eq_tail, ih h.2]
    intro hfront
    have hline : (b :: line) ++ [10] <+: b :: (line ++ 10 :: later) := ⟨later, by simp⟩
    rcases List.prefix_or_prefix_of_prefix hfront hline with hshort | hlong
    · rcases List.prefix_concat_iff.mp hshort with rfl | hinside
      · exact hneedle (by simp)
      · exact h.1 hinside
    · exact hneedle (hlong.subset (by simp))

end CString
