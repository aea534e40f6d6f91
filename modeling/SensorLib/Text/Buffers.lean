import SensorLib.Text.CString

/-! # Buffers of bytes

An access names the place it is made at, and has no outcome where that is
outside of the buffer.
-/

namespace CString

abbrev Buffer := List UInt8

namespace Buffer

variable (m : Buffer)

def store (i : Nat) (b : UInt8) : Option Buffer := if i < m.length then some (m.set i b) else none

/-- What a call that reads `n` bytes from `i` on finds there. -/
def read (i n : Nat) : Option Text := if i + n ≤ m.length then some ((m.drop i).take n) else none

def write (i : Nat) (data : Text) : Option Buffer :=
  if i + data.length ≤ m.length then some (m.take i ++ data ++ m.drop (i + data.length)) else none

/-- The text at a pointer, up to its NUL. -/
def text (i : Nat) : Option Text :=
  if 0 ∈ m.drop i then some ((m.drop i).takeWhile (· ≠ 0)) else none

def scan (c : UInt8) : Text → Nat → Option (Option Nat)
  | [], _ => none
  | b :: rest, i => if b = c then some (some i) else if b = 0 then some none else scan c rest (i + 1)

/-- Where the byte `c` stands in the text at `i`. -/
def strchr (i : Nat) (c : UInt8) : Option (Option Nat) := scan c (m.drop i) i

/-- The bytes `t` and then a NUL stand at `i`. -/
def Holds (i : Nat) (t : Text) : Prop := ∃ junk, m.drop i = t ++ 0 :: junk

variable {m} {i : Nat} {t : Text}

theorem scan_append {c : UInt8} {line rest : Text} (hc : c ∉ line) (hnul : 0 ∉ line) :
    scan c (line ++ rest) i = scan c rest (i + line.length) := by
  induction line generalizing i with
  | nil => rfl
  | cons b line ih =>
    rw [List.mem_cons, not_or] at hc hnul
    rw [List.cons_append, scan, if_neg (Ne.symm hc.1), if_neg (Ne.symm hnul.1), ih hc.2 hnul.2,
      List.length_cons, Nat.add_right_comm, Nat.add_assoc]

/-- A text ends at the first of its NULs, or else at the one behind it. -/
theorem exists_nul (t junk : Text) :
    ∃ post, t ++ 0 :: junk = t.takeWhile (· ≠ 0) ++ 0 :: post := by
  induction t with
  | nil => exact ⟨junk, rfl⟩
  | cons b t ih =>
    by_cases hb : b = 0
    · exact ⟨t ++ 0 :: junk, by simp [hb]⟩
    · obtain ⟨post, hpost⟩ := ih
      exact ⟨post, by simp [hb, hpost]⟩

namespace Holds

theorem drop {rest : Text} (h : m.Holds i (t ++ rest)) : m.Holds (i + t.length) rest := by
  obtain ⟨junk, hjunk⟩ := h
  refine ⟨junk, ?_⟩
  rw [← List.drop_drop, hjunk, List.append_assoc, List.drop_left]

theorem lt (h : m.Holds i t) : i + t.length < m.length := by
  obtain ⟨junk, hjunk⟩ := h
  have hlength := congrArg List.length hjunk
  rw [List.length_append, List.length_drop, List.length_cons] at hlength
  omega

theorem text_eq (h : m.Holds i t) (hnul : 0 ∉ t) : m.text i = some t := by
  obtain ⟨junk, hjunk⟩ := h
  have hpos : ∀ b ∈ t, decide (b ≠ 0) = true := fun b hb =>
    decide_eq_true fun hzero => hnul (hzero ▸ hb)
  rw [text, hjunk, if_pos (by simp), List.takeWhile_append_of_pos hpos]
  simp

theorem read_eq (h : m.Holds i t) : m.read i t.length = some t := by
  obtain ⟨junk, hjunk⟩ := id h
  rw [read, if_pos h.lt.le, hjunk, List.take_left]

theorem take_eq (h : m.Holds 0 t) : m.take t.length = t := by
  obtain ⟨junk, hjunk⟩ := h
  rw [List.drop_zero] at hjunk
  rw [hjunk, List.take_left]

/-- The byte is found where it stands before every NUL. -/
theorem strchr_found {c : UInt8} {line rest : Text} (h : m.Holds i (line ++ c :: rest))
    (hc : c ∉ line) (hnul : 0 ∉ line) : m.strchr i c = some (some (i + line.length)) := by
  obtain ⟨junk, hjunk⟩ := h
  rw [strchr, hjunk, List.append_assoc, scan_append hc hnul, List.cons_append, scan, if_pos rfl]

/-- No byte is found behind a NUL, where the text ends. -/
theorem strchr_missing {c : UInt8} (h : m.Holds i t) (hzero : c ≠ 0)
    (hc : c ∉ t.takeWhile (· ≠ 0)) : m.strchr i c = some none := by
  obtain ⟨junk, hjunk⟩ := h
  obtain ⟨post, hpost⟩ := exists_nul t junk
  have hnul : 0 ∉ t.takeWhile (· ≠ 0) := fun hmem => by simpa using List.mem_takeWhile_imp hmem
  rw [strchr, hjunk, hpost, scan_append hc hnul, scan, if_neg hzero.symm, if_pos rfl]

/-- The byte at the end of a line is overwritten with a NUL. -/
theorem cut {c : UInt8} {line rest : Text} (h : m.Holds i (line ++ c :: rest)) :
    ∃ m', m.store (i + line.length) 0 = some m' ∧ m'.length = m.length ∧ m'.Holds i line ∧
      m'.Holds (i + line.length + 1) rest := by
  have hlt := h.lt
  rw [List.length_append, List.length_cons] at hlt
  have hrest : m.Holds (i + line.length + 1) rest := by
    have hdrop := @Holds.drop _ _ (line ++ [c]) rest (by simpa using h)
    rwa [List.length_append, ← Nat.add_assoc] at hdrop
  obtain ⟨junk, hjunk⟩ := h
  obtain ⟨junk', hjunk'⟩ := hrest
  refine ⟨_, if_pos (by omega), List.length_set, ⟨rest ++ 0 :: junk, ?_⟩, ⟨junk', ?_⟩⟩
  · rw [List.drop_set, if_neg (by omega), Nat.add_sub_cancel_left, hjunk, List.append_assoc,
      List.set_append_right _ _ le_rfl, Nat.sub_self]
    rfl
  · rw [List.drop_set_of_lt (by omega), hjunk']

theorem getElem?_nul (h : m.Holds i []) : m[i]? = some 0 := by
  obtain ⟨junk, hjunk⟩ := h
  rw [← List.head?_drop, hjunk]
  rfl

theorem getElem?_head {b : UInt8} (h : m.Holds i (b :: t)) : m[i]? = some b := by
  obtain ⟨junk, hjunk⟩ := h
  rw [← List.head?_drop, hjunk]
  rfl

theorem tail {b : UInt8} (h : m.Holds i (b :: t)) : m.Holds (i + 1) t :=
  Holds.drop (t := [b]) h

/-- A byte that is written in front of a text leaves the text. -/
theorem store_before (h : m.Holds i t) {j : Nat} (hj : j < i) (b : UInt8) :
    ∃ m', m.store j b = some m' ∧ m'.length = m.length ∧ m'.Holds i t ∧
      m'.take (j + 1) = m.take j ++ [b] := by
  have hlt := h.lt
  obtain ⟨junk, hjunk⟩ := h
  refine ⟨_, if_pos (by omega), List.length_set, ⟨junk, ?_⟩, ?_⟩
  · rw [List.drop_set_of_lt hj, hjunk]
  · rw [List.take_add_one, List.take_set_of_le le_rfl, List.getElem?_set_self (by omega)]
    rfl

end Holds

/-- A NUL that is written behind some bytes ends them. -/
theorem store_nul {j : Nat} (hj : j < m.length) :
    ∃ m', m.store j 0 = some m' ∧ m'.length = m.length ∧ m'.Holds 0 (m.take j) := by
  refine ⟨_, if_pos hj, List.length_set, ⟨m.drop (j + 1), ?_⟩⟩
  rw [List.drop_zero, List.set_eq_take_append_cons_drop, if_pos hj]

/-- Bytes that are written behind others, with a NUL behind them. -/
theorem write_terminated {data : Text} (h : i + data.length < m.length) :
    ∃ m₁ m₂, m.write i data = some m₁ ∧ m₁.store (i + data.length) 0 = some m₂ ∧
      m₂.length = m.length ∧ m₂.Holds 0 (m.take i ++ data) := by
  have hlength : (m.take i ++ data).length = i + data.length := by
    rw [List.length_append, List.length_take, Nat.min_eq_left (by omega)]
  have htail := List.drop_eq_getElem_cons h
  have hwhole : (m.take i ++ data ++ m.drop (i + data.length)).length = m.length := by
    rw [List.length_append, hlength, List.length_drop]
    omega
  refine ⟨_, _, if_pos h.le, if_pos (by omega), by rw [List.length_set, hwhole],
    ⟨m.drop (i + data.length + 1), ?_⟩⟩
  rw [List.drop_zero, List.set_append_right _ _ hlength.le, hlength, Nat.sub_self, htail]
  rfl

end Buffer

end CString
