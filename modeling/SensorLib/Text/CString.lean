import Mathlib.Data.List.DropRight
import Mathlib.Data.List.TakeWhile

/-! # Texts of a C program

A text is the bytes before its NUL. A pointer into a text is what is left of
the text from there on, so that the pointer is at the NUL when nothing is left.
The classes of characters are those of the "C" locale.
-/

namespace CString

abbrev Text := List UInt8

/-- A literal of the program, without the NUL at its end. -/
def ascii (s : String) : Text := s.toList.map Char.toUInt8

def isspace (b : UInt8) : Bool := b == 32 || (9 ≤ b && b ≤ 13)

def isdigit (b : UInt8) : Bool := 48 ≤ b && b ≤ 57

def isalpha (b : UInt8) : Bool := (65 ≤ b && b ≤ 90) || (97 ≤ b && b ≤ 122)

def isxdigit (b : UInt8) : Bool := isdigit b || (65 ≤ b && b ≤ 70) || (97 ≤ b && b ≤ 102)

def toupper (b : UInt8) : UInt8 := if 97 ≤ b && b ≤ 122 then b - 32 else b

/-- `strncmp` against a literal, for the length of the literal. -/
def startsWith (literal text : Text) : Bool := literal.isPrefixOf text

/-- Bytes are compared without sign. Of the result only the sign is fixed. -/
def strcmp (s t : Text) : Int := if s < t then -1 else if t < s then 1 else 0

/-- The first place at which `needle` stands in a text. -/
def strstr (needle : Text) : Text → Option Text
  | [] => if needle = [] then some [] else none
  | b :: text => if startsWith needle (b :: text) then some (b :: text) else strstr needle text

def skipSpaces (text : Text) : Text := text.dropWhile isspace

/-- The loop that overwrites whitespace at the end with NULs. -/
def trimTrailingWhitespace (text : Text) : Text := text.rdropWhile isspace

/-- `strncpy` into a buffer and a NUL in its last byte. -/
def copyString (size : Nat) (source : Text) : Text := source.take (size - 1)

/-- What is checked of every number that a byte can be. -/
theorem forall_byte {P : UInt8 → Prop} (h : ∀ n < 256, P (.ofNat n)) (b : UInt8) : P b := by
  have hb := h b.toNat b.toNat_lt
  rwa [UInt8.ofNat_toNat] at hb

theorem startsWith_iff {literal text : Text} : startsWith literal text = true ↔ literal <+: text :=
  List.isPrefixOf_iff_prefix

theorem strcmp_pos_iff {s t : Text} : 0 < strcmp s t ↔ t < s := by
  rw [strcmp]
  split
  · rename_i hst
    exact iff_of_false (by decide) (List.lt_asymm hst)
  · split
    · rename_i hts
      exact iff_of_true (by decide) hts
    · rename_i hts
      exact iff_of_false (by decide) hts

theorem isspace_of_isdigit {b : UInt8} (h : isdigit b) : isspace b = false := by
  simp only [isdigit, isspace, Bool.and_eq_true, decide_eq_true_eq] at *
  grind

theorem toupper_eq_zero {b : UInt8} (h : toupper b = 0) : b = 0 := by
  rw [toupper] at h
  split at h
  · rename_i hletter
    rw [Bool.and_eq_true, decide_eq_true_eq, decide_eq_true_eq] at hletter
    grind
  · exact h

theorem skipSpaces_cons {b : UInt8} {text : Text} (hb : isspace b = false) :
    skipSpaces (b :: text) = b :: text := by
  rw [skipSpaces, List.dropWhile_cons, hb]
  rfl

theorem skipSpaces_append {spaces : Text} (h : ∀ b ∈ spaces, isspace b) (text : Text) :
    skipSpaces (spaces ++ text) = skipSpaces text := List.dropWhile_append_of_pos h

theorem skipSpaces_append_eq (text rest : Text) :
    skipSpaces (text ++ rest) =
      if skipSpaces text = [] then skipSpaces rest else skipSpaces text ++ rest := by
  rw [skipSpaces, skipSpaces, skipSpaces, List.dropWhile_append]
  cases text.dropWhile isspace with
  | nil => rfl
  | cons b start => rfl

theorem head_skipSpaces {b : UInt8} {text rest : Text} (h : skipSpaces text = b :: rest) :
    isspace b = false := by
  have hhead := List.head?_dropWhile_not isspace text
  rw [← skipSpaces, h] at hhead
  simpa using hhead

theorem strstr_eq_self {needle text : Text} (h : needle <+: text) :
    strstr needle text = some text := by
  cases text with
  | nil => rw [strstr, if_pos (List.prefix_nil.mp h)]
  | cons b text => rw [strstr, if_pos (startsWith_iff.mpr h)]

theorem strstr_cons_eq_tail {needle text : Text} {b : UInt8} (h : ¬ needle <+: b :: text) :
    strstr needle (b :: text) = strstr needle text := by
  rw [strstr, if_neg (by rwa [startsWith_iff])]

theorem prefix_of_strstr {needle text rest : Text} (h : strstr needle text = some rest) :
    needle <+: rest := by
  induction text with
  | nil =>
    rw [strstr] at h
    split at h
    · rename_i hnil
      rw [hnil]
      exact List.nil_prefix
    · cases h
  | cons b text ih =>
    rw [strstr] at h
    split at h
    · rename_i hstarts
      cases h
      exact startsWith_iff.mp hstarts
    · exact ih h

theorem strstr_suffix {needle text rest : Text} (h : strstr needle text = some rest) :
    rest <:+ text := by
  induction text with
  | nil =>
    rw [strstr] at h
    split at h <;> cases h
    exact List.suffix_rfl
  | cons b text ih =>
    rw [strstr] at h
    split at h
    · cases h
      exact List.suffix_rfl
    · exact (ih h).trans (List.suffix_cons b text)

theorem exists_strstr {needle text : Text} (h : needle <:+: text) : ∃ rest, strstr needle text = some rest := by
  induction text with
  | nil =>
    rw [List.infix_nil.mp h]
    exact ⟨[], rfl⟩
  | cons b text ih =>
    by_cases hfront : needle <+: b :: text
    · exact ⟨b :: text, strstr_eq_self hfront⟩
    · rw [strstr_cons_eq_tail hfront]
      exact ih ((List.infix_cons_iff.mp h).resolve_left hfront)

/-- What is found in a text is found there whatever follows the text. -/
theorem strstr_append {needle text found : Text} (h : strstr needle text = some found) (rest : Text) :
    strstr needle (text ++ rest) = some (found ++ rest) := by
  induction text with
  | nil =>
    rw [strstr] at h
    split at h <;> cases h
    rename_i hnil
    rw [hnil]
    exact strstr_eq_self List.nil_prefix
  | cons b text ih =>
    by_cases hfront : needle <+: b :: text
    · rw [strstr_eq_self hfront] at h
      cases h
      exact strstr_eq_self (hfront.trans (List.prefix_append _ rest))
    · rw [strstr_cons_eq_tail hfront] at h
      have hlength := (prefix_of_strstr h).length_le.trans (strstr_suffix h).length_le
      rw [List.cons_append, strstr_cons_eq_tail, ih h]
      intro hlonger
      refine hfront (List.prefix_of_prefix_length_le hlonger (List.prefix_append (b :: text) rest) ?_)
      rw [List.length_cons]
      omega

end CString
