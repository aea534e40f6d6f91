import Mathlib.Data.List.Infix
import Mathlib.Data.List.TakeWhile

/-! # Sequences of elements with a length

An element is a byte for what it is, a byte for the number of its data bytes,
and the data. No element is a prefix of another, so that a sequence of bytes
has one longest prefix of complete elements.
-/

namespace Elements

structure Element where
  id : UInt8
  data : List UInt8
  short : data.length ≤ 255
  deriving DecidableEq, Repr

def Element.bytes (e : Element) : List UInt8 := e.id :: UInt8.ofNat e.data.length :: e.data

def bytesOf (es : List Element) : List UInt8 := es.flatMap Element.bytes

/-- No element is complete at the front of what is left. -/
def Stuck (rest : List UInt8) : Prop := ∀ e : Element, ¬ e.bytes <+: rest

/-- The elements are a prefix of the bytes, and no longer sequence of elements is. -/
structure IsLongest (bytes : List UInt8) (es : List Element) : Prop where
  isPrefix : bytesOf es <+: bytes
  longest : ∀ others, bytesOf others <+: bytes → (bytesOf others).length ≤ (bytesOf es).length

theorem toNat_length (e : Element) : (UInt8.ofNat e.data.length).toNat = e.data.length := by
  rw [UInt8.toNat_ofNat']
  exact Nat.mod_eq_of_lt (Nat.lt_succ_of_le e.short)

theorem length_bytes (e : Element) : e.bytes.length = 2 + e.data.length := by
  rw [Element.bytes, List.length_cons, List.length_cons]
  omega

@[simp] theorem bytesOf_nil : bytesOf [] = [] := rfl

@[simp] theorem bytesOf_cons (e : Element) (es : List Element) :
    bytesOf (e :: es) = e.bytes ++ bytesOf es := rfl

theorem bytesOf_concat (es : List Element) (e : Element) :
    bytesOf (es ++ [e]) = bytesOf es ++ e.bytes := by
  simp [bytesOf]

/-- An element is determined by the bytes that it is a prefix of. -/
theorem eq_of_isPrefix {e e' : Element} {bytes : List UInt8} (h : e.bytes <+: bytes)
    (h' : e'.bytes <+: bytes) : e = e' := by
  obtain ⟨rest, rfl⟩ := h
  obtain ⟨rest', heq⟩ := h'
  rw [Element.bytes, Element.bytes, List.cons_append, List.cons_append, List.cons_append,
    List.cons_append, List.cons.injEq, List.cons.injEq] at heq
  obtain ⟨hid, hlength, hdata⟩ := heq
  have hlength' := congrArg UInt8.toNat hlength
  rw [toNat_length, toNat_length] at hlength'
  obtain ⟨hdata', -⟩ := List.append_inj hdata hlength'
  cases e
  cases e'
  simp only [Element.mk.injEq]
  exact ⟨hid.symm, hdata'.symm⟩

/-- A sequence of elements is a front part of the elements before a stuck rest. -/
theorem prefix_of_stuck {es others : List Element} {rest : List UInt8} (hstuck : Stuck rest)
    (h : bytesOf others <+: bytesOf es ++ rest) : others <+: es := by
  induction others generalizing es with
  | nil => exact List.nil_prefix
  | cons e others ih =>
    have hfirst : e.bytes <+: bytesOf es ++ rest := (List.prefix_append _ _).trans h
    cases es with
    | nil => exact absurd hfirst (hstuck e)
    | cons e' es =>
      rw [bytesOf_cons, List.append_assoc] at hfirst
      cases eq_of_isPrefix hfirst (List.prefix_append _ _)
      rw [bytesOf_cons, bytesOf_cons, List.append_assoc, List.prefix_append_right_inj] at h
      exact List.cons_prefix_cons.mpr ⟨rfl, ih h⟩

/-- The elements before a stuck rest are the longest. -/
theorem isLongest_of_stuck (es : List Element) {rest : List UInt8} (hstuck : Stuck rest) :
    IsLongest (bytesOf es ++ rest) es := by
  refine ⟨List.prefix_append _ _, fun others hothers => ?_⟩
  obtain ⟨more, rfl⟩ := prefix_of_stuck hstuck hothers
  rw [bytesOf, bytesOf, List.flatMap_append, List.length_append]
  exact Nat.le_add_right _ _

/-- What is left behind the longest sequence is stuck. -/
theorem IsLongest.exists_stuck {bytes : List UInt8} {es : List Element} (h : IsLongest bytes es) :
    ∃ rest, bytes = bytesOf es ++ rest ∧ Stuck rest := by
  obtain ⟨rest, rfl⟩ := h.isPrefix
  refine ⟨rest, rfl, fun e he => ?_⟩
  obtain ⟨more, rfl⟩ := he
  have hlength := h.longest (es ++ [e]) ⟨more, by rw [bytesOf_concat, List.append_assoc]⟩
  rw [bytesOf_concat, List.length_append, length_bytes] at hlength
  omega

theorem exists_isLongest (bytes : List UInt8) : ∃ es, IsLongest bytes es := by
  suffices h : ∃ es rest, bytes = bytesOf es ++ rest ∧ Stuck rest by
    obtain ⟨es, rest, rfl, hstuck⟩ := h
    exact ⟨es, isLongest_of_stuck es hstuck⟩
  induction hn : bytes.length using Nat.strongRecOn generalizing bytes with
  | ind n ih =>
    by_cases hstuck : Stuck bytes
    · exact ⟨[], bytes, rfl, hstuck⟩
    · rw [Stuck, not_forall_not] at hstuck
      obtain ⟨e, more, rfl⟩ := hstuck
      rw [List.length_append, length_bytes] at hn
      obtain ⟨es, rest, rfl, hstuck⟩ := ih more.length (by omega) more rfl
      exact ⟨e :: es, rest, by rw [bytesOf_cons, List.append_assoc], hstuck⟩

/-- A part of an element that lacks some of its bytes. -/
def CutOff (rest : List UInt8) : Prop := ∃ e : Element, rest <+: e.bytes ∧ rest ≠ e.bytes

theorem CutOff.stuck {rest : List UInt8} (h : CutOff rest) : Stuck rest := by
  obtain ⟨e, hfront, hne⟩ := h
  intro e' he'
  cases eq_of_isPrefix (he'.trans hfront) (List.prefix_refl e.bytes)
  exact hne (hfront.eq_of_length (Nat.le_antisymm hfront.length_le he'.length_le))

/-- What is read of a header, and whether the data behind it is complete. -/
theorem stuck_header_iff {id length : UInt8} {rest : List UInt8} :
    Stuck (id :: length :: rest) ↔ rest.length < length.toNat := by
  constructor
  · intro hstuck
    by_contra hlong
    have hlength : (rest.take length.toNat).length = length.toNat := by
      rw [List.length_take]
      omega
    have hshort : (rest.take length.toNat).length ≤ 255 := by
      rw [hlength]
      exact Nat.le_of_lt_succ length.toNat_lt
    refine hstuck ⟨id, rest.take length.toNat, hshort⟩ ⟨rest.drop length.toNat, ?_⟩
    rw [Element.bytes, hlength, UInt8.ofNat_toNat, List.cons_append, List.cons_append,
      List.take_append_drop]
  · intro hshort e he
    rw [Element.bytes, List.cons_prefix_cons, List.cons_prefix_cons] at he
    have hlength := he.2.2.length_le
    rw [← he.2.1, toNat_length] at hshort
    omega

end Elements
