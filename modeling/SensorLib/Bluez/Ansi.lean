import SensorLib.Text.Buffers
import Mathlib.Data.List.Infix

/-! # Control sequences in the output of bluetoothctl

`strip_ansi` removes control sequences in place. A sequence runs from its
introducer to its final byte. Bytes from 128 on are no final bytes, whether
`char` is signed or not.
-/

namespace SensorLib.Bluez

open CString

def isFinal (b : UInt8) : Bool := 64 ≤ b && b ≤ 126

/-- An ESC byte and a bracket, which introduce a control sequence. -/
def introducer : Text := [27, 91]

/-- The inner loop, and the step over the final byte, with a bound on the number of bytes. -/
def skipSequence : Nat → Buffer → Nat → Option Nat
  | 0, _, _ => none
  | bound + 1, text, src => do
    let b ← text[src]?
    if b = 0 then some src
    else if isFinal b then some (src + 1)
    else skipSequence bound text (src + 1)

/-- `src[1]` is read only where `src[0]` is an ESC byte. -/
def atIntroducer (text : Buffer) (src : Nat) : Option Bool := do
  let b ← text[src]?
  if b = 27 then
    let c ← text[src + 1]?
    some (c = 91)
  else some false

/-- The loop, with a bound on the number of rounds, and the two positions at the head of every
round. -/
def stripLoop : Nat → Buffer → Nat → Nat → Option (Buffer × List (Nat × Nat))
  | 0, _, _, _ => none
  | bound + 1, text, src, dst => do
    let b ← text[src]?
    if b = 0 then
      let text ← text.store dst 0
      some (text, [(src, dst)])
    else if ← atIntroducer text src then
      let next ← skipSequence text.length text (src + 2)
      let (text, positions) ← stripLoop bound text next dst
      some (text, (src, dst) :: positions)
    else
      let text ← text.store dst b
      let (text, positions) ← stripLoop bound text (src + 1) (dst + 1)
      some (text, (src, dst) :: positions)

def stripAnsi (text : Buffer) : Option (Buffer × List (Nat × Nat)) :=
  stripLoop text.length text 0 0

/-! ## Bytes and sequences -/

/-- A byte that is kept, or a sequence that is removed. The last sequence of a text may be cut
off. -/
inductive Piece
  | byte (b : UInt8)
  | sequence (text : Text)
  deriving DecidableEq, Repr

def Piece.text : Piece → Text
  | .byte b => [b]
  | .sequence text => text

def Piece.kept : Piece → Option UInt8
  | .byte b => some b
  | .sequence _ => none

theorem kept_eq_some {p : Piece} {b : UInt8} : p.kept = some b ↔ p = .byte b := by
  cases p <;> simp [Piece.kept]

/-- A text as bytes and sequences, where `read` is what was read of a sequence so far. -/
def piecesFrom : Option Text → Text → List Piece
  | none, [] => []
  | some read, [] => [.sequence read]
  | some read, b :: text =>
    if isFinal b then .sequence (read ++ [b]) :: piecesFrom none text
    else piecesFrom (some (read ++ [b])) text
  | none, 27 :: 91 :: text => piecesFrom (some introducer) text
  | none, b :: text => .byte b :: piecesFrom none text

def pieces (text : Text) : List Piece := piecesFrom none text

/-- The text without its sequences. -/
def stripped (text : Text) : Text := (pieces text).filterMap Piece.kept

/-- An ESC byte and a bracket with nothing but sequences between them, and at least one. -/
def Joins (ps : List Piece) : Prop :=
  ∃ between, between ≠ [] ∧ (∀ p ∈ between, p.kept = none) ∧
    .byte 27 :: between ++ [.byte 91] <:+: ps

theorem piecesFrom_text (read : Option Text) (text : Text) :
    (piecesFrom read text).flatMap Piece.text = read.getD [] ++ text := by
  fun_induction piecesFrom read text with
  | case1 => rfl
  | case2 read => simp [Piece.text]
  | case3 read b text hb ih => simp [Piece.text, ih]
  | case4 read b text hb ih => simp [ih]
  | case5 text ih => exact ih
  | case6 b text h ih => simp [Piece.text, ih]

/-- The pieces of a text are the text. -/
theorem pieces_text (text : Text) : (pieces text).flatMap Piece.text = text :=
  piecesFrom_text none text

/-! ## The loop and the pieces -/

/-- What is left of a text behind the sequence that it begins in. -/
def afterSequence : Text → Text
  | [] => []
  | b :: text => if isFinal b then text else afterSequence text

theorem kept_afterSequence (read text : Text) :
    (piecesFrom (some read) text).filterMap Piece.kept = stripped (afterSequence text) := by
  induction text generalizing read with
  | nil => rfl
  | cons b text ih =>
    rw [piecesFrom, afterSequence]
    split
    · rfl
    · exact ih (read ++ [b])

theorem stripped_introducer (text : Text) :
    stripped (27 :: 91 :: text) = stripped (afterSequence text) :=
  kept_afterSequence introducer text

theorem pieces_byte {b : UInt8} {text : Text} (h : ¬ introducer <+: b :: text) :
    pieces (b :: text) = .byte b :: pieces text := by
  rw [pieces, piecesFrom, pieces]
  intro rest hb htext
  refine h ?_
  rw [hb, htext]
  exact List.prefix_append introducer rest

theorem stripped_byte {b : UInt8} {text : Text} (h : ¬ introducer <+: b :: text) :
    stripped (b :: text) = b :: stripped text := by
  rw [stripped, pieces_byte h]
  rfl

theorem afterSequence_suffix (text : Text) : afterSequence text <:+ text := by
  induction text with
  | nil => exact List.suffix_rfl
  | cons b text ih =>
    rw [afterSequence]
    split
    · exact List.suffix_cons b text
    · exact ih.trans (List.suffix_cons b text)

theorem skipSequence_eq {bound src : Nat} {m : Buffer} {text : Text} (hbound : text.length < bound)
    (h : m.Holds src text) (hnul : 0 ∉ text) :
    ∃ next, skipSequence bound m src = some next ∧ src ≤ next ∧
      m.Holds next (afterSequence text) := by
  induction bound generalizing src text with
  | zero => omega
  | succ bound ih =>
    cases text with
    | nil => exact ⟨src, by simp [skipSequence, h.getElem?_nul], le_rfl, h⟩
    | cons b text =>
      rw [List.mem_cons, not_or] at hnul
      by_cases hb : isFinal b
      · refine ⟨src + 1, ?_, Nat.le_succ src, ?_⟩
        · simp [skipSequence, h.getElem?_head, Ne.symm hnul.1, hb]
        · rw [afterSequence, if_pos hb]
          exact h.tail
      · rw [List.length_cons] at hbound
        obtain ⟨next, hskip, hnext, hholds⟩ := ih (by omega) h.tail hnul.2
        refine ⟨next, ?_, by omega, ?_⟩
        · simp [skipSequence, h.getElem?_head, Ne.symm hnul.1, hb, hskip]
        · rw [afterSequence, if_neg hb]
          exact hholds

/-- Whether the text at `src` begins with an introducer. -/
theorem atIntroducer_eq {src : Nat} {m : Buffer} {text : Text} (h : m.Holds src text) :
    atIntroducer m src = some (decide (introducer <+: text)) := by
  cases text with
  | nil => simp [atIntroducer, h.getElem?_nul, introducer]
  | cons b text =>
    by_cases hb : b = 27
    · subst hb
      cases text with
      | nil => simp [atIntroducer, h.getElem?_head, h.tail.getElem?_nul, introducer]
      | cons c text =>
        simp [atIntroducer, h.getElem?_head, h.tail.getElem?_head, introducer, eq_comm (a := c)]
    · simp [atIntroducer, h.getElem?_head, introducer, hb, Ne.symm hb]

theorem exists_of_introducer {text : Text} (h : introducer <+: text) :
    ∃ rest, text = 27 :: 91 :: rest := by
  obtain ⟨rest, rfl⟩ := h
  exact ⟨rest, rfl⟩

/-- What is kept of the rest of the text goes behind what was kept before. -/
theorem stripLoop_eq {bound src dst : Nat} {m : Buffer} {rest : Text} (hbound : rest.length < bound)
    (h : m.Holds src rest) (hnul : 0 ∉ rest) (hdst : dst ≤ src) :
    ∃ m' positions, stripLoop bound m src dst = some (m', positions) ∧
      m'.length = m.length ∧ m'.Holds 0 (m.take dst ++ stripped rest) ∧
      ∀ x ∈ positions, x.2 ≤ x.1 := by
  induction bound generalizing src dst m rest with
  | zero => omega
  | succ bound ih =>
    have hlt := h.lt
    have hat := atIntroducer_eq h
    cases rest with
    | nil =>
      obtain ⟨m', hstore, hlength, hholds⟩ := Buffer.store_nul (m := m) (j := dst) (by omega)
      refine ⟨m', [(src, dst)], by simp [stripLoop, h.getElem?_nul, hstore], hlength, ?_, by simpa⟩
      rw [show stripped [] = [] from rfl, List.append_nil]
      exact hholds
    | cons b rest =>
      have hzero : b ≠ 0 := fun hb => hnul (hb ▸ List.mem_cons_self)
      have hhead := h.getElem?_head
      rw [List.length_cons] at hbound hlt
      by_cases hintroducer : introducer <+: b :: rest
      · rw [decide_eq_true hintroducer] at hat
        obtain ⟨rest', heq⟩ := exists_of_introducer hintroducer
        cases heq
        rw [List.length_cons] at hbound hlt
        -- The text behind the introducer is skipped up to the final byte.
        have hnul' : 0 ∉ rest' := fun hmem => hnul (by simp [hmem])
        obtain ⟨next, hskip, hnext, hholds⟩ :=
          @skipSequence_eq m.length _ _ _ (by omega) h.tail.tail hnul'
        have hsuffix := afterSequence_suffix rest'
        have hlength := hsuffix.length_le
        obtain ⟨m', positions, hloop, hm', hresult, hpositions⟩ :=
          @ih next dst _ _ (by omega) hholds (fun hmem => hnul' (hsuffix.subset hmem)) (by omega)
        refine ⟨m', (src, dst) :: positions, ?_, hm', ?_, ?_⟩
        · simp [stripLoop, hhead, hat, hskip, hloop]
        · rw [stripped_introducer]
          exact hresult
        · exact List.forall_mem_cons.mpr ⟨hdst, hpositions⟩
      · rw [decide_eq_false hintroducer] at hat
        obtain ⟨m', hstore, hm', hholds, htake⟩ :=
          h.tail.store_before (j := dst) (by omega) b
        obtain ⟨m'', positions, hloop, hm'', hresult, hpositions⟩ :=
          @ih (src + 1) (dst + 1) _ _ (by omega) hholds (fun hmem => hnul (by simp [hmem])) (by omega)
        refine ⟨m'', (src, dst) :: positions, ?_, hm''.trans hm', ?_, ?_⟩
        · simp [stripLoop, hhead, hzero, hat, hstore, hloop]
        · rw [stripped_byte hintroducer]
          rw [htake, List.append_assoc, List.singleton_append] at hresult
          exact hresult
        · exact List.forall_mem_cons.mpr ⟨hdst, hpositions⟩

/-- The text in the buffer becomes what is kept of it. -/
theorem stripAnsi_eq {m : Buffer} {text : Text} (h : m.Holds 0 text) (hnul : 0 ∉ text) :
    ∃ m' positions, stripAnsi m = some (m', positions) ∧ m'.Holds 0 (stripped text) ∧
      ∀ x ∈ positions, x.2 ≤ x.1 := by
  have hlt := h.lt
  obtain ⟨m', positions, hloop, -, hresult, hpositions⟩ :=
    @stripLoop_eq m.length _ 0 _ _ (by omega) h hnul le_rfl
  exact ⟨m', positions, hloop, hresult, hpositions⟩

/-! ## Sequences that removal makes -/

theorem piecesFrom_some (read text : Text) :
    ∃ sequence ps, piecesFrom (some read) text = .sequence sequence :: ps := by
  induction text generalizing read with
  | nil => exact ⟨read, [], rfl⟩
  | cons b text ih =>
    rw [piecesFrom]
    split
    · exact ⟨_, _, rfl⟩
    · exact ih (read ++ [b])

/-- A text whose first piece is a byte begins with that byte. -/
theorem head_of_byte {b : UInt8} {text : Text} (h : [.byte b] <+: pieces text) :
    [b] <+: text := by
  cases text with
  | nil => cases List.prefix_nil.mp h
  | cons c text =>
    by_cases hintroducer : introducer <+: c :: text
    · obtain ⟨rest, heq⟩ := exists_of_introducer hintroducer
      cases heq
      obtain ⟨sequence, ps, hps⟩ := piecesFrom_some introducer rest
      rw [pieces, piecesFrom, hps, List.cons_prefix_cons] at h
      cases h.1
    · rw [pieces_byte hintroducer, List.cons_prefix_cons, Piece.byte.injEq] at h
      rw [h.1]
      exact List.prefix_append [c] text

/-- An ESC byte that is kept does not stand right before a bracket that is kept. -/
theorem not_adjacent (text : Text) : ¬ [.byte 27, .byte 91] <:+: pieces text := by
  suffices hfrom : ∀ read, ¬ [.byte 27, .byte 91] <:+: piecesFrom read text from hfrom none
  intro read
  fun_induction piecesFrom read text with
  | case1 => simp
  | case2 read => simp [List.infix_cons_iff]
  | case3 read b text hb ih => simpa [List.infix_cons_iff] using ih
  | case4 read b text hb ih => exact ih
  | case5 text ih => exact ih
  | case6 b text h ih =>
    rw [List.infix_cons_iff, not_or]
    refine ⟨fun hfront => ?_, ih⟩
    rw [List.cons_prefix_cons, Piece.byte.injEq] at hfront
    obtain ⟨rest, rfl⟩ := head_of_byte hfront.2
    exact h rest hfront.1.symm rfl

theorem stripped_sublist (text : Text) : (stripped text).Sublist text := by
  have hpieces : ∀ ps : List Piece, (ps.filterMap Piece.kept).Sublist (ps.flatMap Piece.text) := by
    intro ps
    induction ps with
    | nil => exact List.Sublist.slnil
    | cons p ps ih =>
      cases p with
      | byte b => exact ih.cons_cons b
      | sequence read => exact ih.trans (List.sublist_append_right read _)
  have hsublist := hpieces (pieces text)
  rwa [pieces_text] at hsublist

theorem stripped_eq_self {text : Text} (h : ¬ introducer <:+: text) : stripped text = text := by
  induction text with
  | nil => rfl
  | cons b text ih =>
    rw [List.infix_cons_iff, not_or] at h
    rw [stripped_byte h.1, ih h.2]

/-- An introducer is left over just if a kept ESC byte and a kept bracket are joined. -/
theorem introducer_infix_stripped_iff (text : Text) :
    introducer <:+: stripped text ↔ Joins (pieces text) := by
  constructor
  · rintro ⟨front, back, heq⟩
    rw [introducer, List.append_assoc, stripped, eq_comm] at heq
    obtain ⟨ps₁, ps₂, hps, -, hkept⟩ := List.filterMap_eq_append_iff.mp heq
    obtain ⟨skipped, p, ps₃, rfl, -, hp, hkept⟩ := List.filterMap_eq_cons_iff.mp hkept
    obtain ⟨between, q, ps₄, rfl, hbetween, hq, -⟩ := List.filterMap_eq_cons_iff.mp hkept
    rw [kept_eq_some] at hp hq
    subst hp hq
    refine ⟨between, ?_, hbetween, ps₁ ++ skipped, ps₄, by rw [hps]; simp⟩
    rintro rfl
    exact not_adjacent text ⟨ps₁ ++ skipped, ps₄, by rw [hps]; simp⟩
  · rintro ⟨between, -, hbetween, front, back, heq⟩
    have hnone : between.filterMap Piece.kept = [] := List.filterMap_eq_nil_iff.mpr hbetween
    refine ⟨front.filterMap Piece.kept, back.filterMap Piece.kept, ?_⟩
    rw [stripped, ← heq]
    simp [hnone, Piece.kept, introducer]

/-- What is asked of the removal of sequences, for a text and the rounds of the loop. -/
structure RemovesSequences (text result : Text) (buffer : Buffer) (positions : List (Nat × Nat)) :
    Prop where
  removed : ¬ introducer <:+: result
  sublist : result.Sublist text
  unchanged : ¬ introducer <:+: text → result = text
  again : ∃ buffer' positions', stripAnsi buffer = some (buffer', positions') ∧
    buffer'.Holds 0 result
  behind : ∀ x ∈ positions, x.2 ≤ x.1

/-- The removal does what is asked just if it joins no bytes to a new introducer. -/
theorem stripAnsi_removes_iff {m : Buffer} {text : Text} (h : m.Holds 0 text) (hnul : 0 ∉ text) :
    ∃ m' result positions, stripAnsi m = some (m', positions) ∧ m'.Holds 0 result ∧ 0 ∉ result ∧
      (RemovesSequences text result m' positions ↔ ¬ Joins (pieces text)) := by
  obtain ⟨m', positions, hstrip, hholds, hbehind⟩ := stripAnsi_eq h hnul
  have hsublist := stripped_sublist text
  have hnul' : 0 ∉ stripped text := fun hmem => hnul (hsublist.subset hmem)
  refine ⟨m', stripped text, positions, hstrip, hholds, hnul', ?_⟩
  rw [← introducer_infix_stripped_iff]
  constructor
  · exact fun hremoves => hremoves.removed
  · intro hremoved
    obtain ⟨m'', positions', hagain, hholds', -⟩ := stripAnsi_eq hholds hnul'
    rw [stripped_eq_self hremoved] at hholds'
    exact ⟨hremoved, hsublist, stripped_eq_self, ⟨m'', positions', hagain, hholds'⟩, hbehind⟩

/-- A name in red. -/
theorem stripAnsi_removes_red :
    ∃ m' result positions, stripAnsi (ascii "\x1b[31mred" ++ [0]) = some (m', positions) ∧
      m'.Holds 0 result ∧ 0 ∉ result ∧
      (RemovesSequences (ascii "\x1b[31mred") result m' positions ↔
        ¬ Joins (pieces (ascii "\x1b[31mred"))) :=
  stripAnsi_removes_iff ⟨[], rfl⟩ (by decide)

/-- The removal of a sequence between an ESC byte and a bracket leaves an introducer. -/
theorem stripAnsi_joins :
    (stripAnsi (ascii "\x1b\x1b[m[31mred" ++ [0])).bind (fun out => out.1.text 0) =
        some (ascii "\x1b[31mred") ∧
      introducer <:+: ascii "\x1b[31mred" := by
  decide

end SensorLib.Bluez
