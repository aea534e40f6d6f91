import SensorLib.Text.CString

/-! # Pieces of a text

Lines and words as `strtok_r`, `getline` and `>>` read them, one after the
other.
-/

namespace CString

/-- A loop over the pieces of a text, with a bound on their number. -/
def readLoop {σ : Type} (next : Text → Option (Text × Text)) (step : σ → Text → σ) :
    Nat → Text → σ → σ
  | 0, _, s => s
  | bound + 1, text, s =>
    match next text with
    | none => s
    | some (piece, rest) => readLoop next step bound rest (step s piece)

/-- `next` reads the pieces of a text one after the other. -/
structure Reads (next : Text → Option (Text × Text)) (pieces : Text → List Text) : Prop where
  none {text : Text} : next text = none → pieces text = []
  some {text piece rest : Text} : next text = some (piece, rest) →
    pieces text = piece :: pieces rest ∧ rest.length < text.length

/-- The loop goes over the pieces. -/
theorem Reads.readLoop_eq {σ : Type} {next : Text → Option (Text × Text)}
    {pieces : Text → List Text} (h : Reads next pieces) (step : σ → Text → σ) {bound : Nat}
    {text : Text} (hbound : text.length ≤ bound) (s : σ) :
    readLoop next step bound text s = (pieces text).foldl step s := by
  induction bound generalizing text s with
  | zero =>
    cases hnext : next text with
    | none =>
      rw [h.none hnext]
      rfl
    | some read =>
      have hlength := (h.some hnext).2
      omega
  | succ bound ih =>
    rw [readLoop]
    cases hnext : next text with
    | none =>
      rw [h.none hnext]
      rfl
    | some read =>
      obtain ⟨hpieces, hlength⟩ := h.some hnext
      rw [hpieces, List.foldl_cons]
      exact ih (by omega) _

/-! ## Words between separators -/

/-- The pieces between separators that are not empty. -/
def wordsBy (p : UInt8 → Bool) (text : Text) : List Text := (text.splitOnP p).filter (· ≠ [])

section

variable {p : UInt8 → Bool}

theorem wordsBy_append {b : UInt8} (hb : p b) (text more : Text) :
    wordsBy p (text ++ b :: more) = wordsBy p text ++ wordsBy p more := by
  rw [wordsBy, List.splitOnP_append_cons _ _ hb, List.filter_append, wordsBy, wordsBy]

theorem wordsBy_of_forall {text : Text} (h : ∀ b ∈ text, p b = false) :
    wordsBy p text = if text = [] then [] else [text] := by
  rw [wordsBy, List.splitOnP_eq_singleton h]
  by_cases hnil : text = [] <;> simp [hnil]

/-- A separator in front of a text makes no word. -/
theorem wordsBy_cons {b : UInt8} (hb : p b) (text : Text) : wordsBy p (b :: text) = wordsBy p text :=
  wordsBy_append hb [] text

theorem wordsBy_dropWhile (text : Text) : wordsBy p (text.dropWhile p) = wordsBy p text := by
  induction text with
  | nil => rfl
  | cons b text ih =>
    by_cases hb : p b
    · rw [List.dropWhile_cons_of_pos hb, ih, wordsBy_cons hb]
    · rw [List.dropWhile_cons_of_neg hb]

/-- A text is a word, or a word, a separator and more. -/
theorem word_cases (p : UInt8 → Bool) (text : Text) :
    (∀ b ∈ text, p b = false) ∨
      ∃ word b rest, text = word ++ b :: rest ∧ (∀ b ∈ word, p b = false) ∧ p b := by
  induction text with
  | nil => exact .inl nofun
  | cons b text ih =>
    by_cases hb : p b
    · exact .inr ⟨[], b, text, rfl, nofun, hb⟩
    · rw [Bool.not_eq_true] at hb
      rcases ih with hword | ⟨word, c, rest, rfl, hword, hc⟩
      · exact .inl (List.forall_mem_cons.mpr ⟨hb, hword⟩)
      · exact .inr ⟨b :: word, c, rest, rfl, List.forall_mem_cons.mpr ⟨hb, hword⟩, hc⟩

/-- The first word of a text that does not begin with a separator, and the words behind it. -/
theorem wordsBy_eq_cons {text : Text} (hne : text ≠ []) (hhead : ∀ b ∈ text.head?, p b = false) :
    wordsBy p text = text.takeWhile (fun b => !p b) :: wordsBy p (text.dropWhile fun b => !p b) := by
  rcases word_cases p text with hword | ⟨word, b, rest, rfl, hword, hb⟩
  · have hword' : ∀ b ∈ text, (!p b) = true := fun b hmem => by simp [hword b hmem]
    rw [wordsBy_of_forall hword, if_neg hne, List.takeWhile_eq_self_iff.mpr hword',
      List.dropWhile_eq_nil_iff.mpr hword']
    rfl
  · have hword' : ∀ b ∈ word, (!p b) = true := fun b hmem => by simp [hword b hmem]
    have hne' : word ≠ [] := by
      rintro rfl
      simp [hhead b rfl] at hb
    rw [wordsBy_append hb, wordsBy_of_forall hword, if_neg hne',
      List.takeWhile_append_of_pos hword', List.dropWhile_append_of_pos hword']
    simp [hb, wordsBy_cons hb]

/-- The separator behind a word may be left out. -/
theorem wordsBy_drop (text : Text) :
    wordsBy p ((text.dropWhile fun b => !p b).drop 1) = wordsBy p (text.dropWhile fun b => !p b) := by
  have hhead := List.head?_dropWhile_not (fun b => !p b) text
  cases hrest : text.dropWhile fun b => !p b with
  | nil => rfl
  | cons b rest =>
    rw [hrest] at hhead
    exact (wordsBy_cons (by simpa using hhead) rest).symm

theorem head_dropWhile {b : UInt8} {text : Text} (hb : b ∈ (text.dropWhile p).head?) : p b = false := by
  have hnot := List.head?_dropWhile_not p text
  rw [Option.mem_def.mp hb] at hnot
  simpa using hnot

theorem mem_wordsBy_of_forall {text word : Text} (htext : ∀ b ∈ text, p b = false)
    (h : word ∈ wordsBy p text) : word = text := by
  rw [wordsBy_of_forall htext] at h
  split at h
  · cases h
  · exact List.mem_singleton.mp h

/-- A word is a part of the text without separators. -/
theorem infix_of_mem_wordsBy {text word : Text} (h : word ∈ wordsBy p text) :
    word <:+: text ∧ ∀ b ∈ word, p b = false := by
  induction hn : text.length using Nat.strongRecOn generalizing text with
  | ind n ih =>
    rcases word_cases p text with htext | ⟨first, b, rest, rfl, hfirst, hb⟩
    · rw [mem_wordsBy_of_forall htext h]
      exact ⟨List.infix_rfl, htext⟩
    · rw [wordsBy_append hb, List.mem_append] at h
      rcases h with hmem | hlater
      · rw [mem_wordsBy_of_forall hfirst hmem]
        exact ⟨(List.prefix_append first _).isInfix, hfirst⟩
      · rw [List.length_append, List.length_cons] at hn
        obtain ⟨hpart, hword⟩ := ih rest.length (by omega) hlater rfl
        exact ⟨hpart.trans ⟨first ++ [b], [], by simp⟩, hword⟩

end

/-! ## Tokens -/

/-- `strtok_r` for newlines: the next token and what is left behind it. -/
def strtokR (text : Text) : Option (Text × Text) :=
  let start := text.dropWhile (· == 10)
  if start = [] then none
  else some (start.takeWhile (· != 10), (start.dropWhile (· != 10)).drop 1)

/-- The lines that are not empty. -/
def tokens (text : Text) : List Text := wordsBy (· == 10) text

theorem tokens_append (text more : Text) : tokens (text ++ 10 :: more) = tokens text ++ tokens more :=
  wordsBy_append rfl text more

theorem reads_strtokR : Reads strtokR tokens where
  none {text} h := by
    rw [strtokR] at h
    split at h
    · rename_i hstart
      rw [tokens, ← wordsBy_dropWhile, hstart]
      rfl
    · cases h
  some {text piece rest} h := by
    rw [strtokR] at h
    split at h
    · cases h
    · rename_i hstart
      cases h
      refine ⟨?_, ?_⟩
      · rw [tokens, ← wordsBy_dropWhile, wordsBy_eq_cons hstart (fun b => head_dropWhile), ← wordsBy_drop]
        rfl
      · have hlength := (List.dropWhile_suffix (· == 10) (l := text)).length_le
        generalize text.dropWhile (· == 10) = start at *
        have hlength' := (List.dropWhile_suffix (· != 10) (l := start)).length_le
        have hpos := List.length_pos_iff.mpr hstart
        rw [List.length_drop]
        omega

/-! ## Lines -/

/-- `getline` into a string: the next line and what is left behind it. -/
def getline (text : Text) : Option (Text × Text) :=
  if text = [] then none else some (text.takeWhile (· != 10), (text.dropWhile (· != 10)).drop 1)

/-- The lines of a text, of which the last need not end with a newline. -/
def lines (text : Text) : List Text :=
  let parts := text.splitOn 10
  if parts.getLast? = some [] then parts.dropLast else parts

theorem lines_append {line : Text} (hline : 10 ∉ line) (rest : Text) :
    lines (line ++ 10 :: rest) = line :: lines rest := by
  have hne := List.splitOn_ne_nil (10 : UInt8) rest
  rw [lines, List.splitOn_append_cons_self_of_not_mem hline, lines]
  generalize rest.splitOn 10 = parts at *
  cases parts with
  | nil => exact absurd rfl hne
  | cons part parts =>
    rw [List.getLast?_cons_cons, List.dropLast_cons_of_ne_nil (List.cons_ne_nil _ _)]
    split
    · rfl
    · rfl

theorem lines_of_notMem {text : Text} (htext : 10 ∉ text) :
    lines text = if text = [] then [] else [text] := by
  rw [lines, List.splitOn_eq_singleton htext]
  by_cases hnil : text = [] <;> simp [hnil]

theorem reads_getline : Reads getline lines where
  none {text} h := by
    rw [getline] at h
    split at h
    · rename_i hnil
      rw [hnil]
      rfl
    · cases h
  some {text piece rest} h := by
    rw [getline] at h
    split at h
    · cases h
    · rename_i hne
      by_cases htext : 10 ∈ text
      · obtain ⟨line, later, rfl, hline⟩ := List.eq_append_cons_of_mem htext
        have hline' : ∀ b ∈ line, (b != 10) = true := fun b hb => by
          rw [bne_iff_ne]
          exact fun hnewline => hline (hnewline ▸ hb)
        rw [List.takeWhile_append_of_pos hline', List.dropWhile_append_of_pos hline'] at h
        cases h
        rw [lines_append hline, List.length_append]
        refine ⟨by simp, ?_⟩
        simp only [bne_self_eq_false, Bool.false_eq_true, not_false_eq_true, List.dropWhile_cons_of_neg,
          List.drop_succ_cons, List.drop_zero, List.length_cons]
        omega
      · have htext' : ∀ b ∈ text, (b != 10) = true := fun b hb => by
          rw [bne_iff_ne]
          exact fun hnewline => htext (hnewline ▸ hb)
        rw [List.takeWhile_eq_self_iff.mpr htext', List.dropWhile_eq_nil_iff.mpr htext'] at h
        cases h
        rw [lines_of_notMem htext, if_neg hne]
        exact ⟨rfl, List.length_pos_iff.mpr hne⟩

/-- A line is a part of the text. -/
theorem infix_of_mem_lines {text line : Text} (h : line ∈ lines text) : line <:+: text := by
  induction hn : text.length using Nat.strongRecOn generalizing text with
  | ind n ih =>
    by_cases htext : 10 ∈ text
    · obtain ⟨first, rest, rfl, hfirst⟩ := List.eq_append_cons_of_mem htext
      rw [lines_append hfirst, List.mem_cons] at h
      rcases h with rfl | hlater
      · exact (List.prefix_append line _).isInfix
      · rw [List.length_append, List.length_cons] at hn
        exact (ih rest.length (by omega) hlater rfl).trans ⟨first ++ [10], [], by simp⟩
    · rw [lines_of_notMem htext] at h
      split at h
      · cases h
      · cases List.mem_singleton.mp h
        exact List.infix_rfl

/-- The lines behind the first one. -/
theorem lines_drop (text : Text) :
    (lines text).drop 1 = lines (((getline text).map Prod.snd).getD []) := by
  cases hread : getline text with
  | none =>
    rw [reads_getline.none hread]
    rfl
  | some read =>
    rw [(reads_getline.some hread).1]
    rfl

/-! ## Words -/

/-- `>>` into a string: the next word and what is left behind it. -/
def readWord (text : Text) : Option (Text × Text) :=
  let start := skipSpaces text
  if start = [] then none
  else some (start.takeWhile fun b => !isspace b, start.dropWhile fun b => !isspace b)

def words (text : Text) : List Text := wordsBy isspace text

/-- Some words, if there are as many. -/
def readWords : Nat → Text → Option (List Text)
  | 0, _ => some []
  | n + 1, text => do
    let (word, rest) ← readWord text
    let more ← readWords n rest
    some (word :: more)

theorem reads_readWord : Reads readWord words where
  none {text} h := by
    rw [readWord] at h
    split at h
    · rename_i hstart
      rw [words, ← wordsBy_dropWhile, ← skipSpaces, hstart]
      rfl
    · cases h
  some {text piece rest} h := by
    rw [readWord] at h
    split at h
    · cases h
    · rename_i hstart
      cases h
      refine ⟨?_, ?_⟩
      · rw [words, ← wordsBy_dropWhile]
        exact wordsBy_eq_cons hstart fun b => head_dropWhile
      · -- The word has a byte.
        cases hskip : skipSpaces text with
        | nil => exact absurd hskip hstart
        | cons b start =>
          have hlength := (List.dropWhile_suffix isspace (l := text)).length_le
          have hword : (!isspace b) = true := by simp [head_skipSpaces hskip]
          rw [← skipSpaces, hskip, List.length_cons] at hlength
          rw [List.dropWhile_cons_of_pos (p := fun b => !isspace b) hword]
          have hrest := (List.dropWhile_suffix (fun b => !isspace b) (l := start)).length_le
          omega

theorem readWords_eq (n : Nat) (text : Text) :
    readWords n text = if n ≤ (words text).length then some ((words text).take n) else none := by
  induction n generalizing text with
  | zero => rfl
  | succ n ih =>
    rw [readWords]
    cases hread : readWord text with
    | none =>
      rw [reads_readWord.none hread]
      rfl
    | some read =>
      rw [(reads_readWord.some hread).1, Option.bind_eq_bind, Option.bind_some]
      dsimp only
      rw [ih]
      simp only [List.length_cons, Nat.add_le_add_iff_right, List.take_succ_cons]
      split
      · rfl
      · rfl

end CString
