import SensorLib.Gps.Position
import SensorLib.Text.Buffers

/-! # Strings of a report

`json_parse_string` stores into a buffer of the caller, and an access outside of
it has no outcome.
-/

namespace SensorLib.Gps

open CString

/-- The byte that is stored next, and the text behind it. -/
def nextByte (b : UInt8) (value : Text) : UInt8 × Text :=
  match b, value with
  | 92, c :: value => (c, value)
  | _, _ => (b, value)

theorem length_nextByte (b : UInt8) (value : Text) : (nextByte b value).2.length ≤ value.length := by
  unfold nextByte
  split
  · exact Nat.le_succ _
  · exact le_rfl

/-- The loop, with what is left of the text, the buffer and the index. -/
def storeLoop (valueOutSize : Nat) : Text → Buffer → Nat → Option (Buffer × Nat × Text)
  | [], valueOut, index => some (valueOut, index, [])
  | b :: value, valueOut, index =>
    if b ≠ 34 ∧ index + 1 < valueOutSize then do
      let valueOut ← valueOut.store index (nextByte b value).1
      storeLoop valueOutSize (nextByte b value).2 valueOut (index + 1)
    else some (valueOut, index, b :: value)
termination_by value => value.length
decreasing_by exact Nat.lt_succ_of_le (length_nextByte b value)

/-- The buffer afterwards and the result. -/
def jsonParseStringInto (json key : Text) (valueOut : Buffer) (valueOutSize : Nat) :
    Option (Buffer × Bool) :=
  match jsonFindValue json key with
  | some (34 :: value) =>
    if valueOutSize = 0 then some (valueOut, false)
    else do
      let (valueOut, index, value) ← storeLoop valueOutSize value valueOut 0
      let valueOut ← valueOut.store index 0
      some (valueOut, value.head? = some 34)
  | _ => some (valueOut, false)

/-- A backslash before every quote and every backslash. -/
def escaped (s : Text) : Text := s.flatMap fun b => if b = 34 ∨ b = 92 then [92, b] else [b]

/-- A report with a single member. -/
def report (key s : Text) : Text :=
  ascii "\x7b\"" ++ key ++ ascii "\":\"" ++ escaped s ++ ascii "\"\x7d"

/-! ## The buffer -/

/-- A text in front of what was in the buffer. -/
def overlay (valueOut : Buffer) (stored : Text) : Buffer := stored ++ valueOut.drop stored.length

theorem store_overlay {valueOut : Buffer} {stored : Text} (h : stored.length < valueOut.length) (b : UInt8) :
    (overlay valueOut stored).store stored.length b = some (overlay valueOut (stored ++ [b])) := by
  have hlength : stored.length < (overlay valueOut stored).length := by
    rw [overlay, List.length_append, List.length_drop]
    omega
  rw [Buffer.store, if_pos hlength, overlay, overlay, List.set_append_right _ _ le_rfl, Nat.sub_self,
    List.drop_eq_getElem_cons h, List.set_cons_zero, List.length_append, List.length_singleton,
    List.append_assoc, List.singleton_append]

theorem nextByte_of_not_escape {b : UInt8} {value : Text}
    (h : ∀ c later, b = 92 → value = c :: later → False) : nextByte b value = (b, value) := by
  unfold nextByte
  split
  · rename_i c later
    exact absurd rfl (h c later rfl)
  · rfl

theorem copyUnescaped_succ {room : Nat} {b : UInt8} {value : Text} (hquote : b ≠ 34) :
    copyUnescaped (room + 1) (b :: value) =
      ((nextByte b value).1 :: (copyUnescaped room (nextByte b value).2).1,
        (copyUnescaped room (nextByte b value).2).2) := by
  rw [copyUnescaped.eq_def]
  simp only [if_neg hquote]
  split
  · rfl
  · rename_i h
    rw [nextByte_of_not_escape h]

theorem copyUnescaped_quote (room : Nat) (value : Text) :
    copyUnescaped (room + 1) (34 :: value) = ([], 34 :: value) := rfl

/-- The loop stays inside of the buffer, and stores what the loop on texts does. -/
theorem storeLoop_eq (valueOut : Buffer) (value stored : Text) (hstored : stored.length < valueOut.length) :
    storeLoop valueOut.length value (overlay valueOut stored) stored.length =
      let copied := copyUnescaped (valueOut.length - 1 - stored.length) value
      some (overlay valueOut (stored ++ copied.1), (stored ++ copied.1).length, copied.2) := by
  induction hroom : valueOut.length - 1 - stored.length generalizing value stored with
  | zero =>
    cases value with
    | nil => simp [storeLoop, copyUnescaped]
    | cons b value =>
      rw [storeLoop, if_neg (by omega)]
      simp [copyUnescaped]
  | succ room ih =>
    cases value with
    | nil => simp [storeLoop, copyUnescaped]
    | cons b value =>
      by_cases hquote : b = 34
      · rw [hquote, storeLoop, if_neg (by simp), copyUnescaped_quote]
        simp
      · have hlength : (stored ++ [(nextByte b value).1]).length = stored.length + 1 := by simp
        have hrest := ih (nextByte b value).2 (stored ++ [(nextByte b value).1]) (by omega) (by omega)
        rw [hlength] at hrest
        rw [storeLoop, if_pos ⟨hquote, by omega⟩, store_overlay hstored, Option.bind_eq_bind,
          Option.bind_some, hrest, copyUnescaped_succ hquote]
        simp only [List.append_assoc, List.singleton_append]

theorem length_copyUnescaped (room : Nat) (value : Text) : (copyUnescaped room value).1.length ≤ room := by
  induction room generalizing value with
  | zero => exact le_rfl
  | succ room ih =>
    cases value with
    | nil => exact Nat.zero_le _
    | cons b value =>
      by_cases hquote : b = 34
      · rw [hquote, copyUnescaped_quote]
        exact Nat.zero_le _
      · rw [copyUnescaped_succ hquote, List.length_cons]
        exact Nat.succ_le_succ (ih _)

theorem jsonParseString_other {json key : Text} (h : ∀ value, jsonFindValue json key ≠ some (34 :: value))
    (size : Nat) : jsonParseString json key size = (none, false) := by
  rw [jsonParseString]
  split
  · rename_i value hfound
    exact absurd hfound (h value)
  · rfl

theorem jsonParseStringInto_other {json key : Text}
    (h : ∀ value, jsonFindValue json key ≠ some (34 :: value)) (valueOut : Buffer) (size : Nat) :
    jsonParseStringInto json key valueOut size = some (valueOut, false) := by
  rw [jsonParseStringInto]
  split
  · rename_i value hfound
    exact absurd hfound (h value)
  · rfl

/-- What the function on texts tells is what is left in the buffer, for every text and every name. -/
theorem jsonParseStringInto_eq (json key : Text) {valueOut : Buffer} (hpos : valueOut ≠ []) :
    jsonParseStringInto json key valueOut valueOut.length =
      let parsed := jsonParseString json key valueOut.length
      some (parsed.1.elim valueOut fun stored => overlay valueOut (stored ++ [0]), parsed.2) := by
  have hlength := List.length_pos_iff.mpr hpos
  by_cases hfound : ∃ value, jsonFindValue json key = some (34 :: value)
  · obtain ⟨value, hvalue⟩ := hfound
    have hloop := storeLoop_eq valueOut value [] hlength
    have hroom := length_copyUnescaped (valueOut.length - 1) value
    have hstart : overlay valueOut [] = valueOut := rfl
    simp only [hstart, List.nil_append, List.length_nil, Nat.sub_zero] at hloop
    simp only [jsonParseStringInto, jsonParseString, hvalue, if_neg hlength.ne', hloop,
      Option.bind_eq_bind, Option.bind_some]
    rw [store_overlay (by omega)]
    rfl
  · have hother : ∀ value, jsonFindValue json key ≠ some (34 :: value) :=
      fun value hvalue => hfound ⟨value, hvalue⟩
    rw [jsonParseString_other hother, jsonParseStringInto_other hother]
    rfl

/-! ## Escaped strings -/

theorem copyUnescaped_escaped (room : Nat) (s rest : Text) :
    copyUnescaped room (escaped s ++ 34 :: rest) = (s.take room, escaped (s.drop room) ++ 34 :: rest) := by
  induction room generalizing s with
  | zero => rfl
  | succ room ih =>
    cases s with
    | nil => rfl
    | cons b s =>
      by_cases hescaped : b = 34 ∨ b = 92
      · have htext : escaped (b :: s) ++ 34 :: rest = 92 :: b :: (escaped s ++ 34 :: rest) := by
          rw [escaped, List.flatMap_cons, if_pos hescaped]
          rfl
        rw [htext, copyUnescaped_succ (by decide)]
        simp only [nextByte, ih, List.take_succ_cons, List.drop_succ_cons]
      · have htext : escaped (b :: s) ++ 34 :: rest = b :: (escaped s ++ 34 :: rest) := by
          rw [escaped, List.flatMap_cons, if_neg hescaped]
          rfl
        rw [not_or] at hescaped
        have hnext : nextByte b (escaped s ++ 34 :: rest) = (b, escaped s ++ 34 :: rest) :=
          nextByte_of_not_escape fun _ _ hb _ => hescaped.2 hb
        rw [htext, copyUnescaped_succ hescaped.1, hnext]
        simp only [ih, List.take_succ_cons, List.drop_succ_cons]

/-- An escaped text does not begin with a quote. -/
theorem head_escaped (s rest : Text) : (escaped s ++ 34 :: rest).head? = some 34 ↔ s = [] := by
  cases s with
  | nil => exact iff_of_true rfl rfl
  | cons b s =>
    refine iff_of_false ?_ (List.cons_ne_nil b s)
    rw [escaped, List.flatMap_cons]
    split
    · exact fun h => absurd (Option.some.inj h) (by decide)
    · rename_i hescaped
      exact fun h => hescaped (Or.inl (Option.some.inj h))

theorem jsonFindValue_report {key : Text} (hkey : key.length ≤ 60) (s : Text) :
    jsonFindValue (report key s) key = some (34 :: (escaped s ++ ascii "\"\x7d")) := by
  have hlength : ¬ 64 ≤ (34 :: key ++ [34, 58]).length := by
    simp only [List.length_append, List.length_cons, List.length_nil]
    omega
  have htext : report key s = 123 :: ((34 :: key ++ [34, 58]) ++ 34 :: (escaped s ++ ascii "\"\x7d")) := by
    have hquote : ascii "\":\"" = [34, 58, 34] := rfl
    have hbrace : ascii "\x7b\"" = [123, 34] := rfl
    simp [report, hquote, hbrace]
  rw [jsonFindValue, if_neg hlength, htext, strstr_cons_eq_tail, strstr_eq_self (List.prefix_append _ _),
    Option.map_some, List.drop_left, skipSpaces_cons (by decide)]
  rw [List.cons_append, List.cons_prefix_cons]
  exact fun h => absurd h.1 (by decide)

/-- A string that fits is stored whole, and one that does not is refused. No byte is stored behind
the end of the buffer. -/
theorem jsonParseStringInto_report {key s : Text} {valueOut : Buffer} (hkey : key.length ≤ 60)
    (hs : 0 ∉ s) (hpos : valueOut ≠ []) :
    ∃ stored, jsonParseStringInto (report key s) key valueOut valueOut.length =
        some (stored, decide (s.length < valueOut.length)) ∧
      stored.length = valueOut.length ∧ (s.length < valueOut.length → stored.text 0 = some s) := by
  have hlength := List.length_pos_iff.mpr hpos
  rw [jsonParseStringInto_eq _ _ hpos, jsonParseString, jsonFindValue_report hkey]
  have hcopy := copyUnescaped_escaped (valueOut.length - 1) s (ascii "\x7d")
  have hquote : escaped s ++ ascii "\"\x7d" = escaped s ++ 34 :: ascii "\x7d" := rfl
  simp only [if_neg hlength.ne', hquote, hcopy, head_escaped, Option.elim_some, List.drop_eq_nil_iff]
  refine ⟨overlay valueOut (s.take (valueOut.length - 1) ++ [0]), ?_, ?_, ?_⟩
  · congr 2
    exact decide_eq_decide.mpr (by omega)
  · simp only [overlay, List.length_append, List.length_take, List.length_drop, List.length_singleton]
    omega
  · intro hfits
    rw [List.take_of_length_le (by omega)]
    refine Buffer.Holds.text_eq ⟨valueOut.drop (s.length + 1), ?_⟩ hs
    simp [overlay]

theorem jsonParseStringInto_report_quote :
    ∃ stored, jsonParseStringInto (report (ascii "time") (ascii "a\"b\\")) (ascii "time")
        [1, 1, 1, 1, 1] 5 = some (stored, decide ((ascii "a\"b\\").length < 5)) ∧
      stored.length = 5 ∧ ((ascii "a\"b\\").length < 5 → stored.text 0 = some (ascii "a\"b\\")) :=
  @jsonParseStringInto_report (ascii "time") (ascii "a\"b\\") [1, 1, 1, 1, 1] (by decide) (by decide)
    (by decide)

end SensorLib.Gps
