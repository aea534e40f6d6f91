import SensorLib.Text.Json

/-! # Searching a document for the label of a member

A label never stands in a string value or across the end of one, so a plain
text search comes upon the members in their order.
-/

namespace Json

open CString

/-- A name that is searched for. -/
structure IsKey (key : Text) : Prop where
  ne_nil : key ≠ []
  alpha : ∀ b ∈ key, isalpha b

/-- What may stand behind a value: neither a letter nor a colon. -/
def Follows (rest : Text) : Prop := ∀ b ∈ rest.head?, isalpha b = false ∧ b ≠ 58

variable {key : Text}

theorem IsKey.notMem (h : IsKey key) {b : UInt8} (hb : isalpha b = false) : b ∉ key := fun hmem => by
  rw [h.alpha b hmem] at hb
  cases hb

theorem strstr_cons_of_ne {b : UInt8} (hb : b ≠ 34) (text : Text) :
    strstr (label key) (b :: text) = strstr (label key) text := by
  refine strstr_cons_eq_tail ?_
  rw [label, List.cons_append, List.cons_prefix_cons]
  exact fun h => hb h.1.symm

theorem strstr_append_of_notMem {pre : Text} (hpre : 34 ∉ pre) (text : Text) :
    strstr (label key) (pre ++ text) = strstr (label key) text := by
  induction pre with
  | nil => rfl
  | cons b pre ih =>
    rw [List.mem_cons, not_or] at hpre
    rw [List.cons_append, strstr_cons_of_ne (Ne.symm hpre.1), ih hpre.2]

theorem ne_quote {b : UInt8} (h : isPlain b) : b ≠ 34 := by
  rintro rfl
  exact absurd h (by decide)

/-! ## String values -/

theorem follows_cons {b : UInt8} {rest : Text} (hb : isalpha b = false) (hcolon : b ≠ 58) :
    Follows (b :: rest) := by
  rintro _ ⟨⟩
  exact ⟨hb, hcolon⟩

theorem Follows.not_prefix {rest : Text} (h : Follows rest) {b : UInt8} {pre : Text}
    (hb : isalpha b ∨ b = 58) : ¬ b :: pre <+: rest := by
  rintro ⟨more, rfl⟩
  obtain ⟨halpha, hcolon⟩ := h b rfl
  rcases hb with hb | hb
  · rw [hb] at halpha
    cases halpha
  · exact hcolon hb

/-- Letters and then a quote do not begin where another byte stands. -/
theorem not_prefix_cons {b : UInt8} {text : Text} (hb : isalpha b = false) (hquote : b ≠ 34)
    (hkey : ∀ b ∈ key, isalpha b) : ¬ key ++ [34, 58] <+: b :: text := by
  cases key with
  | nil =>
    rw [List.nil_append, List.cons_prefix_cons]
    exact fun h => hquote h.1.symm
  | cons c key =>
    rw [List.cons_append, List.cons_prefix_cons]
    rintro ⟨rfl, -⟩
    rw [hkey c List.mem_cons_self] at hb
    cases hb

/-- Letters, a quote and a colon do not stand in the rest of a string and what follows it. -/
theorem not_prefix_parts {parts : List StringPart} {rest : Text} (hrest : Follows rest)
    (hkey : ∀ b ∈ key, isalpha b) :
    ¬ key ++ [34, 58] <+: parts.flatMap StringPart.text ++ 34 :: rest := by
  induction parts generalizing key with
  | nil =>
    cases key with
    | nil =>
      rw [List.nil_append, List.flatMap_nil, List.nil_append, List.cons_prefix_cons]
      exact fun h => hrest.not_prefix (Or.inr rfl) h.2
    | cons b key =>
      rw [List.cons_append, List.flatMap_nil, List.nil_append, List.cons_prefix_cons]
      rintro ⟨rfl, -⟩
      exact absurd (hkey 34 List.mem_cons_self) (by decide)
  | cons part parts ih =>
    rw [List.flatMap_cons]
    cases part with
    | plain b =>
      cases key with
      | nil =>
        rw [StringPart.text, List.append_assoc, List.singleton_append, List.nil_append,
          List.cons_prefix_cons]
        exact fun h => ne_quote b.2 h.1.symm
      | cons c key =>
        rw [StringPart.text, List.append_assoc, List.singleton_append, List.cons_append,
          List.cons_prefix_cons]
        exact fun h => ih (fun d hd => hkey d (List.mem_cons_of_mem _ hd)) h.2
    | escape b => exact not_prefix_cons (by decide) (by decide) hkey
    | unicode digits => exact not_prefix_cons (by decide) (by decide) hkey

/-- At an opening quote, or at an escaped one. -/
theorem not_prefix_string {parts : List StringPart} {rest : Text} (hrest : Follows rest)
    (hkey : IsKey key) : ¬ label key <+: 34 :: (parts.flatMap StringPart.text ++ 34 :: rest) := by
  rw [label, List.cons_append, List.cons_prefix_cons]
  exact fun h => not_prefix_parts hrest hkey.alpha h.2

theorem strstr_parts {parts : List StringPart} {rest : Text} (hrest : Follows rest)
    (hkey : IsKey key) :
    strstr (label key) (parts.flatMap StringPart.text ++ 34 :: rest) = strstr (label key) rest := by
  induction parts with
  | nil =>
    obtain ⟨b, key, rfl⟩ := List.exists_cons_of_ne_nil hkey.ne_nil
    refine strstr_cons_eq_tail ?_
    rw [label, List.cons_append, List.cons_append, List.cons_prefix_cons]
    exact fun h => hrest.not_prefix (Or.inl (hkey.alpha b List.mem_cons_self)) h.2
  | cons part parts ih =>
    rw [List.flatMap_cons, List.append_assoc]
    cases part with
    | plain b =>
      rw [StringPart.text, List.singleton_append, strstr_cons_of_ne (ne_quote b.2), ih]
    | escape b =>
      rw [StringPart.text, List.cons_append, strstr_cons_of_ne (by decide), List.singleton_append]
      by_cases hb : b.1 = 34
      · rw [hb, strstr_cons_eq_tail (not_prefix_string hrest hkey), ih]
      · rw [strstr_cons_of_ne hb, ih]
    | unicode digits =>
      have hquote : 34 ∉ digits.1 := fun h => absurd (digits.2.2 34 h) (by decide)
      rw [StringPart.text, List.cons_append, List.cons_append, strstr_cons_of_ne (by decide),
        strstr_cons_of_ne (by decide), strstr_append_of_notMem hquote, ih]

/-- A string value is passed over, whatever is in it. -/
theorem strstr_string {parts : List StringPart} {rest : Text} (hrest : Follows rest)
    (hkey : IsKey key) :
    strstr (label key) (34 :: (parts.flatMap StringPart.text ++ 34 :: rest)) =
      strstr (label key) rest := by
  rw [strstr_cons_eq_tail (not_prefix_string hrest hkey), strstr_parts hrest hkey]

/-! ## Names -/

theorem takeWhile_quote {name : Text} (hname : 34 ∉ name) (rest : Text) :
    (name ++ 34 :: rest).takeWhile (· ≠ 34) = name := by
  have hpos : ∀ b ∈ name, decide (b ≠ 34) = true := fun b hb =>
    decide_eq_true fun hquote => hname (hquote ▸ hb)
  rw [List.takeWhile_append_of_pos hpos]
  simp

theorem label_prefix_iff {name rest : Text} (hkey : IsKey key) (hname : 34 ∉ name) :
    label key <+: label name ++ rest ↔ name = key := by
  constructor
  · rintro ⟨more, hmore⟩
    have htail : key ++ 34 :: (58 :: more) = name ++ 34 :: (58 :: rest) := by
      simpa [label] using hmore
    have hquote : 34 ∉ key := hkey.notMem (by decide)
    rw [← takeWhile_quote hname, ← htail, takeWhile_quote hquote]
  · rintro rfl
    exact List.prefix_append _ _

/-- The label of a member is found if it is the one that is searched for, and passed over if
not. -/
theorem strstr_label {name rest : Text} (hkey : IsKey key) (hname : 34 ∉ name) :
    strstr (label key) (label name ++ rest) =
      if name = key then some (label name ++ rest) else strstr (label key) rest := by
  have hfront := @label_prefix_iff _ _ rest hkey hname
  split
  · rename_i heq
    exact strstr_eq_self (hfront.mpr heq)
  · rename_i hne
    have hclosing : ¬ label key <+: 34 :: 58 :: rest := by
      obtain ⟨b, key, rfl⟩ := List.exists_cons_of_ne_nil hkey.ne_nil
      rw [label, List.cons_append, List.cons_append, List.cons_prefix_cons, List.cons_prefix_cons]
      rintro ⟨-, rfl, -⟩
      exact absurd (hkey.alpha 58 List.mem_cons_self) (by decide)
    have hopening : label name ++ rest = 34 :: (name ++ 34 :: 58 :: rest) := by simp [label]
    rw [hopening] at hfront ⊢
    calc strstr (label key) (34 :: (name ++ 34 :: 58 :: rest))
        = strstr (label key) (name ++ 34 :: 58 :: rest) :=
          strstr_cons_eq_tail (mt hfront.mp hne)
      _ = strstr (label key) (34 :: 58 :: rest) := strstr_append_of_notMem hname _
      _ = strstr (label key) (58 :: rest) := strstr_cons_eq_tail hclosing
      _ = strstr (label key) rest := strstr_cons_of_ne (by decide) _

/-! ## Documents -/

theorem Digits.quote_notMem (digits : Digits) : 34 ∉ digits.1 := fun h =>
  absurd (digits.2.2 34 h) (by decide)

theorem blanks_quote_notMem (blanks : Blanks) : 34 ∉ blanks.1 := fun h =>
  absurd (blanks.2 34 h) (by decide)

theorem name_quote_notMem (name : Name) : 34 ∉ name.1 := fun h => ne_quote (name.2 34 h) rfl

theorem Word.quote_notMem (w : Word) : 34 ∉ w.text := by cases w <;> decide

theorem Exponent.quote_notMem (e : Exponent) : 34 ∉ e.text := by
  have hdigits := Digits.quote_notMem e.digits
  obtain ⟨capital, sign, digits⟩ := e
  cases capital <;> rcases sign with _ | _ | _ <;> simpa [Exponent.text] using hdigits

theorem Number.quote_notMem (n : Number) : 34 ∉ n.text := by
  have hwhole := Digits.quote_notMem n.whole
  obtain ⟨negative, whole, _, fraction, exponent⟩ := n
  have hsign : (34 : UInt8) ∉ (if negative then [45] else []) := by cases negative <;> decide
  simp only [Number.text, List.mem_append, not_or]
  refine ⟨⟨⟨hsign, hwhole⟩, ?_⟩, ?_⟩
  · cases fraction with
    | none => simp
    | some digits => simpa using digits.quote_notMem
  · cases exponent with
    | none => simp
    | some e => exact e.quote_notMem

theorem isBlank_iff {b : UInt8} : isBlank b ↔ b = 32 ∨ b = 9 ∨ b = 10 ∨ b = 13 := by
  simp [isBlank, or_assoc]

theorem Follows.blanks {rest : Text} (h : Follows rest) (blanks : Blanks) :
    Follows (blanks.1 ++ rest) := by
  obtain ⟨blanks, hblanks⟩ := blanks
  cases blanks with
  | nil => exact h
  | cons b blanks =>
    have hb := isBlank_iff.mp (hblanks b List.mem_cons_self)
    rcases hb with rfl | rfl | rfl | rfl <;> exact follows_cons (by decide) (by decide)

theorem blanks_isspace (blanks : Blanks) : ∀ b ∈ blanks.1, isspace b := fun b hb => by
  rcases isBlank_iff.mp (blanks.2 b hb) with rfl | rfl | rfl | rfl <;> decide

/-- A value does not begin with a space. -/
theorem Number.head_text (n : Number) : ∃ b text, n.text = b :: text ∧ isspace b = false := by
  obtain ⟨negative, ⟨whole, hne, hdigits⟩, _, fraction, exponent⟩ := n
  obtain ⟨d, whole, rfl⟩ := List.exists_cons_of_ne_nil hne
  cases negative with
  | true => exact ⟨45, _, rfl, by decide⟩
  | false =>
    exact ⟨d, _, rfl, isspace_of_isdigit (hdigits d List.mem_cons_self)⟩

theorem Value.head_text (v : Value) : ∃ b text, v.text = b :: text ∧ isspace b = false := by
  cases v with
  | word w => cases w <;> exact ⟨_, _, rfl, by decide⟩
  | number n => exact n.head_text
  | string parts => exact ⟨34, _, rfl, by decide⟩
  | emptyArray blanks => exact ⟨91, _, rfl, by decide⟩
  | array items => exact ⟨91, _, rfl, by decide⟩
  | emptyObject blanks => exact ⟨123, _, rfl, by decide⟩
  | object members => exact ⟨123, _, rfl, by decide⟩

/-- What stands behind the first place of a label, and behind the spaces there. -/
def afterLabel (key text : Text) : Option Text :=
  (strstr (label key) text).map fun place => skipSpaces (place.drop (label key).length)

/-- Where the value of the first member of a name stands in a text. -/
def valueOf (key text : Text) (members : List Member) : Option Text :=
  (members.find? fun m => m.name = key).map fun m => text.drop m.start

theorem valueOf_cons (text : Text) (m : Member) (members : List Member) :
    valueOf key text (m :: members) =
      if m.name = key then some (text.drop m.start) else valueOf key text members := by
  rw [valueOf, List.find?_cons]
  by_cases hm : m.name = key <;> simp [hm, valueOf]

theorem valueOf_append (text : Text) (members more : List Member) :
    valueOf key text (members ++ more) =
      (valueOf key text members).or (valueOf key text more) := by
  rw [valueOf, List.find?_append, Option.map_or, valueOf, valueOf]

theorem afterLabel_append {pre : Text} (hpre : 34 ∉ pre) (text : Text) :
    afterLabel key (pre ++ text) = afterLabel key text := by
  rw [afterLabel, strstr_append_of_notMem hpre, afterLabel]

theorem afterLabel_cons {b : UInt8} (hb : b ≠ 34) (text : Text) :
    afterLabel key (b :: text) = afterLabel key text := by
  rw [afterLabel, strstr_cons_of_ne hb, afterLabel]

theorem skipSpaces_value (blanks : Blanks) (v : Value) (rest : Text) :
    skipSpaces (blanks.1 ++ (v.text ++ rest)) = v.text ++ rest := by
  obtain ⟨b, text, htext, hb⟩ := v.head_text
  rw [skipSpaces_append (blanks_isspace blanks), htext, List.cons_append, skipSpaces_cons hb]

/-- Behind the label of a member stands its value, if the name is the one. -/
theorem afterLabel_member (hkey : IsKey key) (name : Name) (blanks : Blanks) (v : Value)
    (rest : Text) :
    afterLabel key (label name.1 ++ (blanks.1 ++ (v.text ++ rest))) =
      if name.1 = key then some (v.text ++ rest) else afterLabel key (v.text ++ rest) := by
  rw [afterLabel, strstr_label hkey (name_quote_notMem name)]
  split
  · rename_i hname
    rw [Option.map_some, ← hname, List.drop_left, skipSpaces_value]
  · rw [strstr_append_of_notMem (blanks_quote_notMem blanks), afterLabel]

theorem drop_add_length {text pre rest : Text} {start : Nat} (h : text.drop start = pre ++ rest) :
    text.drop (start + pre.length) = rest := by
  rw [← List.drop_drop, h, List.drop_left]

/-! The texts of compound values, with what follows them. -/

theorem Value.array_text (items : Items) (rest : Text) :
    (Value.array items).text ++ rest = [91] ++ (items.text ++ 93 :: rest) := by simp [Value.text]

theorem Value.object_text (members : Members) (rest : Text) :
    (Value.object members).text ++ rest = [123] ++ (members.text ++ 125 :: rest) := by
  simp [Value.text]

section
variable (indent before : Blanks) (name : Name) (value : Value) (after : Blanks) (rest : Text)

theorem Items.last_text : (Items.last before value after).text ++ rest =
    before.1 ++ (value.text ++ (after.1 ++ rest)) := by simp [Items.text]

theorem Items.more_text (items : Items) : (Items.more before value after items).text ++ rest =
    before.1 ++ (value.text ++ (after.1 ++ ([44] ++ (items.text ++ rest)))) := by simp [Items.text]

theorem Members.last_text : (Members.last indent name before value after).text ++ rest =
    indent.1 ++ (label name.1 ++ (before.1 ++ (value.text ++ (after.1 ++ rest)))) := by
  simp [Members.text]

theorem Members.more_text (members : Members) :
    (Members.more indent name before value after members).text ++ rest =
      indent.1 ++ (label name.1 ++ (before.1 ++ (value.text ++
        (after.1 ++ ([44] ++ (members.text ++ rest)))))) := by simp [Members.text]

end

mutual

/-- In a value that stands at `start`, a label leads to the value of the first such member, and
without one the search goes on behind the value. -/
theorem Value.afterLabel_eq (hkey : IsKey key) (v : Value) {text rest : Text} {start : Nat}
    (htext : text.drop start = v.text ++ rest) (hrest : Follows rest) :
    afterLabel key (v.text ++ rest) =
      (valueOf key text (v.allMembers start)).or (afterLabel key rest) := by
  cases v with
  | word w => exact afterLabel_append w.quote_notMem rest
  | number n => exact afterLabel_append n.quote_notMem rest
  | string parts =>
    have hstring : (Value.string parts).text ++ rest =
        34 :: (parts.flatMap StringPart.text ++ 34 :: rest) := by simp [Value.text]
    rw [hstring, afterLabel, strstr_string hrest hkey]
    rfl
  | emptyArray blanks =>
    have hblanks : 34 ∉ (Value.emptyArray blanks).text := by
      simpa [Value.text] using blanks_quote_notMem blanks
    exact afterLabel_append hblanks rest
  | emptyObject blanks =>
    have hblanks : 34 ∉ (Value.emptyObject blanks).text := by
      simpa [Value.text] using blanks_quote_notMem blanks
    exact afterLabel_append hblanks rest
  | array items =>
    rw [Value.array_text] at htext ⊢
    rw [afterLabel_append (by decide),
      Items.afterLabel_eq hkey items (drop_add_length htext) (follows_cons (by decide) (by decide)),
      afterLabel_cons (by decide), Value.allMembers, List.length_singleton]
  | object members =>
    rw [Value.object_text] at htext ⊢
    rw [afterLabel_append (by decide),
      Members.afterLabel_eq hkey members (drop_add_length htext)
        (follows_cons (by decide) (by decide)),
      afterLabel_cons (by decide), Value.allMembers, List.length_singleton]

theorem Items.afterLabel_eq (hkey : IsKey key) (items : Items) {text rest : Text} {start : Nat}
    (htext : text.drop start = items.text ++ rest) (hrest : Follows rest) :
    afterLabel key (items.text ++ rest) =
      (valueOf key text (items.allMembers start)).or (afterLabel key rest) := by
  cases items with
  | last before value after =>
    rw [Items.last_text] at htext ⊢
    rw [afterLabel_append (blanks_quote_notMem before),
      Value.afterLabel_eq hkey value (drop_add_length htext) (hrest.blanks after),
      afterLabel_append (blanks_quote_notMem after), Items.allMembers]
  | more before value after items =>
    rw [Items.more_text] at htext ⊢
    have hvalue := drop_add_length htext
    have hitems := drop_add_length (drop_add_length (drop_add_length hvalue))
    have hcomma : Follows ([44] ++ (items.text ++ rest)) := follows_cons (by decide) (by decide)
    rw [afterLabel_append (blanks_quote_notMem before),
      Value.afterLabel_eq hkey value hvalue (hcomma.blanks after),
      afterLabel_append (blanks_quote_notMem after), afterLabel_append (by decide),
      Items.afterLabel_eq hkey items hitems hrest, Items.allMembers, valueOf_append,
      Option.or_assoc, List.length_singleton]

theorem Members.afterLabel_eq (hkey : IsKey key) (members : Members) {text rest : Text}
    {start : Nat} (htext : text.drop start = members.text ++ rest) (hrest : Follows rest) :
    afterLabel key (members.text ++ rest) =
      (valueOf key text (members.allMembers start)).or (afterLabel key rest) := by
  cases members with
  | last indent name before value after =>
    rw [Members.last_text] at htext ⊢
    have hvalue := drop_add_length (drop_add_length (drop_add_length htext))
    rw [afterLabel_append (blanks_quote_notMem indent), afterLabel_member hkey, Members.allMembers,
      valueOf_cons, hvalue]
    split
    · rw [Option.some_or]
    · rw [Value.afterLabel_eq hkey value hvalue (hrest.blanks after),
        afterLabel_append (blanks_quote_notMem after)]
  | more indent name before value after members =>
    rw [Members.more_text] at htext ⊢
    have hvalue := drop_add_length (drop_add_length (drop_add_length htext))
    have hmembers := drop_add_length (drop_add_length (drop_add_length hvalue))
    have hcomma : Follows ([44] ++ (members.text ++ rest)) := follows_cons (by decide) (by decide)
    rw [afterLabel_append (blanks_quote_notMem indent), afterLabel_member hkey, Members.allMembers,
      valueOf_cons, hvalue]
    split
    · rw [Option.some_or]
    · rw [Value.afterLabel_eq hkey value hvalue (hcomma.blanks after),
        afterLabel_append (blanks_quote_notMem after), afterLabel_append (by decide),
        Members.afterLabel_eq hkey members hmembers hrest, valueOf_append, Option.or_assoc,
        List.length_singleton]

end

theorem Document.afterLabel_eq (hkey : IsKey key) (d : Document) :
    afterLabel key d.text = valueOf key d.text d.allMembers := by
  have htext : d.text = d.before.1 ++ (d.value.text ++ (d.after.1 ++ [])) := by
    simp [Document.text]
  have hend : Follows [] := fun b hb => by cases hb
  have hvalue : d.text.drop d.before.1.length = d.value.text ++ (d.after.1 ++ []) := by
    rw [htext, List.drop_left]
  calc afterLabel key d.text
      = afterLabel key (d.value.text ++ (d.after.1 ++ [])) := by
        rw [htext, afterLabel_append (blanks_quote_notMem d.before)]
    _ = (valueOf key d.text d.allMembers).or (afterLabel key (d.after.1 ++ [])) :=
        d.value.afterLabel_eq hkey hvalue (hend.blanks d.after)
    _ = valueOf key d.text d.allMembers := by
        rw [afterLabel_append (blanks_quote_notMem d.after)]
        exact Option.or_none

/-! ## Where the values of members stand -/

/-- The value of the member stands where the member says. -/
def Member.StandsIn (text : Text) (m : Member) : Prop := m.value.text <+: text.drop m.start

mutual

theorem Value.standsIn (v : Value) {text rest : Text} {start : Nat}
    (htext : text.drop start = v.text ++ rest) : ∀ m ∈ v.allMembers start, m.StandsIn text := by
  cases v with
  | array items =>
    exact items.standsIn (drop_add_length (htext.trans (Value.array_text items rest)))
  | object members =>
    exact members.standsIn (drop_add_length (htext.trans (Value.object_text members rest)))
  | word | number | string | emptyArray | emptyObject => exact fun m hm => by cases hm

theorem Items.standsIn (items : Items) {text rest : Text} {start : Nat}
    (htext : text.drop start = items.text ++ rest) :
    ∀ m ∈ items.allMembers start, m.StandsIn text := by
  cases items with
  | last before value after =>
    rw [Items.last_text] at htext
    exact value.standsIn (drop_add_length htext)
  | more before value after items =>
    rw [Items.more_text] at htext
    have hvalue := drop_add_length htext
    have hitems := drop_add_length (drop_add_length (drop_add_length hvalue))
    intro m hm
    rcases List.mem_append.mp hm with hm | hm
    · exact value.standsIn hvalue m hm
    · exact items.standsIn hitems m hm

theorem Members.standsIn (members : Members) {text rest : Text} {start : Nat}
    (htext : text.drop start = members.text ++ rest) :
    ∀ m ∈ members.allMembers start, m.StandsIn text := by
  cases members with
  | last indent name before value after =>
    rw [Members.last_text] at htext
    have hvalue := drop_add_length (drop_add_length (drop_add_length htext))
    intro m hm
    rcases List.mem_cons.mp hm with rfl | hm
    · exact ⟨_, hvalue.symm⟩
    · exact value.standsIn hvalue m hm
  | more indent name before value after members =>
    rw [Members.more_text] at htext
    have hvalue := drop_add_length (drop_add_length (drop_add_length htext))
    have hmembers := drop_add_length (drop_add_length (drop_add_length hvalue))
    intro m hm
    rcases List.mem_cons.mp hm with rfl | hm
    · exact ⟨_, hvalue.symm⟩
    · rcases List.mem_append.mp hm with hm | hm
      · exact value.standsIn hvalue m hm
      · exact members.standsIn hmembers m hm

end

theorem Document.standsIn (d : Document) : ∀ m ∈ d.allMembers, m.StandsIn d.text := by
  have hvalue : d.text.drop d.before.1.length = d.value.text ++ d.after.1 := by
    rw [Document.text, List.append_assoc, List.drop_left]
  exact d.value.standsIn hvalue

theorem Member.StandsIn.start_lt {text : Text} {m : Member} (h : m.StandsIn text) :
    m.start < text.length := by
  obtain ⟨b, rest, htext, -⟩ := m.value.head_text
  have hlength := h.length_le
  rw [htext, List.length_cons, List.length_drop] at hlength
  omega

mutual

/-- The members of one object are among all members. -/
theorem Value.objects_subset (v : Value) (start : Nat) :
    ∀ o ∈ v.objects start, o ⊆ v.allMembers start := by
  cases v with
  | array items => exact items.objects_subset (start + 1)
  | object members =>
    intro o ho
    rcases List.mem_cons.mp ho with rfl | ho
    · exact members.own_subset (start + 1)
    · exact members.objects_subset (start + 1) o ho
  | emptyObject blanks =>
    intro o ho
    rw [List.mem_singleton.mp ho]
    exact List.nil_subset _
  | word | number | string | emptyArray => exact fun o ho => by cases ho

theorem Items.objects_subset (items : Items) (start : Nat) :
    ∀ o ∈ items.objects start, o ⊆ items.allMembers start := by
  cases items with
  | last before value after => exact value.objects_subset _
  | more before value after items =>
    intro o ho
    rcases List.mem_append.mp ho with ho | ho
    · exact List.subset_append_of_subset_left _ (value.objects_subset _ o ho)
    · exact List.subset_append_of_subset_right _ (items.objects_subset _ o ho)

theorem Members.objects_subset (members : Members) (start : Nat) :
    ∀ o ∈ members.objects start, o ⊆ members.allMembers start := by
  cases members with
  | last indent name before value after =>
    exact fun o ho => List.subset_cons_of_subset _ (value.objects_subset _ o ho)
  | more indent name before value after members =>
    intro o ho
    refine List.subset_cons_of_subset _ ?_
    rcases List.mem_append.mp ho with ho | ho
    · exact List.subset_append_of_subset_left _ (value.objects_subset _ o ho)
    · exact List.subset_append_of_subset_right _ (members.objects_subset _ o ho)

theorem Members.own_subset (members : Members) (start : Nat) :
    members.own start ⊆ members.allMembers start := by
  cases members with
  | last indent name before value after => exact List.cons_subset_cons _ (List.nil_subset _)
  | more indent name before value after members =>
    exact List.cons_subset_cons _
      (List.subset_append_of_subset_right _ (members.own_subset _))

end

theorem Document.objects_subset (d : Document) : ∀ o ∈ d.objects, o ⊆ d.allMembers :=
  d.value.objects_subset _

/-- The place of the value of the first member of a name. -/
def placeOf (key : Text) (members : List Member) : Option Nat :=
  (members.find? fun m => m.name = key).map Member.start

/-- Two members are read at the same pointer just if they stand at the same place. -/
theorem valueOf_eq_iff {text : Text} {members more : List Member}
    (hmembers : ∀ m ∈ members, m.StandsIn text) (hmore : ∀ m ∈ more, m.StandsIn text) :
    valueOf key text members = valueOf key text more ↔ placeOf key members = placeOf key more := by
  simp only [valueOf, placeOf]
  cases hm : members.find? fun m => m.name = key with
  | none => cases more.find? fun m => m.name = key <;> simp
  | some m =>
    cases hm' : more.find? fun m => m.name = key with
    | none => simp
    | some m' =>
      have hlt := (hmembers m (List.mem_of_find?_eq_some hm)).start_lt
      have hlt' := (hmore m' (List.mem_of_find?_eq_some hm')).start_lt
      simp only [Option.map_some, Option.some.injEq]
      constructor
      · intro heq
        have hlength := congrArg List.length heq
        simp only [List.length_drop] at hlength
        omega
      · exact fun heq => congrArg (List.drop · text) heq

end Json
