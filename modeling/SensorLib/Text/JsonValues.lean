import SensorLib.Text.JsonSearch
import SensorLib.Text.Numbers

/-! # Values of a document as C reads them

Behind a value stands whitespace, a comma, a closing bracket or nothing, so that
`strtol` and `strtold` come upon the number that is written and no more.
-/

namespace Json

open CString

variable {key text rest : Text}

def Closes (rest : Text) : Prop := ∀ b ∈ rest.head?, isBlank b ∨ b = 44 ∨ b = 93 ∨ b = 125

theorem closes_cons {b : UInt8} (hb : b = 44 ∨ b = 93 ∨ b = 125) (rest : Text) :
    Closes (b :: rest) := by
  intro c hc
  cases hc
  exact Or.inr hb

theorem Closes.blanks (h : Closes rest) (blanks : Blanks) : Closes (blanks.1 ++ rest) := by
  obtain ⟨blanks, hblanks⟩ := blanks
  cases blanks with
  | nil => exact h
  | cons b blanks =>
    intro c hc
    cases hc
    exact Or.inl (hblanks b List.mem_cons_self)

/-- A property of the bytes that may follow a value. -/
theorem Closes.head (h : Closes rest) {P : UInt8 → Prop}
    (hP : ∀ b ∈ [(32 : UInt8), 9, 10, 13, 44, 93, 125], P b) : ∀ b ∈ rest.head?, P b := by
  intro b hb
  apply hP
  rcases h b hb with hblank | rfl | rfl | rfl
  · rcases isBlank_iff.mp hblank with rfl | rfl | rfl | rfl <;> simp
  all_goals simp

/-! ## Where a member's value ends -/

def Member.EndsIn (text : Text) (m : Member) : Prop :=
  ∃ rest, text.drop m.start = m.value.text ++ rest ∧ Closes rest

mutual

theorem Value.endsIn (v : Value) {text rest : Text} {start : Nat}
    (htext : text.drop start = v.text ++ rest) :
    ∀ m ∈ v.allMembers start, m.EndsIn text := by
  cases v with
  | array items =>
    apply items.endsIn (drop_add_length (htext.trans (Value.array_text items rest)))
    exact closes_cons (by decide) rest
  | object members =>
    apply members.endsIn (drop_add_length (htext.trans (Value.object_text members rest)))
    exact closes_cons (by decide) rest
  | word | number | string | emptyArray | emptyObject => exact fun m hm => by cases hm

theorem Items.endsIn (items : Items) {text rest : Text} {start : Nat}
    (htext : text.drop start = items.text ++ rest) (hrest : Closes rest) :
    ∀ m ∈ items.allMembers start, m.EndsIn text := by
  cases items with
  | last before value after =>
    rw [Items.last_text] at htext
    exact value.endsIn (drop_add_length htext)
  | more before value after items =>
    rw [Items.more_text] at htext
    have hvalue := drop_add_length htext
    have hitems := drop_add_length (drop_add_length (drop_add_length hvalue))
    intro m hm
    rcases List.mem_append.mp hm with hm | hm
    · exact value.endsIn hvalue m hm
    · exact items.endsIn hitems hrest m hm

theorem Members.endsIn (members : Members) {text rest : Text} {start : Nat}
    (htext : text.drop start = members.text ++ rest) (hrest : Closes rest) :
    ∀ m ∈ members.allMembers start, m.EndsIn text := by
  cases members with
  | last indent name before value after =>
    rw [Members.last_text] at htext
    have hvalue := drop_add_length (drop_add_length (drop_add_length htext))
    intro m hm
    rcases List.mem_cons.mp hm with rfl | hm
    · exact ⟨_, hvalue, hrest.blanks after⟩
    · exact value.endsIn hvalue m hm
  | more indent name before value after members =>
    rw [Members.more_text] at htext
    have hvalue := drop_add_length (drop_add_length (drop_add_length htext))
    have hmembers := drop_add_length (drop_add_length (drop_add_length hvalue))
    intro m hm
    rcases List.mem_cons.mp hm with rfl | hm
    · exact ⟨_, hvalue, (closes_cons (by decide) _).blanks after⟩
    · rcases List.mem_append.mp hm with hm | hm
      · exact value.endsIn hvalue m hm
      · exact members.endsIn hmembers hrest m hm

end

/-- The value of the first member of a name, in whatever object it stands. -/
def Document.first (d : Document) (key : Text) : Option Value :=
  (d.allMembers.find? fun m => m.name = key).map Member.value

theorem Document.afterLabel_missing (hkey : IsKey key) {d : Document} (h : d.first key = none) :
    afterLabel key d.text = none := by
  rw [d.afterLabel_eq hkey, valueOf, Option.map_eq_none_iff.mp h, Option.map_none]

theorem Document.afterLabel_first (hkey : IsKey key) {d : Document} {v : Value}
    (h : d.first key = some v) :
    ∃ rest, afterLabel key d.text = some (v.text ++ rest) ∧ Closes rest := by
  obtain ⟨m, hm, rfl⟩ := Option.map_eq_some_iff.mp h
  have hvalue : d.text.drop d.before.1.length = d.value.text ++ d.after.1 := by
    rw [Document.text, List.append_assoc, List.drop_left]
  obtain ⟨rest, htext, hrest⟩ := d.value.endsIn hvalue m (List.mem_of_find?_eq_some hm)
  exact ⟨rest, by rw [d.afterLabel_eq hkey, valueOf, hm, Option.map_some, htext], hrest⟩

/-! ## Numbers -/

/-- The `long` that the digits before the point make. -/
def Number.toLong (n : Number) : Int :=
  if n.negative then max (-0x8000000000000000) (-(value 10 n.whole.1 : Int))
  else min 0x7FFFFFFFFFFFFFFF (value 10 n.whole.1)

def Value.asNumber : Value → Option Number
  | .number n => some n
  | _ => none

def signText (negative : Bool) : Text := if negative then [45] else []

def fractionText : Option Digits → Text
  | none => []
  | some digits => 46 :: digits.1

def exponentText : Option Exponent → Text
  | none => []
  | some e => e.text

theorem Number.text_append (n : Number) (rest : Text) :
    n.text ++ rest = signText n.negative ++
      (n.whole.1 ++ (fractionText n.fraction ++ (exponentText n.exponent ++ rest))) := by
  obtain ⟨negative, whole, -, fraction, exponent⟩ := n
  cases fraction <;> cases exponent <;> simp [Number.text, signText, fractionText, exponentText]

theorem takeWhile_digits (digits : Digits) {rest : Text} (hrest : ∀ b ∈ rest.head?, isdigit b = false) :
    (digits.1 ++ rest).takeWhile isdigit = digits.1 := by
  rw [List.takeWhile_append_of_pos digits.2.2]
  cases rest with
  | nil => simp
  | cons b rest => rw [List.takeWhile_cons, hrest b rfl]; simp

theorem head_exponentText {P : UInt8 → Prop} (e : Option Exponent) (hP : P 69 ∧ P 101)
    (hrest : ∀ b ∈ rest.head?, P b) : ∀ b ∈ (exponentText e ++ rest).head?, P b := by
  cases e with
  | none => exact hrest
  | some e =>
    intro b hb
    cases hb
    cases e.capital
    · exact hP.2
    · exact hP.1

theorem head_fractionText {P : UInt8 → Prop} (fraction : Option Digits) (hP : P 46)
    (hrest : ∀ b ∈ rest.head?, P b) : ∀ b ∈ (fractionText fraction ++ rest).head?, P b := by
  cases fraction with
  | none => exact hrest
  | some digits =>
    intro b hb
    cases hb
    exact hP

theorem filter_sign {b : UInt8} (hb : isdigit b) (text : Text) :
    ((b :: text).take 1).filter (fun c => c = 43 ∨ c = 45) = [] := by
  have hplain : b ≠ 43 ∧ b ≠ 45 := by
    constructor <;>
    · rintro rfl
      cases hb
  simp [hplain]

theorem exponent_text (e : Exponent) (hrest : Closes rest) :
    exponent 69 (e.text ++ rest) = e.text := by
  have hstop : ∀ b ∈ rest.head?, isdigit b = false := hrest.head (by decide +kernel)
  obtain ⟨capital, sign, digits⟩ := e
  obtain ⟨d, more, hdigits⟩ := List.exists_cons_of_ne_nil digits.2.1
  have hd : isdigit d := digits.2.2 d (hdigits ▸ List.mem_cons_self)
  have htake := takeWhile_digits digits hstop
  have hmark : toupper (if capital then 69 else 101) = 69 := by cases capital <;> decide
  have hnil : digits.1 ≠ [] := digits.2.1
  rcases sign with _ | _ | _
  · have hsign : ((digits.1 ++ rest).take 1).filter (fun c => c = 43 ∨ c = 45) = [] := by
      rw [hdigits]
      exact filter_sign hd _
    show exponent 69 (_ :: (digits.1 ++ rest)) = _
    simp only [exponent, hsign, List.length_nil, List.drop_zero, htake, hmark]
    simp [Exponent.text, hnil]
  · simp [Exponent.text, exponent, htake, hmark, hnil]
  · simp [Exponent.text, exponent, htake, hmark, hnil]

theorem exponent_exponentText (e : Option Exponent) (hrest : Closes rest) :
    exponent 69 (exponentText e ++ rest) = exponentText e := by
  cases e with
  | some e => exact exponent_text e hrest
  | none =>
    have hstop : ∀ b ∈ rest.head?, toupper b ≠ 69 := hrest.head (by decide +kernel)
    cases rest with
    | nil => rfl
    | cons b rest =>
      have hb := hstop b rfl
      simp [exponentText, exponent, hb]

theorem mantissa_text (whole : Digits) (fraction : Option Digits)
    (hrest : ∀ b ∈ rest.head?, isdigit b = false ∧ b ≠ 46) :
    mantissa isdigit (whole.1 ++ (fractionText fraction ++ rest)) =
      some (whole.1 ++ fractionText fraction) := by
  have hdigit : ∀ b ∈ rest.head?, isdigit b = false := fun b hb => (hrest b hb).1
  have hwhole := takeWhile_digits whole (head_fractionText fraction (by decide) hdigit)
  have hne := whole.2.1
  simp only [mantissa, hwhole, List.drop_left]
  cases fraction with
  | some digits =>
    have htake := takeWhile_digits digits hdigit
    simp [fractionText, htake, hne]
  | none =>
    cases rest with
    | nil => simp [fractionText, hne]
    | cons b rest =>
      have hb := (hrest b rfl).2
      simp [fractionText, hne, hb]

theorem startsWithWord_of_ne {b c : UInt8} (h : toupper b ≠ c) (word text : Text) :
    startsWithWord (c :: word) (b :: text) = false := by
  apply Bool.eq_false_iff.mpr
  intro hstarts
  have hprefix := startsWith_iff.mp hstarts
  rw [List.map_cons, List.cons_prefix_cons] at hprefix
  exact h hprefix.1.symm

theorem toupper_of_isdigit {b : UInt8} (hb : isdigit b) : toupper b = b := by
  rw [toupper, if_neg]
  simp only [isdigit, Bool.and_eq_true, decide_eq_true_eq] at hb ⊢
  grind

theorem startsWithWord_digits (digits : Digits) {c : UInt8} (hc : isdigit c = false) (word rest : Text) :
    startsWithWord (c :: word) (digits.1 ++ rest) = false := by
  obtain ⟨digits, hne, hdigits⟩ := digits
  obtain ⟨d, more, rfl⟩ := List.exists_cons_of_ne_nil hne
  have hd := hdigits d List.mem_cons_self
  apply startsWithWord_of_ne
  rw [toupper_of_isdigit hd]
  rintro rfl
  rw [hd] at hc
  cases hc

/-- Digits that have no leading zero do not begin a hexadecimal number. -/
theorem Number.not_hex (n : Number) {rest : Text} (hrest : ∀ b ∈ rest.head?, toupper b ≠ 88) :
    startsWithWord (ascii "0X") (n.whole.1 ++ rest) = false := by
  obtain ⟨d, more, hdigits⟩ := List.exists_cons_of_ne_nil n.whole.2.1
  have hd : isdigit d := n.whole.2.2 d (hdigits ▸ List.mem_cons_self)
  have hzero := n.noLeadingZero
  rw [hdigits] at hzero ⊢
  by_cases hleading : d = 48
  · subst hleading
    have hmore : more = [] := by simpa using hzero rfl
    subst hmore
    cases rest with
    | nil => rfl
    | cons b rest => exact startsWithWord_of_ne (hrest b rfl) [] rest
  · apply startsWithWord_of_ne
    rw [toupper_of_isdigit hd]
    exact hleading

theorem Number.skipSpaces_text (n : Number) (rest : Text) :
    skipSpaces (n.text ++ rest) = n.text ++ rest := by
  obtain ⟨b, text, htext, hb⟩ := n.head_text
  rw [htext, List.cons_append, skipSpaces_cons hb]

/-- `strtold` converts the whole number. -/
theorem Number.floatingSubject_text (n : Number) (hrest : Closes rest) :
    floatingSubject (n.text ++ rest) = some n.text := by
  have hupper : ∀ b ∈ rest.head?, toupper b ≠ 88 := hrest.head (by decide +kernel)
  have hdigit : ∀ b ∈ rest.head?, isdigit b = false ∧ b ≠ 46 := hrest.head (by decide +kernel)
  have hexponent := exponent_exponentText n.exponent hrest
  have hmantissa := mantissa_text n.whole n.fraction (head_exponentText n.exponent (by decide) hdigit)
  have hhex := n.not_hex (head_fractionText n.fraction (by decide)
    (head_exponentText n.exponent (by decide) hupper))
  have hword : ∀ {c : UInt8}, isdigit c = false → ∀ word, startsWithWord (c :: word)
      (n.whole.1 ++ (fractionText n.fraction ++ (exponentText n.exponent ++ rest))) = false :=
    fun hc word => startsWithWord_digits n.whole hc word _
  have htext := n.text_append rest
  generalize hbody : n.whole.1 ++ (fractionText n.fraction ++ (exponentText n.exponent ++ rest)) = body
    at *
  have hsign : ((signText n.negative ++ body).take 1).filter (fun c => c = 43 ∨ c = 45) =
      signText n.negative := by
    cases n.negative with
    | true => rfl
    | false =>
      obtain ⟨d, more, hdigits⟩ := List.exists_cons_of_ne_nil n.whole.2.1
      rw [← hbody, hdigits]
      exact filter_sign (n.whole.2.2 d (hdigits ▸ List.mem_cons_self)) _
  have hdrop : body.drop (n.whole.1 ++ fractionText n.fraction).length = exponentText n.exponent ++ rest := by
    rw [← hbody, ← List.append_assoc, List.drop_left]
  have hskip := n.skipSpaces_text rest
  rw [htext] at hskip ⊢
  simp only [floatingSubject, hskip, hsign, List.drop_left]
  have hinfinity : startsWithWord (ascii "INFINITY") body = false := @hword 73 (by decide) (ascii "NFINITY")
  have hinf : startsWithWord (ascii "INF") body = false := @hword 73 (by decide) (ascii "NF")
  have hnan : startsWithWord (ascii "NAN") body = false := @hword 78 (by decide) (ascii "AN")
  rw [if_neg (by simp [hinfinity]), if_neg (by simp [hinf]), if_neg (by simp [hnan]),
    if_neg (by simp [hhex]), hmantissa, Option.map_some, hdrop, hexponent]
  have hself := n.text_append []
  simp only [List.append_nil] at hself
  simp [hself]

/-- `strtol` converts the digits in front of the point. -/
theorem Number.strtol_text (n : Number) (hrest : Closes rest) :
    strtol (n.text ++ rest) = some n.toLong := by
  have hdigit : ∀ b ∈ rest.head?, isdigit b = false := hrest.head (by decide +kernel)
  have htake := takeWhile_digits n.whole (head_fractionText n.fraction (by decide)
    (head_exponentText n.exponent (by decide) hdigit))
  have hskip := n.skipSpaces_text rest
  have htext := n.text_append rest
  rw [htext] at hskip ⊢
  generalize hbody : n.whole.1 ++ (fractionText n.fraction ++ (exponentText n.exponent ++ rest)) = body
    at *
  have hsign : readSign (signText n.negative ++ body) = (n.negative, body) := by
    cases n.negative with
    | true => rfl
    | false =>
      obtain ⟨d, more, hdigits⟩ := List.exists_cons_of_ne_nil n.whole.2.1
      have hd := n.whole.2.2 d (hdigits ▸ List.mem_cons_self)
      rw [← hbody, hdigits]
      apply readSign_digits
      · rintro rfl
        cases hd
      · rintro rfl
        cases hd
  simp only [strtol, readInteger, hskip, hsign, id, htake, if_neg n.whole.2.1, Option.map_some]
  rfl

theorem Value.floatingSubject_text (v : Value) (hrest : Closes rest) :
    floatingSubject (v.text ++ rest) = v.asNumber.map Number.text := by
  cases v with
  | number n => exact n.floatingSubject_text hrest
  | word w => cases w <;> rfl
  | string | emptyArray | array | emptyObject | object => rfl

theorem Value.strtol_text (v : Value) (hrest : Closes rest) :
    strtol (v.text ++ rest) = v.asNumber.map Number.toLong := by
  cases v with
  | number n => exact n.strtol_text hrest
  | word w => cases w <;> rfl
  | string | emptyArray | array | emptyObject | object => rfl

/-! ## Strings -/

theorem plainString_text {t : Text} (h : ∀ b ∈ t, isPlain b) :
    (plainString t h).flatMap StringPart.text = t := by
  calc (plainString t h).flatMap StringPart.text
      = t.attach.flatMap fun b => [b.1] := List.flatMap_map ..
    _ = t.attach.map Subtype.val := List.map_eq_flatMap.symm
    _ = t := t.attach_map_subtype_val

end Json
