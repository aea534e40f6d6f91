import SensorLib.Text.Lines

/-! # Numbers in texts

`strtol`, `strtoul` and `strtold`. The result is `none` where no conversion can
be made, and the pointer behind the number is left where the number was.
-/

namespace CString

def digitValue (b : UInt8) : Nat :=
  if isdigit b then b.toNat - 48
  else if 97 ≤ b then b.toNat - 87
  else b.toNat - 55

def readSign : Text → Bool × Text
  | 45 :: text => (true, text)
  | 43 :: text => (false, text)
  | text => (false, text)

/-- `0x` before a hexadecimal number, which is none where no digit follows. -/
def skipHexPrefix : Text → Text
  | 48 :: x :: b :: text => if (x = 120 ∨ x = 88) ∧ isxdigit b then b :: text else 48 :: x :: b :: text
  | text => text

def value (base : Nat) (digits : Text) : Nat := digits.foldl (fun n b => n * base + digitValue b) 0

/-- The sign and the number that a text begins with, before it is fitted to a type. -/
def readInteger (base : Nat) (isDigit : UInt8 → Bool) (skipPrefix : Text → Text) (text : Text) :
    Option (Bool × Nat) :=
  let (negative, text) := readSign (skipSpaces text)
  let digits := (skipPrefix text).takeWhile isDigit
  if digits = [] then none else some (negative, value base digits)

/-- Base ten, with `long` of 64 bits. -/
def strtol (text : Text) : Option Int :=
  (readInteger 10 isdigit id text).map fun (negative, n) =>
    if negative then max (-0x8000000000000000) (-n) else min 0x7FFFFFFFFFFFFFFF n

/-- Base sixteen, with `unsigned long` of 64 bits. -/
def strtoul (text : Text) : Option Nat :=
  (readInteger 16 isxdigit skipHexPrefix text).map fun (negative, n) =>
    if 0xFFFFFFFFFFFFFFFF < n then 0xFFFFFFFFFFFFFFFF
    else if negative then (0x10000000000000000 - n) % 0x10000000000000000
    else n

/-- The conversion of a `long` to an `int` of 32 bits. -/
def toInt (n : Int) : Int := n.bmod 0x100000000

/-- A hexadecimal digit, as `%02X` prints it. -/
def hexDigit (n : Nat) : UInt8 := .ofNat (if n < 10 then 48 + n else 55 + n)

def hexByte (b : UInt8) : Text := [hexDigit (b.toNat / 16), hexDigit (b.toNat % 16)]

/-- Digits with at most one point among them, and at least one digit. -/
def mantissa (isDigit : UInt8 → Bool) (text : Text) : Option Text :=
  let whole := text.takeWhile isDigit
  let fraction :=
    match text.drop whole.length with
    | 46 :: rest => rest.takeWhile isDigit
    | _ => []
  if whole = [] ∧ fraction = [] then none
  else if text.drop whole.length |>.head? |>.any (· = 46) then some (whole ++ 46 :: fraction)
  else some whole

/-- An exponent, which is none where no digit follows. -/
def exponent (mark : UInt8) : Text → Text
  | b :: text =>
    let sign := text.take 1 |>.filter fun c => c = 43 ∨ c = 45
    let digits := (text.drop sign.length).takeWhile isdigit
    if toupper b = mark ∧ digits ≠ [] then b :: sign ++ digits else []
  | [] => []

def startsWithWord (word text : Text) : Bool := startsWith word (text.map toupper)

/-- The characters that `strtold` converts, from the first that is not whitespace. -/
def floatingSubject (text : Text) : Option Text :=
  let start := skipSpaces text
  let sign := start.take 1 |>.filter fun c => c = 43 ∨ c = 45
  let body := start.drop sign.length
  let scaled (pre : Text) (isDigit : UInt8 → Bool) (mark : UInt8) (text : Text) : Option Text :=
    (mantissa isDigit text).map fun m => sign ++ pre ++ m ++ exponent mark (text.drop m.length)
  if startsWithWord (ascii "INFINITY") body then some (sign ++ body.take 8)
  else if startsWithWord (ascii "INF") body then some (sign ++ body.take 3)
  else if startsWithWord (ascii "NAN") body then some (sign ++ body.take 3)
  else if startsWithWord (ascii "0X") body ∧ (mantissa isxdigit (body.drop 2)).isSome then
    scaled (body.take 2) isxdigit 80 (body.drop 2)
  else scaled [] isdigit 69 body

/-! ## Printed bytes -/

theorem isxdigit_hexDigit {n : Nat} (hn : n < 16) : isxdigit (hexDigit n) = true ∧
    toupper (hexDigit n) = hexDigit n := by
  have hall : ∀ i : Fin 16, isxdigit (hexDigit i) = true ∧ toupper (hexDigit i) = hexDigit i := by
    decide
  exact hall ⟨n, hn⟩

theorem hexDigit_injective {m n : Nat} (hm : m < 16) (hn : n < 16) (h : hexDigit m = hexDigit n) :
    m = n := by
  have hall : ∀ i j : Fin 16, hexDigit i = hexDigit j → i = j := by decide
  exact congrArg Fin.val (hall ⟨m, hm⟩ ⟨n, hn⟩ h)

theorem hexByte_injective : Function.Injective hexByte := by
  intro a b h
  have ha := a.toNat_lt
  have hb := b.toNat_lt
  obtain ⟨hhigh, hrest⟩ := List.cons.inj h
  have hhigh := hexDigit_injective (by omega) (by omega) hhigh
  have hlow := hexDigit_injective (by omega) (by omega) (List.cons.inj hrest).1
  have hdigits := Nat.div_add_mod a.toNat 16
  rw [hhigh, hlow, Nat.div_add_mod] at hdigits
  exact UInt8.toNat_inj.mp hdigits.symm

/-! ## Numbers in a line -/

theorem readSign_digits {b : UInt8} (hminus : b ≠ 45) (hplus : b ≠ 43) (text : Text) :
    readSign (b :: text) = (false, b :: text) := by
  rw [readSign]
  · exact fun _ heq => hminus (List.cons.inj heq).1
  · exact fun _ heq => hplus (List.cons.inj heq).1

theorem readSign_append {text : Text} (htext : text ≠ []) (rest : Text) :
    readSign (text ++ rest) = ((readSign text).1, (readSign text).2 ++ rest) := by
  cases text with
  | nil => exact absurd rfl htext
  | cons b text =>
    rw [List.cons_append]
    by_cases hminus : b = 45
    · rw [hminus]
      rfl
    · by_cases hplus : b = 43
      · rw [hplus]
        rfl
      · rw [readSign_digits hminus hplus, readSign_digits hminus hplus]
        rfl

/-- A number in a line is read from the line. -/
theorem readInteger_line {base : Nat} {isDigit : UInt8 → Bool} {skipPrefix : Text → Text} {rest : Text}
    (hfront : ∀ text,
      (skipPrefix (text ++ rest)).takeWhile isDigit = (skipPrefix text).takeWhile isDigit)
    {line : Text} (hline : skipSpaces line ≠ []) :
    readInteger base isDigit skipPrefix (line ++ rest) =
      readInteger base isDigit skipPrefix line := by
  rw [readInteger, skipSpaces_append_eq, if_neg hline, readSign_append hline, readInteger]
  simp only [hfront]

theorem strtol_line {line rest : Text} (hline : skipSpaces line ≠ []) (hrest : AfterLine rest) :
    strtol (line ++ rest) = strtol line := by
  rw [strtol, strtol, readInteger_line (fun text => takeWhile_append_afterLine (by decide) hrest text)
    hline]

theorem skipHexPrefix_eq_self {text : Text}
    (h : ∀ x b later, text = 48 :: x :: b :: later → x = 120 ∨ x = 88 → isxdigit b = false) :
    skipHexPrefix text = text := by
  fun_cases skipHexPrefix text with
  | case1 x b later hhex => exact absurd (h x b later rfl hhex.1) (by simp [hhex.2])
  | case2 => rfl
  | case3 => rfl

/-- With three bytes in the line, it is the line that says whether there is a prefix. -/
theorem skipHexPrefix_append (b c d : UInt8) (line rest : Text) :
    skipHexPrefix (b :: c :: d :: (line ++ rest)) = skipHexPrefix (b :: c :: d :: line) ++ rest := by
  by_cases hzero : b = 48
  · subst hzero
    rw [skipHexPrefix, skipHexPrefix]
    split
    · rfl
    · rfl
  · rw [skipHexPrefix_eq_self, skipHexPrefix_eq_self]
    · rfl
    · exact fun _ _ _ heq => absurd (List.cons.inj heq).1 hzero
    · exact fun _ _ _ heq => absurd (List.cons.inj heq).1 hzero

theorem skipHexPrefix_short {line rest : Text} (hline : line.length ≤ 2) (hrest : AfterLine rest) :
    skipHexPrefix (line ++ rest) = line ++ rest := by
  refine skipHexPrefix_eq_self fun x b later heq hx => ?_
  match line with
  | [] =>
    have heq' : rest = 48 :: x :: b :: later := heq
    have hhead := hrest 48 (heq' ▸ rfl)
    exact absurd hhead (by decide)
  | [_] =>
    have heq' : rest = x :: b :: later := (List.cons.inj heq).2
    have hhead := hrest x (heq' ▸ rfl)
    rw [hhead] at hx
    exact absurd hx (by decide)
  | [_, _] =>
    have heq' : rest = b :: later := (List.cons.inj (List.cons.inj heq).2).2
    have hhead := hrest b (heq' ▸ rfl)
    rw [hhead]
    rfl
  | _ :: _ :: _ :: _ => simp at hline

theorem takeWhile_skipHexPrefix {rest : Text} (hrest : AfterLine rest) (line : Text) :
    (skipHexPrefix (line ++ rest)).takeWhile isxdigit = (skipHexPrefix line).takeWhile isxdigit := by
  have hstop := fun line => takeWhile_append_afterLine (p := isxdigit) (by decide) hrest line
  by_cases hshort : line.length ≤ 2
  · have hself := skipHexPrefix_short hshort afterLine_nil
    rw [List.append_nil] at hself
    rw [skipHexPrefix_short hshort hrest, hself, hstop]
  · match line with
    | b :: c :: d :: line =>
      rw [List.cons_append, List.cons_append, List.cons_append, skipHexPrefix_append, hstop]
    | [] | [_] | [_, _] => simp at hshort

theorem strtoul_line {line rest : Text} (hline : skipSpaces line ≠ []) (hrest : AfterLine rest) :
    strtoul (line ++ rest) = strtoul line := by
  rw [strtoul, strtoul, readInteger_line (takeWhile_skipHexPrefix hrest) hline]

end CString
