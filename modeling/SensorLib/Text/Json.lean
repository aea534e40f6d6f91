import SensorLib.Text.CString

/-! # JSON documents as they are written

Documents with all of their whitespace and escapes. A member's name is free of
escapes and stands directly before the colon.
-/

namespace Json

open CString

def isBlank (b : UInt8) : Bool := b = 32 || b = 9 || b = 10 || b = 13

/-- A byte of a string that stands for itself. -/
def isPlain (b : UInt8) : Bool := 32 ≤ b && b ≠ 34 && b ≠ 92

/-- A byte that may follow the backslash of an escape, other than `u`. -/
def isEscaped (b : UInt8) : Bool := b ∈ ascii "\"\\/bfnrt"

abbrev Blanks := { t : Text // ∀ b ∈ t, isBlank b }

abbrev Name := { t : Text // ∀ b ∈ t, isPlain b }

abbrev Digits := { t : Text // t ≠ [] ∧ ∀ b ∈ t, isdigit b }

inductive StringPart
  | plain (b : { b : UInt8 // isPlain b })
  | escape (b : { b : UInt8 // isEscaped b })
  | unicode (digits : { t : Text // t.length = 4 ∧ ∀ b ∈ t, isxdigit b })

/-- A string without escapes. -/
def plainString (t : Text) (h : ∀ b ∈ t, isPlain b) : List StringPart :=
  t.attach.map fun b => .plain ⟨b.1, h b.1 b.2⟩

def StringPart.text : StringPart → Text
  | .plain b => [b.1]
  | .escape b => [92, b.1]
  | .unicode digits => 92 :: 117 :: digits.1

structure Exponent where
  capital : Bool
  sign : Option Bool
  digits : Digits

structure Number where
  negative : Bool
  whole : Digits
  noLeadingZero : whole.1.head? = some 48 → whole.1.length = 1
  fraction : Option Digits
  exponent : Option Exponent

def Exponent.text (e : Exponent) : Text :=
  let mark : UInt8 := if e.capital then 69 else 101
  let sign : Text := match e.sign with
    | none => []
    | some true => [45]
    | some false => [43]
  mark :: sign ++ e.digits.1

def Number.text (n : Number) : Text :=
  let sign : Text := if n.negative then [45] else []
  let fraction : Text := match n.fraction with
    | none => []
    | some digits => 46 :: digits.1
  let exponent : Text := match n.exponent with
    | none => []
    | some e => e.text
  sign ++ n.whole.1 ++ fraction ++ exponent

inductive Word
  | true
  | false
  | null

def Word.text : Word → Text
  | .true => ascii "true"
  | .false => ascii "false"
  | .null => ascii "null"

mutual

inductive Value
  | word (w : Word)
  | number (n : Number)
  | string (parts : List StringPart)
  | emptyArray (blanks : Blanks)
  | array (items : Items)
  | emptyObject (blanks : Blanks)
  | object (members : Members)

/-- The values of an array, each between blanks. -/
inductive Items
  | last (before : Blanks) (value : Value) (after : Blanks)
  | more (before : Blanks) (value : Value) (after : Blanks) (rest : Items)

/-- The members of an object: blanks, the name, a colon, blanks, the value and blanks. -/
inductive Members
  | last (indent : Blanks) (name : Name) (before : Blanks) (value : Value) (after : Blanks)
  | more (indent : Blanks) (name : Name) (before : Blanks) (value : Value) (after : Blanks)
      (rest : Members)

end

/-- A name in quotes, and the colon behind it. -/
def label (name : Text) : Text := 34 :: name ++ [34, 58]

mutual

def Value.text : Value → Text
  | .word w => w.text
  | .number n => n.text
  | .string parts => 34 :: (parts.flatMap StringPart.text ++ [34])
  | .emptyArray blanks => 91 :: (blanks.1 ++ [93])
  | .array items => 91 :: (items.text ++ [93])
  | .emptyObject blanks => 123 :: (blanks.1 ++ [125])
  | .object members => 123 :: (members.text ++ [125])

def Items.text : Items → Text
  | .last before value after => before.1 ++ value.text ++ after.1
  | .more before value after rest => before.1 ++ value.text ++ after.1 ++ 44 :: rest.text

def Members.text : Members → Text
  | .last indent name before value after =>
    indent.1 ++ label name.1 ++ before.1 ++ value.text ++ after.1
  | .more indent name before value after rest =>
    indent.1 ++ label name.1 ++ before.1 ++ value.text ++ after.1 ++ 44 :: rest.text

end

/-! Arrays and objects without whitespace. -/

def noBlanks : Blanks := ⟨[], fun _ h => by cases h⟩

def Items.one (value : Value) : Items := .last noBlanks value noBlanks

def Items.cons (value : Value) (rest : Items) : Items := .more noBlanks value noBlanks rest

def Members.one (name : Name) (value : Value) : Members := .last noBlanks name noBlanks value noBlanks

def Members.cons (name : Name) (value : Value) (rest : Members) : Members :=
  .more noBlanks name noBlanks value noBlanks rest

structure Document where
  before : Blanks
  value : Value
  after : Blanks

def Document.text (d : Document) : Text := d.before.1 ++ d.value.text ++ d.after.1

/-- A member of an object, and the place at which its value begins. -/
structure Member where
  name : Text
  value : Value
  start : Nat

mutual

/-- The members of the objects in a value, at any depth and in the order of the text, for a value
that stands at `start`. -/
def Value.allMembers (start : Nat) : Value → List Member
  | .array items => items.allMembers (start + 1)
  | .object members => members.allMembers (start + 1)
  | .word _ | .number _ | .string _ | .emptyArray _ | .emptyObject _ => []

def Items.allMembers (start : Nat) : Items → List Member
  | .last before value _ => value.allMembers (start + before.1.length)
  | .more before value after rest =>
    value.allMembers (start + before.1.length) ++
      rest.allMembers
        (start + before.1.length + value.text.length + after.1.length + 1)

def Members.allMembers (start : Nat) : Members → List Member
  | .last indent name before value _ =>
    let start := start + indent.1.length + (label name.1).length + before.1.length
    ⟨name.1, value, start⟩ :: value.allMembers start
  | .more indent name before value after rest =>
    let start := start + indent.1.length + (label name.1).length + before.1.length
    ⟨name.1, value, start⟩ ::
      (value.allMembers start ++
        rest.allMembers (start + value.text.length + after.1.length + 1))

end

mutual

/-- The objects in a value that stands at `start`, each with its own members. -/
def Value.objects (start : Nat) : Value → List (List Member)
  | .array items => items.objects (start + 1)
  | .object members => members.own (start + 1) :: members.objects (start + 1)
  | .word _ | .number _ | .string _ | .emptyArray _ => []
  | .emptyObject _ => [[]]

def Items.objects (start : Nat) : Items → List (List Member)
  | .last before value _ => value.objects (start + before.1.length)
  | .more before value after rest =>
    value.objects (start + before.1.length) ++
      rest.objects (start + before.1.length + value.text.length + after.1.length + 1)

def Members.objects (start : Nat) : Members → List (List Member)
  | .last indent name before value _ =>
    value.objects (start + indent.1.length + (label name.1).length + before.1.length)
  | .more indent name before value after rest =>
    let start := start + indent.1.length + (label name.1).length + before.1.length
    value.objects start ++ rest.objects (start + value.text.length + after.1.length + 1)

def Members.own (start : Nat) : Members → List Member
  | .last indent name before value _ =>
    [⟨name.1, value, start + indent.1.length + (label name.1).length + before.1.length⟩]
  | .more indent name before value after rest =>
    let start := start + indent.1.length + (label name.1).length + before.1.length
    ⟨name.1, value, start⟩ :: rest.own (start + value.text.length + after.1.length + 1)

end

def Document.objects (d : Document) : List (List Member) := d.value.objects d.before.1.length

def Document.allMembers (d : Document) : List Member := d.value.allMembers d.before.1.length

end Json
