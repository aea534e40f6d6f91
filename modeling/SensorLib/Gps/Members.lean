import SensorLib.Gps.Position
import SensorLib.Text.JsonSearch

/-! # Members of a report

`json_find_value` knows nothing of JSON. On a document it comes upon the first
member of the name, in whatever object that stands.
-/

namespace SensorLib.Gps

open CString Json

theorem jsonFindValue_eq_afterLabel {key : Text} (hlength : key.length ≤ 60) (text : Text) :
    jsonFindValue text key = afterLabel key text := by
  have hfits : ¬ 64 ≤ (label key).length := by
    simp only [label, List.length_append, List.length_cons, List.length_nil]
    omega
  exact if_neg hfits

theorem jsonFindValue_eq_valueOf {key : Text} (hkey : IsKey key) (hlength : key.length ≤ 60)
    (d : Document) : jsonFindValue d.text key = valueOf key d.text d.allMembers :=
  (jsonFindValue_eq_afterLabel hlength d.text).trans (d.afterLabel_eq hkey)

/-- `NULL` if no object has a member of the name, and else where the value of the first one
stands, which does not begin with a space. -/
theorem jsonFindValue_document {key : Text} (hkey : IsKey key) (hlength : key.length ≤ 60)
    (d : Document) :
    (jsonFindValue d.text key = none ↔ ∀ m ∈ d.allMembers, m.name ≠ key) ∧
      ∀ m, (d.allMembers.find? fun m => m.name = key) = some m →
        jsonFindValue d.text key = some (d.text.drop m.start) ∧
          m.value.text <+: d.text.drop m.start ∧
          ∃ b rest, d.text.drop m.start = b :: rest ∧ isspace b = false := by
  rw [jsonFindValue_eq_valueOf hkey hlength d]
  constructor
  · rw [valueOf, Option.map_eq_none_iff, List.find?_eq_none]
    simp
  · intro m hm
    have hstands := d.standsIn m (List.mem_of_find?_eq_some hm)
    obtain ⟨after, hafter⟩ := id hstands
    obtain ⟨b, rest, htext, hb⟩ := m.value.head_text
    refine ⟨by rw [valueOf, hm, Option.map_some], hstands, b, rest ++ after, ?_, hb⟩
    rw [← hafter, htext, List.cons_append]

/-- A label in a string, and the member in an object of an array. -/
def noteReport : Document where
  before := noBlanks
  value :=
    .object
      (.cons ⟨ascii "note", List.all_eq_true.mp rfl⟩
        (.string
          (.escape ⟨34, by decide⟩ :: plainString (ascii "lat") (List.all_eq_true.mp rfl) ++
            .escape ⟨34, by decide⟩ :: plainString (ascii ":1") (List.all_eq_true.mp rfl)))
        (.one ⟨ascii "tpv", List.all_eq_true.mp rfl⟩
          (.array
            (.one
              (.object
                (.last noBlanks ⟨ascii "lat", List.all_eq_true.mp rfl⟩ ⟨[32], List.all_eq_true.mp rfl⟩
                  (.number ⟨false, ⟨ascii "48", by decide, List.all_eq_true.mp rfl⟩, by decide, none, none⟩) noBlanks))))))
  after := noBlanks

theorem jsonFindValue_noteReport :
    jsonFindValue noteReport.text (ascii "lat") = some (ascii "48\x7d]\x7d") :=
  ((jsonFindValue_document ⟨by decide, List.all_eq_true.mp rfl⟩ (by decide) noteReport).2 _ rfl).1.trans
    (by decide +kernel)

/-! ## The fix of one object -/

structure Fix (LongDouble : Type) where
  mode : Int
  lat : LongDouble
  lon : LongDouble
  alt : LongDouble
  deriving DecidableEq, Repr

variable {LongDouble : Type} (C : Libc LongDouble)

def PositionInfo.fix (position : PositionInfo LongDouble) : Fix LongDouble where
  mode := position.mode
  lat := position.position.lat
  lon := position.position.lon
  alt := position.position.alt

/-- What is read of each name where `find` leads, with the defaults. -/
def readFix (find : Text → Option Text) : Fix LongDouble :=
  let number key := (find (ascii key)).bind fun value => (floatingSubject value).map C.longDouble
  { mode := ((find (ascii "mode")).bind fun value => (strtol value).map toInt).getD modeNotSeen
    lat := (number "lat").getD C.zero
    lon := (number "lon").getD C.zero
    alt := ((number "altHAE").or (number "alt")).getD C.zero }

/-- The names that are looked up: `alt` only where `altHAE` gives no number. -/
def lookedUp (find : Text → Option Text) : List Text :=
  [ascii "mode", ascii "lat", ascii "lon", ascii "altHAE"] ++
    if ((find (ascii "altHAE")).bind floatingSubject).isSome then [] else [ascii "alt"]

def IsTpv (o : List Member) : Prop :=
  ∃ m ∈ o, m.name = ascii "class" ∧ m.value.text = ascii "\"TPV\""

instance (o : List Member) : Decidable (IsTpv o) :=
  inferInstanceAs (Decidable (∃ m ∈ o, m.name = ascii "class" ∧ m.value.text = ascii "\"TPV\""))

/-- The fix is the one of the object, and every look-up led to the object's own member, or to none
where the object has none. -/
structure ReadFrom (line : Text) (position : PositionInfo LongDouble) (o : List Member) : Prop where
  fix : position.fix = readFix C fun key => valueOf key line o
  places : ∀ key ∈ lookedUp (jsonFindValue line), jsonFindValue line key = valueOf key line o

/-- No member of a name that is looked up stands in front of the object's own one, and none stands
anywhere where the object has none. -/
def OwnFirst (d : Document) (o : List Member) : Prop :=
  ∀ key ∈ lookedUp fun key => valueOf key d.text o, placeOf key d.allMembers = placeOf key o

instance (d : Document) (o : List Member) : Decidable (OwnFirst d o) :=
  inferInstanceAs (Decidable (∀ key ∈ lookedUp fun key => valueOf key d.text o,
    placeOf key d.allMembers = placeOf key o))

variable {C}

theorem readAltitude_eq_or (line : Text) :
    readAltitude C line =
      (jsonParseNumber C line (ascii "altHAE")).or (jsonParseNumber C line (ascii "alt")) := by
  unfold readAltitude
  cases jsonParseNumber C line (ascii "altHAE") <;> rfl

theorem fix_gpsParseTpv {line : Text} {position position' : PositionInfo LongDouble}
    (h : gpsParseTpv C line position = some position') :
    position'.fix = readFix C (jsonFindValue line) := by
  simp only [gpsParseTpv, readAltitude_eq_or] at h
  split at h <;> cases h
  rfl

theorem mem_lookedUp {find : Text → Option Text} {key : Text}
    (h : key ∈ [ascii "mode", ascii "lat", ascii "lon", ascii "altHAE"]) : key ∈ lookedUp find :=
  List.mem_append_left _ h

theorem readFix_congr {find find' : Text → Option Text}
    (h : ∀ key ∈ lookedUp find, find key = find' key) : readFix C find = readFix C find' := by
  have hmode := h (ascii "mode") (mem_lookedUp (by simp))
  have hlat := h (ascii "lat") (mem_lookedUp (by simp))
  have hlon := h (ascii "lon") (mem_lookedUp (by simp))
  have haltHAE := h (ascii "altHAE") (mem_lookedUp (by simp))
  have halt : (find (ascii "altHAE")).bind floatingSubject = none →
      find (ascii "alt") = find' (ascii "alt") := fun hnone =>
    h (ascii "alt") (List.mem_append_right _ (by simp [hnone]))
  simp only [readFix, hmode, hlat, hlon, ← haltHAE]
  cases hsubject : (find (ascii "altHAE")).bind floatingSubject with
  | none => rw [halt hsubject]
  | some subject =>
    obtain ⟨value, hvalue, hfloating⟩ := Option.bind_eq_some_iff.mp hsubject
    simp [hvalue, hfloating]

/-- The altitude's second name is looked up or not as the first one says. -/
theorem lookedUp_congr {find find' : Text → Option Text}
    (h : find (ascii "altHAE") = find' (ascii "altHAE")) : lookedUp find = lookedUp find' := by
  rw [lookedUp, h, lookedUp]

theorem isKey_of_mem_lookedUp {find : Text → Option Text} {key : Text} (h : key ∈ lookedUp find) :
    IsKey key ∧ key.length ≤ 60 := by
  have hnames : ∀ key ∈ [ascii "mode", ascii "lat", ascii "lon", ascii "altHAE", ascii "alt"],
      IsKey key ∧ key.length ≤ 60 := by
    have hkey : ∀ {key : Text}, key ≠ [] → key.all isalpha = true → key.length ≤ 60 →
        IsKey key ∧ key.length ≤ 60 := fun hne hall hlength =>
      ⟨⟨hne, List.all_eq_true.mp hall⟩, hlength⟩
    simp only [List.forall_mem_cons]
    exact ⟨hkey (by decide) rfl (by decide), hkey (by decide) rfl (by decide),
      hkey (by decide) rfl (by decide), hkey (by decide) rfl (by decide),
      hkey (by decide) rfl (by decide), by simp⟩
  refine hnames key ?_
  rcases List.mem_append.mp h with h | h
  · exact List.mem_append_left [ascii "alt"] h
  · split at h
    · cases h
    · exact List.mem_append_right [ascii "mode", ascii "lat", ascii "lon", ascii "altHAE"] h

/-- The fix comes from one TPV object just if that object's members are the first of their names
in the line. -/
theorem fix_from_one_object_iff (d : Document) {position position' : PositionInfo LongDouble}
    (h : gpsParseTpv C d.text position = some position') :
    (∃ o ∈ d.objects, IsTpv o ∧ ReadFrom C d.text position' o) ↔
      ∃ o ∈ d.objects, IsTpv o ∧ OwnFirst d o := by
  have hplace : ∀ o ∈ d.objects, ∀ key, IsKey key ∧ key.length ≤ 60 →
      (jsonFindValue d.text key = valueOf key d.text o ↔
        placeOf key d.allMembers = placeOf key o) := fun o ho key hkey => by
    rw [jsonFindValue_eq_valueOf hkey.1 hkey.2]
    exact valueOf_eq_iff d.standsIn fun m hm => d.standsIn m (d.objects_subset o ho hm)
  refine exists_congr fun o => and_congr_right fun ho => and_congr_right fun _ => ?_
  constructor
  · rintro ⟨-, hplaces⟩ key hkey
    have haltHAE := hplaces (ascii "altHAE") (mem_lookedUp (by simp))
    rw [← lookedUp_congr haltHAE] at hkey
    exact (hplace o ho key (isKey_of_mem_lookedUp hkey)).mp (hplaces key hkey)
  · intro hown
    have hplaces : ∀ key ∈ lookedUp fun key => valueOf key d.text o,
        jsonFindValue d.text key = valueOf key d.text o := fun key hkey =>
      (hplace o ho key (isKey_of_mem_lookedUp hkey)).mpr (hown key hkey)
    have haltHAE := hplaces (ascii "altHAE") (mem_lookedUp (by simp))
    rw [← lookedUp_congr haltHAE] at hplaces
    exact ⟨(fix_gpsParseTpv h).trans (readFix_congr hplaces), hplaces⟩

/-- A TPV object with the members `rest` behind its class. -/
def tpvObject (rest : Members) : Value :=
  .object
    (.cons ⟨ascii "class", List.all_eq_true.mp rfl⟩ (.string (plainString (ascii "TPV") (List.all_eq_true.mp rfl))) rest)

def modeMember (digits : Digits) (h : digits.1.head? = some 48 → digits.1.length = 1) : Members :=
  .one ⟨ascii "mode", List.all_eq_true.mp rfl⟩ (.number ⟨false, digits, h, none, none⟩)

/-- A receiver with a fix. -/
def fixObject : Value :=
  tpvObject
    (.cons ⟨ascii "lat", List.all_eq_true.mp rfl⟩
      (.number ⟨false, ⟨ascii "48", by decide, List.all_eq_true.mp rfl⟩, by decide, none, none⟩)
      (modeMember ⟨ascii "3", by decide, List.all_eq_true.mp rfl⟩ (by decide)))

/-- A poll that lists the reports of receivers. -/
def pollReport (receivers : Items) : Document where
  before := noBlanks
  value :=
    .object
      (.cons ⟨ascii "class", List.all_eq_true.mp rfl⟩ (.string (plainString (ascii "POLL") (List.all_eq_true.mp rfl)))
        (.one ⟨ascii "tpv", List.all_eq_true.mp rfl⟩ (.array receivers)))
  after := noBlanks

/-- Numbers as they are written. -/
def writtenNumbers : Libc Text where
  time := 0
  longDouble := id
  zero := ascii "0"

def noPosition : PositionInfo Text := ⟨⟨[], [], []⟩, 0, 0⟩

/-- One receiver in the list, and its fix. -/
theorem fix_from_one_object_one_receiver :
    ∃ o ∈ (pollReport (.one fixObject)).objects, IsTpv o ∧
      ReadFrom writtenNumbers (pollReport (.one fixObject)).text
        ⟨⟨ascii "48", ascii "0", ascii "0"⟩, 0, 3⟩ o :=
  (@fix_from_one_object_iff _ _ (pollReport (.one fixObject)) noPosition _
    (by decide +kernel)).mpr (by decide +kernel)

/-- A receiver that has no fix yet in front of one that has: the mode of the first and the latitude
of the second are reported. -/
theorem fix_of_two_receivers :
    let report := pollReport
      (.cons (tpvObject (modeMember ⟨ascii "1", by decide, List.all_eq_true.mp rfl⟩ (by decide))) (.one fixObject))
    (gpsParseTpv writtenNumbers report.text noPosition).map PositionInfo.fix =
        some ⟨1, ascii "48", ascii "0", ascii "0"⟩ ∧
      ∀ o ∈ report.objects, IsTpv o →
        readFix writtenNumbers (fun key => valueOf key report.text o) ≠
          ⟨1, ascii "48", ascii "0", ascii "0"⟩ := by
  decide +kernel

end SensorLib.Gps
