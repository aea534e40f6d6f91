import SensorLib.Comms.Types
import SensorLib.Gps.Position
import SensorLib.Text.Buffers
import SensorLib.Text.Lines

/-! # Reading a position from gpsd

The receive loop works on a buffer in place. Every access to the buffer is
checked here, so that an outcome means that none was outside of it.
-/

namespace SensorLib.Gps

open CString Comms

variable {LongDouble : Type} (C : Libc LongDouble)

/-- What the loop has found so far. -/
structure Reading (LongDouble : Type) where
  position : PositionInfo LongDouble
  sawPoll : Bool
  deriving DecidableEq, Repr

/-- How the loop over the lines of the buffer ends. -/
inductive LinesEnd (LongDouble : Type)
  | accepted (position : PositionInfo LongDouble)
  | pending (buffer : Buffer) (lineStart : Nat) (reading : Reading LongDouble)

def Reading.poll (reading : Reading LongDouble) (line : Text) : Reading LongDouble :=
  match gpsParsePoll line reading.position with
  | some position => { position, sawPoll := true }
  | none => reading

/-- The loop over the lines of the buffer, with a bound on the number of lines. -/
def parseLines : Nat → Buffer → Nat → Reading LongDouble → Option (LinesEnd LongDouble)
  | 0, _, _, _ => none
  | bound + 1, recvBuffer, lineStart, reading => do
    match ← recvBuffer.strchr lineStart 10 with
    | none => some (.pending recvBuffer lineStart reading)
    | some newline =>
      let recvBuffer ← recvBuffer.store newline 0
      let line ← recvBuffer.text lineStart
      match gpsParseTpv C line reading.position with
      | some position => some (.accepted position)
      | none => parseLines bound recvBuffer (newline + 1) (reading.poll line)

/-- The bytes of one `recv`, and what is left to receive. Nothing is received when the connection
is closed, fails or stays silent for too long. -/
def recv (size : Nat) : List Text → Text × List Text
  | [] => ([], [])
  | piece :: pieces =>
    (piece.take size, if piece.length ≤ size then pieces else piece.drop size :: pieces)

def recvBufferSize : Nat := 4096

/-- The receive loop, with a bound on the number of calls of `recv`. -/
def receive : Nat → List Text → Buffer → Nat → Reading LongDouble →
    Option (PositionInfo LongDouble ⊕ Reading LongDouble)
  | 0, _, _, _, _ => none
  | bound + 1, pieces, recvBuffer, used, reading =>
    if used + 1 < recvBufferSize then
      let (bytes, pieces) := recv (recvBufferSize - used - 1) pieces
      if bytes = [] then some (.inr reading)
      else do
        let recvBuffer ← recvBuffer.write used bytes
        let used := used + bytes.length
        let recvBuffer ← recvBuffer.store used 0
        match ← parseLines C recvBufferSize recvBuffer 0 reading with
        | .accepted position => some (.inl position)
        | .pending recvBuffer lineStart reading =>
          if lineStart ≤ used then
            let remaining := used - lineStart
            let tail ← recvBuffer.read lineStart remaining
            let recvBuffer ← recvBuffer.write 0 tail
            let recvBuffer ← recvBuffer.store remaining 0
            receive bound pieces recvBuffer remaining reading
          else none
    else some (.inr reading)

/-- What the calls before the loop return, and what is sent. -/
structure Gpsd where
  socket : Bool := true
  inetPton : Bool := true
  connect : Bool := true
  refused : Bool := false
  send : Bool := true
  pieces : List Text

/-- The result, and what is written to `output_len` and to the position, if anything is. -/
structure GpsResult (LongDouble : Type) where
  status : ApiStatus
  outputLen : Option Nat := none
  position : Option (PositionInfo LongDouble) := none
  deriving DecidableEq, Repr

/-- A buffer on the stack. -/
structure RecvBuffer where
  bytes : Buffer
  length_eq : bytes.length = recvBufferSize

def startReading : Reading LongDouble where
  position :=
    { position := { lat := C.zero, lon := C.zero, alt := C.zero }
      timestamp := C.time
      mode := modeNotSeen }
  sawPoll := false

/-- What is returned when no report was accepted as a position. -/
def Reading.result (reading : Reading LongDouble) : GpsResult LongDouble where
  status := if reading.sawPoll then .success else .error
  outputLen := some 1
  position := some reading.position

/-- `output` tells whether both pointers are there. -/
def gpsGetPosition (output : Bool) (gpsd : Gpsd) (recvBuffer : RecvBuffer) :
    Option (GpsResult LongDouble) :=
  if !output || !gpsd.socket || !gpsd.inetPton then some { status := .error }
  else if !gpsd.connect then
    some { status := if gpsd.refused then .notSupported else .error }
  else if !gpsd.send then some { status := .error }
  else
    (receive C (gpsd.pieces.flatten.length + 1) gpsd.pieces recvBuffer.bytes 0
      (startReading C)).map fun
      | .inl position => { status := .success, outputLen := some 1, position := some position }
      | .inr reading => reading.result

/-! ## The lines of the stream -/

/-- The lines that are processed: up to the first with a NUL or without room in the buffer. -/
def usableLines (stream : Text) : List Text :=
  (terminatedLines stream).takeWhile fun line => 0 ∉ line ∧ line.length ≤ 4094

/-- The first line that is accepted as a position decides, and otherwise the polls are folded. -/
def streamResult (stream : Text) : GpsResult LongDouble :=
  let start := startReading C
  match (usableLines stream).findSome? fun line => gpsParseTpv C line start.position with
  | some position => { status := .success, outputLen := some 1, position := some position }
  | none => ((usableLines stream).foldl Reading.poll start).result

/-- Lines one after the other. -/
def follow : Reading LongDouble → List Text → PositionInfo LongDouble ⊕ Reading LongDouble
  | reading, [] => .inr reading
  | reading, line :: lines =>
    match gpsParseTpv C line reading.position with
    | some position => .inl position
    | none => follow (reading.poll line) lines

variable {C}

/-- What is accepted does not depend on the position before it. -/
theorem gpsParseTpv_eq (line : Text) (position position' : PositionInfo LongDouble) :
    gpsParseTpv C line position = gpsParseTpv C line position' := rfl

theorem follow_eq (reading : Reading LongDouble) (lines : List Text)
    (position : PositionInfo LongDouble) :
    follow C reading lines =
      match lines.findSome? fun line => gpsParseTpv C line position with
      | some position => .inl position
      | none => .inr (lines.foldl Reading.poll reading) := by
  induction lines generalizing reading with
  | nil => rfl
  | cons line lines ih =>
    rw [follow, List.findSome?_cons, gpsParseTpv_eq line reading.position position, List.foldl_cons]
    cases gpsParseTpv C line position with
    | some found => rfl
    | none => exact ih (reading.poll line)

theorem usableLines_cons {line rest : Text} (hline : 10 ∉ line) (hnul : 0 ∉ line)
    (hlength : line.length ≤ 4094) :
    usableLines (line ++ 10 :: rest) = line :: usableLines rest := by
  rw [usableLines, terminatedLines_append hline, List.takeWhile_cons_of_pos (by simp [hnul, hlength]),
    usableLines]

/-- Nothing is processed when the first line is not usable. -/
theorem usableLines_eq_nil {stream : Text}
    (h : ∀ line rest, stream = line ++ 10 :: rest → 10 ∉ line → 0 ∉ line → 4094 < line.length) :
    usableLines stream = [] := by
  by_cases hstream : 10 ∈ stream
  · obtain ⟨line, rest, rfl, hline⟩ := List.eq_append_cons_of_mem hstream
    rw [usableLines, terminatedLines_append hline, List.takeWhile_cons_of_neg]
    have hlong := h line rest rfl hline
    simpa using hlong
  · rw [usableLines, terminatedLines_of_notMem hstream, List.takeWhile_nil]

/-! ## The buffer between two calls of `recv` -/

/-- No line at the front of the buffer can be taken from it. -/
def Stuck (rest : Text) : Prop := 10 ∉ rest.takeWhile (· ≠ 0)

theorem not_stuck_iff {rest : Text} :
    ¬ Stuck rest ↔ ∃ line after, rest = line ++ 10 :: after ∧ 10 ∉ line ∧ 0 ∉ line := by
  rw [Stuck, not_not]
  constructor
  · intro hmem
    obtain ⟨line, more, heq, hline⟩ := List.eq_append_cons_of_mem hmem
    have hnul : 0 ∉ rest.takeWhile (· ≠ 0) := fun hzero => by
      simpa using List.mem_takeWhile_imp hzero
    refine ⟨line, more ++ rest.dropWhile (· ≠ 0), ?_, hline, fun hzero => hnul ?_⟩
    · calc rest = rest.takeWhile (· ≠ 0) ++ rest.dropWhile (· ≠ 0) :=
            (List.takeWhile_append_dropWhile ..).symm
        _ = line ++ 10 :: (more ++ rest.dropWhile (· ≠ 0)) := by rw [heq]; simp
    · rw [heq]
      exact List.mem_append_left _ hzero
  · rintro ⟨line, after, rfl, hline, hnul⟩
    have hpos : ∀ b ∈ line, decide (b ≠ 0) = true := fun b hb =>
      decide_eq_true fun hzero => hnul (hzero ▸ hb)
    rw [List.takeWhile_append_of_pos hpos]
    simp

theorem Stuck.line_long {rest more line after : Text} (h : Stuck rest)
    (hfull : more = [] ∨ rest.length = 4095) (heq : rest ++ more = line ++ 10 :: after)
    (hline : 10 ∉ line) (hnul : 0 ∉ line) : 4094 < line.length := by
  rcases List.append_eq_append_iff.mp heq with ⟨tail, rfl, hmore⟩ | ⟨tail, rfl, htail⟩
  · rcases hfull with rfl | hfull
    · simp at hmore
    · rw [List.length_append, hfull]
      omega
  · cases tail with
    | nil =>
      rcases hfull with rfl | hfull
      · cases htail
      · rw [List.append_nil] at hfull
        omega
    | cons b tail =>
      cases htail
      exact absurd h (not_stuck_iff.mpr ⟨line, tail, rfl, hline, hnul⟩)

/-- What is left in the buffer stays unprocessed: the stream has ended or the buffer is full. -/
theorem Stuck.usableLines_eq_nil {rest more : Text} (h : Stuck rest)
    (hfull : more = [] ∨ rest.length = 4095) : usableLines (rest ++ more) = [] :=
  Gps.usableLines_eq_nil fun _ _ heq hline hnul => h.line_long hfull heq hline hnul

variable (C) in
/-- The loop over the lines did to the reading what the lines of the stream do, whatever comes
behind the bytes `data` of the buffer. -/
def Processed (reading : Reading LongDouble) (data : Text) (length stop : Nat) :
    LinesEnd LongDouble → Prop
  | .accepted position => ∀ more, follow C reading (usableLines (data ++ more)) = .inl position
  | .pending m lineStart reading' =>
    m.length = length ∧ ∃ rest, m.Holds lineStart rest ∧ lineStart + rest.length = stop ∧
      Stuck rest ∧ ∀ more, follow C reading (usableLines (data ++ more)) =
        follow C reading' (usableLines (rest ++ more))

/-- A line in front of the bytes is one line more that is followed. -/
theorem Processed.cons {reading : Reading LongDouble} {line rest : Text} {length stop stop' : Nat}
    {linesEnd : LinesEnd LongDouble} (h : Processed C (reading.poll line) rest length stop linesEnd)
    (hparse : gpsParseTpv C line reading.position = none)
    (husable : ∀ more, usableLines (line ++ 10 :: rest ++ more) = line :: usableLines (rest ++ more))
    (hstop : stop = stop') : Processed C reading (line ++ 10 :: rest) length stop' linesEnd := by
  have hfollow : ∀ more, follow C reading (usableLines (line ++ 10 :: rest ++ more)) =
      follow C (reading.poll line) (usableLines (rest ++ more)) := fun more => by
    rw [husable, follow, hparse]
  subst hstop
  cases linesEnd with
  | accepted position => exact fun more => (hfollow more).trans (h more)
  | pending m lineStart reading' =>
    obtain ⟨hlength, rest', hholds, hrest', hstuck, hmore⟩ := h
    exact ⟨hlength, rest', hholds, hrest', hstuck, fun more => (hfollow more).trans (hmore more)⟩

theorem parseLines_processed {bound i : Nat} {m : Buffer} {reading : Reading LongDouble}
    {data : Text} (hbound : data.length < bound) (hlength : data.length ≤ 4095)
    (h : m.Holds i data) :
    ∃ linesEnd, parseLines C bound m i reading = some linesEnd ∧
      Processed C reading data m.length (i + data.length) linesEnd := by
  induction bound generalizing i m reading data with
  | zero => omega
  | succ bound ih =>
    by_cases hstuck : Stuck data
    · have hstrchr := h.strchr_missing (c := 10) (by decide) hstuck
      refine ⟨.pending m i reading, by simp [parseLines, hstrchr], rfl, data, h, rfl, hstuck, ?_⟩
      exact fun _ => rfl
    · obtain ⟨line, rest, rfl, hline, hnul⟩ := not_stuck_iff.mp hstuck
      obtain ⟨m', hstore, hm', hcut, hrest⟩ := h.cut
      have hstrchr := h.strchr_found hline hnul
      have htext := hcut.text_eq hnul
      rw [List.length_append, List.length_cons] at hbound hlength
      have husable : ∀ more, usableLines (line ++ 10 :: rest ++ more) =
          line :: usableLines (rest ++ more) := fun more => by
        rw [List.append_assoc, List.cons_append, usableLines_cons hline hnul (by omega)]
      cases hparse : gpsParseTpv C line reading.position with
      | some position =>
        refine ⟨.accepted position, by simp [parseLines, hstrchr, hstore, htext, hparse], ?_⟩
        intro more
        rw [husable, follow, hparse]
      | none =>
        obtain ⟨linesEnd, hlines, hprocessed⟩ := @ih _ _ (reading.poll line) _ (by omega) (by omega)
          hrest
        rw [hm'] at hprocessed
        refine ⟨linesEnd, by simp [parseLines, hstrchr, hstore, htext, hparse, hlines],
          hprocessed.cons hparse husable ?_⟩
        rw [List.length_append, List.length_cons]
        omega

/-- What one `recv` does to a stream whose pieces are not empty. -/
structure Received (size : Nat) (pieces : List Text) (bytes : Text) (pieces' : List Text) :
    Prop where
  flatten : bytes ++ pieces'.flatten = pieces.flatten
  length : bytes.length ≤ size
  nonempty : [] ∉ pieces'
  ended : bytes = [] → pieces = []

theorem received_recv {size : Nat} {pieces : List Text} (h : [] ∉ pieces) (hsize : size ≠ 0) :
    Received size pieces (recv size pieces).1 (recv size pieces).2 := by
  cases pieces with
  | nil => exact ⟨rfl, Nat.zero_le _, h, fun _ => rfl⟩
  | cons piece pieces =>
    rw [List.mem_cons, not_or] at h
    by_cases hfits : piece.length ≤ size
    · simp only [recv, if_pos hfits, List.take_of_length_le hfits]
      exact ⟨rfl, hfits, h.2, fun hnil => absurd hnil.symm h.1⟩
    · simp only [recv, if_neg hfits]
      refine ⟨?_, List.length_take_le _ _, ?_, fun hnil => ?_⟩
      · rw [List.flatten_cons, ← List.append_assoc, List.take_append_drop, List.flatten_cons]
      · rw [List.mem_cons, not_or]
        exact ⟨fun hdrop => hfits (List.drop_eq_nil_iff.mp hdrop.symm), h.2⟩
      · rcases List.take_eq_nil_iff.mp hnil with hzero | hpiece
        · exact absurd hzero hsize
        · exact absurd hpiece.symm h.1

/-- The loop follows the lines of what is in the buffer and what is still to be received. -/
theorem receive_eq {bound : Nat} {pieces : List Text} {m : Buffer} {reading : Reading LongDouble}
    {rest : Text} (hpieces : [] ∉ pieces) (hbound : pieces.flatten.length < bound)
    (hm : m.length = 4096) (hrest : m.take rest.length = rest) (hlength : rest.length ≤ 4095)
    (hstuck : Stuck rest) :
    receive C bound pieces m rest.length reading =
      some (follow C reading (usableLines (rest ++ pieces.flatten))) := by
  induction bound generalizing pieces m reading rest with
  | zero => omega
  | succ bound ih =>
    by_cases hroom : rest.length + 1 < 4096
    · have hreceived := @received_recv (4096 - rest.length - 1) _ hpieces (by omega)
      rw [receive, recvBufferSize, if_pos hroom]
      generalize recv (4096 - rest.length - 1) pieces = received at *
      obtain ⟨bytes, pieces'⟩ := received
      replace hreceived : Received _ pieces bytes pieces' := hreceived
      have hbytes := hreceived.length
      by_cases hended : bytes = []
      · rw [hreceived.ended hended, List.flatten_nil, hstuck.usableLines_eq_nil (Or.inl rfl), follow]
        exact if_pos hended
      -- The bytes stand behind the rest, and the lines of both are processed.
      obtain ⟨m₁, m₂, hwrite, hstore, hm₂, hholds⟩ :=
        @Buffer.write_terminated m rest.length bytes (by omega)
      rw [hrest] at hholds
      obtain ⟨linesEnd, hlines, hprocessed⟩ := @parseLines_processed _ C 4096 _ _ reading _
        (by rw [List.length_append]; omega) (by rw [List.length_append]; omega) hholds
      rw [← hreceived.flatten, ← List.append_assoc]
      simp only [if_neg hended, hwrite, hstore, hlines, Option.bind_eq_bind, Option.bind_some]
      cases linesEnd with
      | accepted position => exact congrArg _ (hprocessed _).symm
      | pending m₃ lineStart reading' =>
        obtain ⟨hm₃, rest', hholds', hstop, hstuck', hfollow⟩ := hprocessed
        have hlt := hholds'.lt
        rw [Nat.zero_add, List.length_append] at hstop
        -- What is left moves to the front.
        obtain ⟨m₄, m₅, hmove, hend, hm₅, hfront⟩ :=
          @Buffer.write_terminated m₃ 0 rest' (by omega)
        rw [Nat.zero_add] at hend
        rw [List.take_zero, List.nil_append] at hfront
        have hremaining : rest.length + bytes.length - lineStart = rest'.length := by omega
        have hpending : pieces'.flatten.length < bound := by
          have htotal := congrArg List.length hreceived.flatten
          have hpos := List.length_pos_iff.mpr hended
          rw [List.length_append] at htotal
          omega
        rw [hfollow]
        simp only [if_pos (show lineStart ≤ rest.length + bytes.length by omega), hremaining,
          hholds'.read_eq, hmove, hend, Option.bind_some]
        exact ih hreceived.nonempty hpending (by omega) hfront.take_eq (by omega) hstuck'
    · have hfull : rest.length = 4095 := by omega
      rw [receive, recvBufferSize, if_neg hroom, hstuck.usableLines_eq_nil (Or.inr hfull), follow]

theorem streamResult_eq (stream : Text) :
    streamResult C stream =
      match follow C (startReading C) (usableLines stream) with
      | .inl position => { status := .success, outputLen := some 1, position := some position }
      | .inr reading => reading.result := by
  rw [follow_eq _ _ (startReading C).position, streamResult]
  cases (usableLines stream).findSome? fun line =>
    gpsParseTpv C line (startReading C).position <;> rfl

theorem receive_stream {pieces : List Text} (hpieces : [] ∉ pieces) (recvBuffer : RecvBuffer) :
    receive C (pieces.flatten.length + 1) pieces recvBuffer.bytes 0 (startReading C) =
      some (follow C (startReading C) (usableLines pieces.flatten)) :=
  @receive_eq _ C _ _ _ _ [] hpieces (Nat.lt_succ_self _) recvBuffer.length_eq rfl (by simp)
    (by simp [Stuck])

/-- Whatever the pieces in which the stream arrives, the result is that of its lines, and every
access to the buffer was within it. -/
theorem gpsGetPosition_eq_streamResult {pieces : List Text} (hpieces : [] ∉ pieces)
    (recvBuffer : RecvBuffer) :
    gpsGetPosition C true { pieces } recvBuffer = some (streamResult C pieces.flatten) := by
  simp only [gpsGetPosition, receive_stream hpieces, Bool.not_true, Bool.or_self, Bool.false_eq_true,
    if_false, Option.map_some, streamResult_eq]

/-- A poll in two pieces, and a position that does not end. -/
theorem gpsGetPosition_poll_in_two_pieces :
    @gpsGetPosition Text { time := 7, longDouble := id, zero := [] } true
        { pieces := [ascii "\x7b\"class\":\"POLL\",\"acti",
            ascii "ve\":1\x7d\n\x7b\"class\":\"TPV\"\x7d"] }
        ⟨List.replicate 4096 255, List.length_replicate⟩ =
      some
        { status := .success
          outputLen := some 1
          position := some { position := ⟨[], [], []⟩, timestamp := 7, mode := modeNoFix } } :=
  (gpsGetPosition_eq_streamResult (by decide) _).trans (by decide +kernel)

end SensorLib.Gps
