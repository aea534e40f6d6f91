import SensorLib.Socket.Acts
import SensorLib.Socket.Interface
import SensorLib.Threads.Sequential

/-! # How long the connection loops wait

The time that is left is computed from the clock in whole milliseconds. It is
passed on as the `int` of `poll`, as the `timeval` of two socket options, and
halved as the limit of a sleep.
-/

namespace SensorLib

namespace Timed

structure Timeval where
  sec : Int
  usec : Int
  deriving DecidableEq, Repr

namespace Timeval

/-- The arithmetic of `ConfigureSocketForConnection`. -/
def ofMilliseconds (timeout : Int) : Timeval := ⟨timeout.tdiv 1000, timeout.tmod 1000 * 1000⟩

def microseconds (limit : Timeval) : Int := limit.sec * 1000000 + limit.usec

end Timeval

/-- The calls that set a limit or wait. A `connect` or `accept` waits under the limit that was set
for its socket. -/
inductive SystemCall
  | setTimeouts (limit : Timeval)
  | poll (timeout : Int32)
  | connect (limit : Timeval)
  | accept (limit : Timeval)
  | sleepFor (milliseconds : Int)
  deriving DecidableEq, Repr

/-- A call, with the reading of the clock that its time was computed from. -/
structure Step where
  now : Nat
  call : SystemCall
  deriving DecidableEq, Repr

/-- What `connect` reports: success, or one of the errors that the code tells apart. -/
inductive ConnectResult
  | success
  | EISCONN
  | ECONNREFUSED
  | EHOSTUNREACH
  | EHOSTDOWN
  | EINVAL
  | ETIMEDOUT
  | EAGAIN
  | other
  deriving DecidableEq, Repr

/-- What one round of a loop meets: `connected_`, whether `poll` reports the socket ready, what
`connect` reports, and the clock at the start, after `poll` and before the next round. -/
structure Round where
  connected : Bool
  now : Nat
  ready : Bool
  nowReady : Nat
  result : ConnectResult
  nowRetry : Nat
  deriving DecidableEq, Repr

/-- A connection attempt: when it began, on a clock of nanoseconds, and `conn_timeout_`. -/
structure Attempting where
  startTime : Nat
  connTimeout : UInt32
  deriving DecidableEq

namespace Attempting

variable (c : Attempting)

/-- `duration_cast` drops what is left of a millisecond. -/
def elapsed (now : Nat) : Int := ((now : Int) - c.startTime).tdiv 1000000

def getRemainingConnectionTime (now : Nat) : Int := c.connTimeout.toNat - c.elapsed now

def configureSocketForConnection (now : Nat) (timeout : Int) : Step :=
  ⟨now, .setTimeouts (.ofMilliseconds timeout)⟩

/-- `timeout.count()` becomes the `int` argument of `poll`. -/
def waitForSocket (now : Nat) (timeout : Int) : Step := ⟨now, .poll (Int32.ofInt timeout)⟩

def connect (now : Nat) (timeout : Int) : Step := ⟨now, .connect (.ofMilliseconds timeout)⟩

/-- The back-off, once `retry_count` is counted up. -/
def sleepFor (now : Nat) (retryCount : Nat) (remaining : Int) : Step :=
  ⟨now, .sleepFor (min (remaining.tdiv 2) (100 * 2 ^ retryCount))⟩

/-- One round, which the two loops of an adapter have in common, and its calls. -/
def round (retryCount : Nat) (r : Round) : Attempt × List Step :=
  let remaining := c.getRemainingConnectionTime r.now
  if remaining ≤ 0 then (.expired, [])
  else
    let polled := [configureSocketForConnection r.now remaining, waitForSocket r.now remaining]
    if !r.ready then (.notReady, polled)
    else
      let remaining := c.getRemainingConnectionTime r.nowReady
      if remaining ≤ 0 then (.expiredReady, polled)
      else
        let tried := polled ++
          [configureSocketForConnection r.nowReady remaining, connect r.nowReady remaining]
        match r.result with
        | .success => (.connected, tried)
        | .EISCONN => (.alreadyConnected, tried)
        | .ETIMEDOUT | .EAGAIN | .other => (.failed, tried)
        | .ECONNREFUSED | .EHOSTUNREACH | .EHOSTDOWN | .EINVAL =>
          let remaining := c.getRemainingConnectionTime r.nowRetry
          if remaining ≤ 0 then (.unavailableExpired, tried)
          else (.unavailable, tried ++ [sleepFor r.nowRetry (retryCount + 1) remaining])

/-- A loop, with the rounds that are left: when it stops before a round, and after which outcomes
it goes on. The outcome is that of the last round, if that ended the loop. -/
def loop (stops : Round → Bool) (goesOn : Attempt → Bool) (rounds : Nat → Round) :
    Nat → Option Attempt × List Step
  | 0 => (none, [])
  | left + 1 =>
    let retryCount := maxRetries - (left + 1)
    if stops (rounds retryCount) then (none, [])
    else
      let (attempt, steps) := c.round retryCount (rounds retryCount)
      if goesOn attempt then
        let (outcome, rest) := loop stops goesOn rounds left
        (outcome, steps ++ rest)
      else (some attempt, steps)

/-- The loop of `SendConnectionRequest` goes on after a failed `poll`. -/
def requestLoop (rounds : Nat → Round) : Option Attempt × List Step :=
  c.loop (fun r => r.connected) (fun a => a = .notReady ∨ a = .unavailable) rounds maxRetries

/-- The loop of `ConnectToPeer` does not, and does not look at `connected_`. -/
def connectLoop (rounds : Nat → Round) : Option Attempt × List Step :=
  c.loop (fun _ => false) (fun a => a = .unavailable) rounds maxRetries

/-- `ListenForPeer`, with the answers of `bind` and `listen`. -/
def listen (now : Nat) (binds listens : Bool) : List Step :=
  let remaining := c.getRemainingConnectionTime now
  if remaining ≤ 0 then []
  else if binds && listens then
    [configureSocketForConnection now remaining, ⟨now, .accept (.ofMilliseconds remaining)⟩]
  else [configureSocketForConnection now remaining]

end Attempting

namespace WifiAdapter

/-- Without an access point there is no request. -/
def sendConnectionRequest (c : Attempting) (accessPoint : Bool) (rounds : Nat → Round) : List Step :=
  if accessPoint then (c.requestLoop rounds).2 else []

def connectToPeer (c : Attempting) (rounds : Nat → Round) : List Step := (c.connectLoop rounds).2

def listenForPeer (c : Attempting) (now : Nat) (binds listens : Bool) : List Step :=
  c.listen now binds listens

end WifiAdapter

namespace BluetoothAdapter

def sendConnectionRequest (c : Attempting) (rounds : Nat → Round) : List Step :=
  (c.requestLoop rounds).2

def connectToPeer (c : Attempting) (rounds : Nat → Round) : List Step := (c.connectLoop rounds).2

def listenForPeer (c : Attempting) (now : Nat) (binds listens : Bool) : List Step :=
  c.listen now binds listens

end BluetoothAdapter

/-! ## What the calls owe -/

/-- The limits are positive and at most what is left, and a sleep takes at most half of it. -/
def SystemCall.FitsIn (remaining : Int) : SystemCall → Prop
  | .setTimeouts limit | .connect limit | .accept limit =>
    0 < limit.microseconds ∧ limit.microseconds ≤ remaining * 1000
  | .poll timeout => 0 < timeout.toInt ∧ timeout.toInt ≤ remaining
  | .sleepFor milliseconds => 0 ≤ milliseconds ∧ milliseconds * 2 ≤ remaining

/-- The longest that a call waits, in microseconds. A negative `poll` and a limit of zero wait for
ever. -/
def SystemCall.longest : SystemCall → Option Int
  | .setTimeouts _ => some 0
  | .poll timeout => if timeout.toInt < 0 then none else some (timeout.toInt * 1000)
  | .connect limit | .accept limit =>
    if limit.microseconds = 0 then none else some limit.microseconds
  | .sleepFor milliseconds => some (milliseconds * 1000)

def SystemCall.isConnect : SystemCall → Bool
  | .connect _ => true
  | _ => false

/-- A call fits in the time that is left, and has ended when the time is over. -/
structure InTime (c : Attempting) (step : Step) : Prop where
  fits : step.call.FitsIn (c.getRemainingConnectionTime step.now)
  ends : ∃ wait, step.call.longest = some wait ∧
    c.elapsed step.now * 1000 + wait ≤ c.connTimeout.toNat * 1000

structure KeepsTime (c : Attempting) (steps : List Step) : Prop where
  connects : steps.countP (fun step => step.call.isConnect) ≤ maxRetries
  inTime : ∀ step ∈ steps, InTime c step

/-- The greatest `int`. -/
def intMax : Int := 2147483647

/-- The readings of the clock do not go back. -/
structure Ordered (c : Attempting) (rounds : Nat → Round) : Prop where
  start : c.startTime ≤ (rounds 0).now
  ready : ∀ i, (rounds i).now ≤ (rounds i).nowReady
  retry : ∀ i, (rounds i).nowReady ≤ (rounds i).nowRetry
  next : ∀ i, (rounds i).nowRetry ≤ (rounds (i + 1)).now

variable {c : Attempting} {rounds : Nat → Round} {now : Nat}

namespace Attempting

/-- Time that has passed does not come back. -/
theorem remaining_antitone {now' : Nat} (h : now ≤ now') :
    c.getRemainingConnectionTime now' ≤ c.getRemainingConnectionTime now := by
  have helapsed : c.elapsed now ≤ c.elapsed now' :=
    Int.tdiv_le_tdiv (by decide) (by omega)
  unfold getRemainingConnectionTime
  omega

theorem remaining_le (h : c.startTime ≤ now) : c.getRemainingConnectionTime now ≤ 4294967295 := by
  have helapsed : 0 ≤ c.elapsed now := Int.tdiv_nonneg (by omega) (by decide)
  have hlt := c.connTimeout.toNat_lt
  unfold getRemainingConnectionTime
  omega

/-- A call that fits ends in time, if it is not one that waits for ever. -/
theorem inTime_of_fits {call : SystemCall}
    (hfits : call.FitsIn (c.getRemainingConnectionTime now)) : InTime c ⟨now, call⟩ := by
  have hwait : ∃ wait, call.longest = some wait ∧
      wait ≤ c.getRemainingConnectionTime now * 1000 := by
    cases call with
    | setTimeouts limit =>
      obtain ⟨hpos, hle⟩ := hfits
      exact ⟨0, rfl, by omega⟩
    | poll timeout =>
      obtain ⟨hpos, hle⟩ := hfits
      exact ⟨_, if_neg (by omega), by omega⟩
    | connect limit | accept limit =>
      obtain ⟨hpos, hle⟩ := hfits
      exact ⟨_, if_neg (by omega), hle⟩
    | sleepFor milliseconds =>
      obtain ⟨hpos, hle⟩ := hfits
      exact ⟨_, rfl, by omega⟩
  obtain ⟨wait, hlongest, hle⟩ := hwait
  refine ⟨hfits, wait, hlongest, ?_⟩
  show c.elapsed now * 1000 + wait ≤ _
  unfold getRemainingConnectionTime at hle
  omega

theorem microseconds_ofMilliseconds {timeout : Int} (h : 0 < timeout) :
    (Timeval.ofMilliseconds timeout).microseconds = timeout * 1000 := by
  simp only [Timeval.microseconds, Timeval.ofMilliseconds, Int.tdiv_eq_ediv_of_nonneg h.le,
    Int.tmod_eq_emod_of_nonneg h.le]
  omega

/-- A limit of milliseconds is exact. -/
theorem limit_fits {timeout : Int} (h : 0 < timeout) :
    0 < (Timeval.ofMilliseconds timeout).microseconds ∧
      (Timeval.ofMilliseconds timeout).microseconds ≤ timeout * 1000 := by
  rw [microseconds_ofMilliseconds h]
  omega

/-- The `int` of `poll` is what is left, unless that is more than an `int` holds. -/
theorem poll_inTime_iff (hstart : c.startTime ≤ now)
    (hpos : 0 < c.getRemainingConnectionTime now) :
    InTime c (waitForSocket now (c.getRemainingConnectionTime now)) ↔
      c.getRemainingConnectionTime now ≤ intMax := by
  have hle := remaining_le hstart
  constructor
  · intro h
    obtain ⟨hpoll, -⟩ := h.fits
    by_contra hover
    have hwrapped : (Int32.ofInt (c.getRemainingConnectionTime now)).toInt =
        c.getRemainingConnectionTime now - 4294967296 := by
      rw [Int32.toInt_ofInt]
      unfold intMax at hover
      simp only [Int.bmod, Int32.size]
      omega
    have hpoll' : 0 < (Int32.ofInt (c.getRemainingConnectionTime now)).toInt := hpoll
    omega
  · intro hmax
    unfold intMax at hmax
    have hsame := Int32.toInt_ofInt_of_le (n := c.getRemainingConnectionTime now) (by omega)
      (by omega)
    refine inTime_of_fits ⟨?_, ?_⟩ <;> rw [hsame]
    exact hpos

theorem sleep_inTime (hpos : 0 < c.getRemainingConnectionTime now) (retryCount : Nat) :
    InTime c (sleepFor now retryCount (c.getRemainingConnectionTime now)) := by
  refine inTime_of_fits ?_
  have hback : (0 : Int) ≤ 100 * 2 ^ retryCount :=
    Int.mul_nonneg (by decide) (Int.le_of_lt (Int.pow_pos (by decide)))
  have hhalf := Int.tdiv_eq_ediv_of_nonneg (b := 2) hpos.le
  have hmin := min_le_left ((c.getRemainingConnectionTime now).tdiv 2) (100 * 2 ^ retryCount)
  refine ⟨le_min ?_ hback, ?_⟩ <;> omega

theorem accept_inTime (hpos : 0 < c.getRemainingConnectionTime now) :
    InTime c ⟨now, .accept (.ofMilliseconds (c.getRemainingConnectionTime now))⟩ :=
  inTime_of_fits (limit_fits hpos)

theorem setTimeouts_inTime (hpos : 0 < c.getRemainingConnectionTime now) :
    InTime c (configureSocketForConnection now (c.getRemainingConnectionTime now)) :=
  inTime_of_fits (limit_fits hpos)

theorem connect_inTime (hpos : 0 < c.getRemainingConnectionTime now) :
    InTime c (connect now (c.getRemainingConnectionTime now)) :=
  inTime_of_fits (limit_fits hpos)

/-! ## Rounds -/

theorem round_of_expired {r : Round} (h : c.getRemainingConnectionTime r.now ≤ 0)
    (retryCount : Nat) : c.round retryCount r = (.expired, []) := by
  simp only [round, if_pos h]

/-- The calls before `connect`. -/
def polled (c : Attempting) (r : Round) : List Step :=
  [configureSocketForConnection r.now (c.getRemainingConnectionTime r.now),
    waitForSocket r.now (c.getRemainingConnectionTime r.now)]

/-- After the `poll` of a round come calls in time, and one `connect` at most. -/
theorem round_spec {r : Round} (hpos : 0 < c.getRemainingConnectionTime r.now) (retryCount : Nat) :
    ∃ rest, (c.round retryCount r).2 = polled c r ++ rest ∧ (∀ step ∈ rest, InTime c step) ∧
      rest.countP (fun step => step.call.isConnect) ≤ 1 := by
  have hpos' : ¬ c.getRemainingConnectionTime r.now ≤ 0 := by omega
  have hnone : ∃ rest, polled c r = polled c r ++ rest ∧ (∀ step ∈ rest, InTime c step) ∧
      rest.countP (fun step => step.call.isConnect) ≤ 1 :=
    ⟨[], (List.append_nil _).symm, fun _ h => absurd h List.not_mem_nil, Nat.zero_le _⟩
  simp only [round, if_neg hpos']
  cases r.ready with
  | false => exact hnone
  | true =>
    by_cases hready : c.getRemainingConnectionTime r.nowReady ≤ 0
    · simp only [Bool.not_true, Bool.false_eq_true, if_false, if_pos hready]
      exact hnone
    · simp only [Bool.not_true, Bool.false_eq_true, if_false, if_neg hready]
      have htried : ∀ step ∈ [configureSocketForConnection r.nowReady
          (c.getRemainingConnectionTime r.nowReady),
          connect r.nowReady (c.getRemainingConnectionTime r.nowReady)], InTime c step := by
        intro step hstep
        rcases List.mem_pair.mp hstep with rfl | rfl
        · exact setTimeouts_inTime (by omega)
        · exact connect_inTime (by omega)
      cases r.result with
      | success | EISCONN | ETIMEDOUT | EAGAIN | other => exact ⟨_, rfl, htried, le_refl 1⟩
      | ECONNREFUSED | EHOSTUNREACH | EHOSTDOWN | EINVAL =>
        by_cases hretry : c.getRemainingConnectionTime r.nowRetry ≤ 0
        · simp only [if_pos hretry]
          exact ⟨_, rfl, htried, le_refl 1⟩
        · simp only [if_neg hretry]
          refine ⟨_, List.append_assoc _ _ _, fun step hstep => ?_, le_refl 1⟩
          rcases List.mem_append.mp hstep with hstep | hstep
          · exact htried step hstep
          · rw [List.mem_singleton.mp hstep]
            exact sleep_inTime (by omega) _

theorem round_inTime_iff {r : Round} (hstart : c.startTime ≤ r.now) (retryCount : Nat) :
    (∀ step ∈ (c.round retryCount r).2, InTime c step) ↔
      c.getRemainingConnectionTime r.now ≤ intMax := by
  by_cases hexpired : c.getRemainingConnectionTime r.now ≤ 0
  · rw [round_of_expired hexpired]
    have hmax : c.getRemainingConnectionTime r.now ≤ intMax := hexpired.trans (by decide)
    exact iff_of_true (fun _ h => absurd h List.not_mem_nil) hmax
  · have hpos : 0 < c.getRemainingConnectionTime r.now := by omega
    obtain ⟨rest, hsteps, hrest, -⟩ := round_spec hpos retryCount
    rw [hsteps, ← poll_inTime_iff hstart hpos]
    constructor
    · exact fun h => h _ (List.mem_append_left _ (List.mem_cons_of_mem _ List.mem_cons_self))
    · intro hpoll step hstep
      rcases List.mem_append.mp hstep with hstep | hstep
      · rcases List.mem_pair.mp hstep with rfl | rfl
        · exact setTimeouts_inTime hpos
        · exact hpoll
      · exact hrest step hstep

theorem round_connects (c : Attempting) (retryCount : Nat) (r : Round) :
    (c.round retryCount r).2.countP (fun step => step.call.isConnect) ≤ 1 := by
  by_cases hexpired : c.getRemainingConnectionTime r.now ≤ 0
  · rw [round_of_expired hexpired]
    exact Nat.zero_le _
  · obtain ⟨rest, hsteps, -, hcount⟩ := round_spec (Int.not_le.mp hexpired) retryCount
    rw [hsteps, List.countP_append]
    exact (Nat.zero_add _).le.trans hcount

/-! ## Loops -/

variable {stops : Round → Bool} {goesOn : Attempt → Bool}

/-- The calls of the next round, and of those after it. -/
theorem loop_succ (left : Nat) :
    (c.loop stops goesOn rounds (left + 1)).2 =
      if stops (rounds (maxRetries - (left + 1))) then []
      else (c.round (maxRetries - (left + 1)) (rounds (maxRetries - (left + 1)))).2 ++
        if goesOn (c.round (maxRetries - (left + 1)) (rounds (maxRetries - (left + 1)))).1 then
          (c.loop stops goesOn rounds left).2
        else [] := by
  rw [loop]
  dsimp only
  split
  · rfl
  · split
    · rfl
    · exact (List.append_nil _).symm

theorem loop_connects (left : Nat) :
    (c.loop stops goesOn rounds left).2.countP (fun step => step.call.isConnect) ≤ left := by
  induction left with
  | zero => exact Nat.zero_le _
  | succ left ih =>
    rw [loop_succ]
    split
    · exact Nat.zero_le _
    · have hround := round_connects c (maxRetries - (left + 1)) (rounds (maxRetries - (left + 1)))
      rw [List.countP_append]
      split
      · omega
      · exact (Nat.add_zero _).le.trans (hround.trans (Nat.le_add_left 1 left))

theorem Ordered.start_le (h : Ordered c rounds) (i : Nat) : c.startTime ≤ (rounds i).now := by
  induction i with
  | zero => exact h.start
  | succ i ih =>
    exact ih.trans (((h.ready i).trans (h.retry i)).trans (h.next i))

/-- A loop whose first round is in time goes on in time. -/
theorem loop_inTime (h : Ordered c rounds) (left : Nat) (hleft : left ≤ maxRetries)
    (hmax : c.getRemainingConnectionTime (rounds (maxRetries - left)).now ≤ intMax) :
    ∀ step ∈ (c.loop stops goesOn rounds left).2, InTime c step := by
  induction left with
  | zero => exact fun _ hstep => absurd hstep List.not_mem_nil
  | succ left ih =>
    have hround := (round_inTime_iff (Ordered.start_le h _) (maxRetries - (left + 1))).mpr hmax
    have hnext : maxRetries - left = maxRetries - (left + 1) + 1 := by omega
    have hlater : (rounds (maxRetries - (left + 1))).now ≤ (rounds (maxRetries - left)).now := by
      rw [hnext]
      exact ((h.ready _).trans (h.retry _)).trans (h.next _)
    have hrest := ih (by omega) ((remaining_antitone hlater).trans hmax)
    rw [loop_succ]
    split
    · exact fun _ hstep => absurd hstep List.not_mem_nil
    · intro step hstep
      rcases List.mem_append.mp hstep with hstep | hstep
      · exact hround step hstep
      · split at hstep
        · exact hrest step hstep
        · exact absurd hstep List.not_mem_nil

/-- The first round shows whether a loop keeps time. -/
theorem loop_keepsTime_iff (h : Ordered c rounds) :
    KeepsTime c (c.loop stops goesOn rounds maxRetries).2 ↔
      (stops (rounds 0) = false → c.getRemainingConnectionTime (rounds 0).now ≤ intMax) := by
  have hfirst : (c.loop stops goesOn rounds maxRetries).2 = if stops (rounds 0) then [] else
      (c.round 0 (rounds 0)).2 ++ if goesOn (c.round 0 (rounds 0)).1 then
        (c.loop stops goesOn rounds 4).2 else [] := loop_succ 4
  constructor
  · intro hkeeps hstops
    rw [hstops, if_neg Bool.false_ne_true] at hfirst
    refine (round_inTime_iff h.start 0).mp fun step hstep => hkeeps.inTime step ?_
    exact hfirst ▸ List.mem_append_left _ hstep
  · intro hmax
    refine ⟨loop_connects _, ?_⟩
    cases hstops : stops (rounds 0) with
    | true =>
      rw [if_pos hstops] at hfirst
      exact hfirst ▸ fun _ hstep => absurd hstep List.not_mem_nil
    | false => exact loop_inTime h maxRetries (le_refl _) (hmax hstops)

theorem listen_keepsTime (c : Attempting) (now : Nat) (binds listens : Bool) :
    KeepsTime c (c.listen now binds listens) := by
  unfold listen
  dsimp only
  split
  · exact ⟨Nat.zero_le _, fun _ hstep => absurd hstep List.not_mem_nil⟩
  · have hpos : 0 < c.getRemainingConnectionTime now := by omega
    split
    · refine ⟨Nat.zero_le _, fun step hstep => ?_⟩
      rcases List.mem_pair.mp hstep with rfl | rfl
      · exact setTimeouts_inTime hpos
      · exact accept_inTime hpos
    · refine ⟨Nat.zero_le _, fun step hstep => ?_⟩
      rw [List.mem_singleton.mp hstep]
      exact setTimeouts_inTime hpos

end Attempting

/-- In both adapters the loops keep time if and only if, at the first look at the clock of the loop,
no more than the greatest `int` is left, and `ListenForPeer` does in any case. -/
theorem waits_in_time_iff (c : Attempting) {rounds : Nat → Round} (h : Ordered c rounds) :
    (∀ accessPoint, KeepsTime c (WifiAdapter.sendConnectionRequest c accessPoint rounds) ↔
      (accessPoint = true → (rounds 0).connected = false →
        c.getRemainingConnectionTime (rounds 0).now ≤ intMax)) ∧
    (KeepsTime c (BluetoothAdapter.sendConnectionRequest c rounds) ↔
      ((rounds 0).connected = false → c.getRemainingConnectionTime (rounds 0).now ≤ intMax)) ∧
    (KeepsTime c (WifiAdapter.connectToPeer c rounds) ↔
      c.getRemainingConnectionTime (rounds 0).now ≤ intMax) ∧
    (KeepsTime c (BluetoothAdapter.connectToPeer c rounds) ↔
      c.getRemainingConnectionTime (rounds 0).now ≤ intMax) ∧
    ∀ now binds listens, KeepsTime c (WifiAdapter.listenForPeer c now binds listens) ∧
      KeepsTime c (BluetoothAdapter.listenForPeer c now binds listens) := by
  have hconnect : KeepsTime c (c.connectLoop rounds).2 ↔
      c.getRemainingConnectionTime (rounds 0).now ≤ intMax :=
    (Attempting.loop_keepsTime_iff h).trans ⟨fun hmax => hmax rfl, fun hmax _ => hmax⟩
  refine ⟨fun accessPoint => ?_, Attempting.loop_keepsTime_iff h, hconnect, hconnect,
    fun now binds listens => ⟨c.listen_keepsTime now binds listens,
      c.listen_keepsTime now binds listens⟩⟩
  cases accessPoint with
  | false =>
    have hnone : KeepsTime c [] := ⟨Nat.zero_le _, fun _ hstep => absurd hstep List.not_mem_nil⟩
    exact iff_of_true hnone fun hfound => (by cases hfound)
  | true => exact (Attempting.loop_keepsTime_iff h).trans ⟨fun hmax _ => hmax, fun hmax => hmax rfl⟩

/-- A server that is never there, with the clock standing still. -/
def refused : Round where
  connected := false
  now := 0
  ready := true
  nowReady := 0
  result := .ECONNREFUSED
  nowRetry := 0

theorem ordered_refused (connTimeout : UInt32) : Ordered ⟨0, connTimeout⟩ fun _ => refused where
  start := le_refl _
  ready _ := le_refl _
  retry _ := le_refl _
  next _ := le_refl _

theorem waits_in_time_iff_refused :
    KeepsTime ⟨0, 10000⟩ (BluetoothAdapter.connectToPeer ⟨0, 10000⟩ fun _ => refused) :=
  (waits_in_time_iff ⟨0, 10000⟩ (ordered_refused 10000)).2.2.2.1.mpr (by decide)

/-- Whatever the timeout and the outcomes, the loops of both adapters keep time. -/
def AlwaysInTime : Prop :=
  ∀ (c : Attempting) (rounds : Nat → Round), Ordered c rounds →
    KeepsTime c (WifiAdapter.sendConnectionRequest c true rounds) ∧
    KeepsTime c (BluetoothAdapter.sendConnectionRequest c rounds) ∧
    KeepsTime c (WifiAdapter.connectToPeer c rounds) ∧
    KeepsTime c (BluetoothAdapter.connectToPeer c rounds)

/-- The greatest timeout is -1 as the `int` of `poll`, which waits for ever. -/
theorem greatest_timeout_polls_for_ever :
    ¬ AlwaysInTime ∧
    ∀ steps ∈ [WifiAdapter.sendConnectionRequest ⟨0, 4294967295⟩ true fun _ => refused,
        BluetoothAdapter.sendConnectionRequest ⟨0, 4294967295⟩ fun _ => refused,
        WifiAdapter.connectToPeer ⟨0, 4294967295⟩ fun _ => refused,
        BluetoothAdapter.connectToPeer ⟨0, 4294967295⟩ fun _ => refused],
      ⟨0, .poll (-1)⟩ ∈ steps ∧ (SystemCall.poll (-1)).longest = none := by
  have hpoll : ∀ steps ∈ [WifiAdapter.sendConnectionRequest ⟨0, 4294967295⟩ true fun _ => refused,
      BluetoothAdapter.sendConnectionRequest ⟨0, 4294967295⟩ fun _ => refused,
      WifiAdapter.connectToPeer ⟨0, 4294967295⟩ fun _ => refused,
      BluetoothAdapter.connectToPeer ⟨0, 4294967295⟩ fun _ => refused],
      ⟨0, .poll (-1)⟩ ∈ steps ∧ (SystemCall.poll (-1)).longest = none := by decide +kernel
  refine ⟨fun h => ?_, hpoll⟩
  have hkeeps := (h ⟨0, 4294967295⟩ (fun _ => refused) (ordered_refused _)).1
  obtain ⟨wait, hwait, -⟩ := (hkeeps.inTime _ (hpoll _ List.mem_cons_self).1).ends
  cases hwait

/-! ## The loops of the programs

An outcome that the clock leads to is one of those that the programs of the
adapters may have.
-/

open Threads Threads.Prog

variable {reuse : Bool} {x : SocketPtr} {s : SharedState} {a : Adapter}

/-- An act that the adapter can do is one of the system. -/
theorem exec_adapterAct (reuse : Bool) {act : AdapterAct} {answer : act.Answer} {a' : Adapter}
    {fds : List Int} {e : Choice} (ha : s.adapterOf x = some a)
    (h : a.exec s.openFds e act = some (answer, a', fds)) :
    ∃ s', (socketSystem reuse).exec (.adapter x act) e s = some (answer, s') ∧
      s'.adapterOf x = some a' ∧ s'.openFds = fds := by
  obtain ⟨link, hlookup⟩ := SharedState.adapterOf_eq_some.mp ha
  refine ⟨{ s.insertSocket x { link, adapter := .object a' } with openFds := fds }, ?_, ?_, rfl⟩
  · show s.exec reuse (.adapter x act) e = _
    simp only [SharedState.exec, hlookup, h, Option.map_some]
  · simp [SharedState.adapterOf, SharedState.insertSocket]

/-- One act of an adapter, and the rest of the program. -/
theorem eval_adapterAct {α : Type} (act : AdapterAct) {answer : act.Answer} {a' : Adapter}
    {fds : List Int} {e : Choice} {k : act.Answer → Program α} {P : α → SharedState → Prop}
    (ha : s.adapterOf x = some a) (h : a.exec s.openFds e act = some (answer, a', fds))
    (hk : ∀ s', s'.adapterOf x = some a' → s'.openFds = fds →
      ∃ es b s'', (k answer).eval (Y := socketSystem reuse) es s' = some (b, s'') ∧ P b s'') :
    ∃ es b s'', ((adapterAct x act).bind k).eval (Y := socketSystem reuse) es s = some (b, s'') ∧
      P b s'' := by
  obtain ⟨s', hexec, ha', hfds⟩ := exec_adapterAct reuse ha h
  obtain ⟨es, b, s'', heval, hP⟩ := hk s' ha' hfds
  refine ⟨e :: es, b, s'', ?_, hP⟩
  show ((socketSystem reuse).exec (.adapter x act) e s).bind _ = _
  rw [hexec]
  exact heval

/-- Whether a request loop that ended so has connected. -/
def requested : Option Attempt → Bool
  | some .connected | some .alreadyConnected => true
  | _ => false

/-- What the loop answers, where `ended` is answered once the rounds are over. -/
def requestAnswer (ended : Bool) : Option Attempt → Bool
  | none => ended
  | some attempt => requested (some attempt)

theorem loop_succ_outcome {c : Attempting} {stops : Round → Bool} {goesOn : Attempt → Bool}
    {rounds : Nat → Round} (left : Nat) :
    (c.loop stops goesOn rounds (left + 1)).1 =
      if stops (rounds (maxRetries - (left + 1))) then none
      else if goesOn (c.round (maxRetries - (left + 1)) (rounds (maxRetries - (left + 1)))).1 then
        (c.loop stops goesOn rounds left).1
      else some (c.round (maxRetries - (left + 1)) (rounds (maxRetries - (left + 1)))).1 := by
  rw [Attempting.loop]
  dsimp only
  split
  · rfl
  · split <;> rfl

/-- A socket that is open can have any outcome. -/
theorem exec_attempt {channel : Channel} {fds : List Int} (hopen : a.channel channel ∈ fds)
    (attempt : Attempt) :
    a.exec fds { attempt } (.attempt channel) = some (attempt, a, fds) :=
  if_pos (Or.inl hopen)

/-- The loop of `SendConnectionRequest` may answer what the clock makes of the rounds. -/
theorem requestLoop_refines (c : Attempting) (rounds : Nat → Round)
    (hconnected : ∀ i, (rounds i).connected = a.connected) {after : Program Bool} {ended : Bool}
    (hafter : ∀ s : SharedState, s.adapterOf x = some a →
      ∃ es s', after.eval (Y := socketSystem reuse) es s = some (ended, s'))
    (left : Nat) (s : SharedState) (ha : s.adapterOf x = some a)
    (hopen : a.sockfdRequest ∈ s.openFds) :
    ∃ es b s', (BaseAdapter.requestLoop x after left).eval (Y := socketSystem reuse) es s =
        some (b, s') ∧
      b = requestAnswer ended (c.loop (fun r => r.connected)
        (fun a => a = .notReady ∨ a = .unavailable) rounds left).1 := by
  have hend : ∀ s : SharedState, s.adapterOf x = some a →
      ∃ es b s', after.eval (Y := socketSystem reuse) es s = some (b, s') ∧ b = ended := by
    intro s ha
    obtain ⟨es, s', heval⟩ := hafter s ha
    exact ⟨es, ended, s', heval, rfl⟩
  induction left generalizing s with
  | zero => exact hend s ha
  | succ left ih =>
    refine eval_adapterAct .isConnected (e := {}) ha rfl fun s₁ ha₁ hfds₁ => ?_
    rw [loop_succ_outcome, hconnected]
    cases hon : a.connected with
    | true => exact hend s₁ ha₁
    | false =>
      have hopen₁ : a.channel .request ∈ s₁.openFds := hfds₁ ▸ hopen
      refine eval_adapterAct (.attempt .request) ha₁ (exec_attempt hopen₁
        (c.round (maxRetries - (left + 1)) (rounds (maxRetries - (left + 1)))).1)
        fun s₂ ha₂ hfds₂ => ?_
      cases (c.round (maxRetries - (left + 1)) (rounds (maxRetries - (left + 1)))).1 with
      | expired | unavailableExpired | failed => exact ⟨[], false, s₂, rfl, rfl⟩
      | notReady | unavailable => exact ih s₂ ha₂ (hfds₂ ▸ hopen₁)
      | expiredReady =>
        exact eval_adapterAct .closeRequest (e := {}) ha₂ rfl
          fun s₃ _ _ => ⟨[], false, s₃, rfl, rfl⟩
      | connected | alreadyConnected => exact ⟨[], true, s₂, rfl, rfl⟩

/-- The Bluetooth adapter answers `connected_` where the rounds have led to nothing. -/
theorem bluetoothRequest_refines (c : Attempting) (rounds : Nat → Round)
    (hconnected : ∀ i, (rounds i).connected = a.connected) (s : SharedState)
    (ha : s.adapterOf x = some a) (hopen : a.sockfdRequest ∈ s.openFds) :
    ∃ es b s', (SensorLib.BluetoothAdapter.sendConnectionRequest x).eval (Y := socketSystem reuse)
        es s = some (b, s') ∧
      b = requestAnswer a.connected (c.loop (fun r => r.connected)
        (fun a => a = .notReady ∨ a = .unavailable) rounds maxRetries).1 := by
  refine requestLoop_refines c rounds hconnected (fun s ha => ?_) maxRetries s ha hopen
  obtain ⟨s', hexec, -⟩ : ∃ s', (socketSystem reuse).exec (.adapter x .isConnected) {} s =
      some (a.connected, s') ∧ _ := exec_adapterAct reuse ha rfl
  refine ⟨[{}], s', ?_⟩
  show ((socketSystem reuse).exec (.adapter x .isConnected) {} s).bind _ = _
  rw [hexec]
  rfl

/-- Whether a connection loop that ended so has connected. -/
def joined : Option Attempt → Bool
  | some .connected => true
  | _ => false

/-- The program of `ConnectToPeer` may set `connected_` where the clock lets a round connect. -/
theorem connectLoop_refines (c : Attempting) (rounds : Nat → Round) (left : Nat) (s : SharedState)
    (ha : s.adapterOf x = some a) (hopen : a.sockfd ∈ s.openFds) :
    ∃ es b s', (BaseAdapter.connectLoop x left).eval (Y := socketSystem reuse) es s = some (b, s') ∧
      s'.adapterOf x = some { a with
        connected := a.connected ||
          joined (c.loop (fun _ => false) (fun a => a = .unavailable) rounds left).1 } := by
  induction left generalizing s with
  | zero => exact ⟨[], (), s, rfl, by simpa [Attempting.loop, joined] using ha⟩
  | succ left ih =>
    have hopen' : a.channel .comms ∈ s.openFds := hopen
    refine eval_adapterAct (.attempt .comms) ha (exec_attempt hopen'
      (c.round (maxRetries - (left + 1)) (rounds (maxRetries - (left + 1)))).1)
      fun s₁ ha₁ hfds₁ => ?_
    rw [loop_succ_outcome]
    cases (c.round (maxRetries - (left + 1)) (rounds (maxRetries - (left + 1)))).1 with
    | expired | notReady | expiredReady | alreadyConnected | unavailableExpired | failed =>
      exact ⟨[], (), s₁, rfl, by simpa [joined] using ha₁⟩
    | connected =>
      exact eval_adapterAct (.setConnected true) (e := {}) ha₁ rfl
        fun s₂ ha₂ _ => ⟨[], (), s₂, rfl, by simpa [joined] using ha₂⟩
    | unavailable => simpa using ih s₁ ha₁ (hfds₁ ▸ hopen)

end Timed

end SensorLib
