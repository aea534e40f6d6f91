import SensorLib.Socket.Timeouts

/-! # How long `conn` takes

Every wait of a loop is measured from a fresh look at the clock, so late waits do
not add up. The messages of a Wi-Fi connection request come after the last look,
and each of them may take the whole limit that was set before it.
-/

namespace SensorLib

namespace Timed

/-- How long a call waits at most, in microseconds, and how long it did, in nanoseconds. -/
structure Waited where
  longest : Option Int
  took : Nat
  deriving DecidableEq, Repr

/-- What one round of a loop meets, and how long its waits take. -/
structure Pace where
  connected : Bool
  ready : Bool
  result : ConnectResult
  polling : Nat
  connecting : Nat
  sleeping : Nat
  deriving DecidableEq, Repr

namespace Pace

variable (p : Pace) (now : Nat)

/-- The round that begins at a time. -/
def round : Round where
  connected := p.connected
  now
  ready := p.ready
  nowReady := now + p.polling
  result := p.result
  nowRetry := now + p.polling + p.connecting

/-- When the round is over, as it comes out. -/
def ended : Attempt → Nat
  | .expired => now
  | .notReady | .expiredReady => now + p.polling
  | .connected | .alreadyConnected | .failed | .unavailableExpired => now + p.polling + p.connecting
  | .unavailable => now + p.polling + p.connecting + p.sleeping

def waited (step : Step) : Waited where
  longest := step.call.longest
  took :=
    match step.call with
    | .setTimeouts _ | .accept _ => 0
    | .poll _ => p.polling
    | .connect _ => p.connecting
    | .sleepFor _ => p.sleeping

end Pace

/-- A loop that is over: its outcome, its calls, how long they waited, and the time. -/
structure Timing where
  outcome : Option Attempt
  steps : List Step
  waits : List Waited
  ended : Nat
  deriving DecidableEq, Repr

/-- The limit that was set last. -/
def limitOf (steps : List Step) : Timeval :=
  ((steps.filterMap fun step =>
    match step.call with
    | .setTimeouts limit => some limit
    | _ => none).getLast?).getD ⟨0, 0⟩

/-- A limit of zero is none. -/
def Timeval.longest (limit : Timeval) : Option Int :=
  if limit.microseconds = 0 then none else some limit.microseconds

/-- What a call of `conn` meets, and how long it takes. The pauses are before the first look at the
clock, in the request thread of a Bluetooth adapter too, and before `ConnectToPeer` on a Wi-Fi one. -/
structure Meeting where
  pause : Nat
  requestPause : Nat
  addressPause : Nat
  accessPoint : Bool
  request : Nat → Pace
  messages : Vector (Bool × Nat) 4
  connect : Nat → Pace
  binds : Bool
  listens : Bool
  accepts : Bool
  accepting : Nat

/-- The end of a call of `conn`: whether it has connected, the waits, and the time. -/
structure Ended where
  connected : Bool
  waits : List Waited
  ended : Nat
  deriving DecidableEq, Repr

namespace Attempting

variable (c : Attempting)

/-- `loop`, with the time that it takes. -/
def timedLoop (stops : Round → Bool) (goesOn : Attempt → Bool) (paces : Nat → Pace) :
    Nat → Nat → Timing
  | 0, now => ⟨none, [], [], now⟩
  | left + 1, now =>
    let retryCount := maxRetries - (left + 1)
    let p := paces retryCount
    if stops (p.round now) then ⟨none, [], [], now⟩
    else
      let (attempt, steps) := c.round retryCount (p.round now)
      if goesOn attempt then
        let rest := timedLoop stops goesOn paces left (p.ended now attempt)
        ⟨rest.outcome, steps ++ rest.steps, steps.map p.waited ++ rest.waits, rest.ended⟩
      else ⟨some attempt, steps, steps.map p.waited, p.ended now attempt⟩

def timedRequest (paces : Nat → Pace) (now : Nat) : Timing :=
  c.timedLoop (fun r => r.connected) (fun a => a = .notReady ∨ a = .unavailable) paces maxRetries now

def timedConnect (paces : Nat → Pace) (now : Nat) : Ended :=
  let timing := c.timedLoop (fun _ => false) (fun a => a = .unavailable) paces maxRetries now
  ⟨joined timing.outcome, timing.waits, timing.ended⟩

def timedListen (m : Meeting) (now : Nat) : Ended :=
  let remaining := c.getRemainingConnectionTime now
  if remaining ≤ 0 then ⟨false, [], now⟩
  else if m.binds && m.listens then
    ⟨m.accepts, [⟨(Timeval.ofMilliseconds remaining).longest, m.accepting⟩], now + m.accepting⟩
  else ⟨false, [], now⟩

end Attempting

/-- Messages under one limit, up to the first that fails. -/
def exchange (limit : Timeval) : List (Bool × Nat) → Nat → Ended
  | [], now => ⟨true, [], now⟩
  | (ok, took) :: messages, now =>
    if ok then
      let rest := exchange limit messages (now + took)
      ⟨rest.connected, ⟨limit.longest, took⟩ :: rest.waits, rest.ended⟩
    else ⟨false, [⟨limit.longest, took⟩], now + took⟩

variable (c : Attempting) (m : Meeting)

namespace WifiAdapter

/-- The request and its messages. -/
def timedRequest : Ended :=
  let now := c.startTime + m.pause
  if m.accessPoint then
    let timing := c.timedRequest m.request now
    if requested timing.outcome then
      let answered := exchange (limitOf timing.steps) m.messages.toList timing.ended
      ⟨answered.connected, timing.waits ++ answered.waits, answered.ended⟩
    else ⟨false, timing.waits, timing.ended⟩
  else ⟨false, [], now⟩

def timedConn : WifiDeviceType → Ended
  | .router => c.timedListen m (c.startTime + m.pause)
  | .adapter =>
    let request := timedRequest c m
    if request.connected then
      let attempt := c.timedConnect m.connect (request.ended + m.addressPause)
      ⟨attempt.connected, request.waits ++ attempt.waits, attempt.ended⟩
    else request
  | .unknown => ⟨false, [], c.startTime + m.pause⟩

end WifiAdapter

/-- The request thread is joined. -/
def BluetoothAdapter.timedConn (isListener : Bool) : Ended :=
  let request := c.timedRequest m.request (c.startTime + m.requestPause)
  let now := c.startTime + m.pause
  let attempt := if isListener then c.timedListen m now else c.timedConnect m.connect now
  ⟨attempt.connected, request.waits ++ attempt.waits, max request.ended attempt.ended⟩

def timedConn : AdapterKind → Ended
  | .wifi deviceType => WifiAdapter.timedConn c m deviceType
  | .bluetooth isListener => BluetoothAdapter.timedConn c m isListener

/-! ## The longest time -/

/-- No wait is longer than its limit by more than the delay. -/
def Prompt (delay : Nat) (waits : List Waited) : Prop :=
  ∀ w ∈ waits, ∀ longest ∈ w.longest, (w.took : Int) ≤ longest * 1000 + delay

structure Meeting.Prompt (kind : AdapterKind) (delay : Nat) : Prop where
  pause : m.pause ≤ delay
  requestPause : m.requestPause ≤ delay
  addressPause : m.addressPause ≤ delay
  waits : Timed.Prompt delay (timedConn c m kind).waits

/-- How many times its timeout a call may take. -/
def timesTimeout : AdapterKind → Nat
  | .wifi .unknown => 0
  | .wifi .router | .bluetooth _ => 1
  | .wifi .adapter => 5

/-- A loop polls, in the call or in its request thread. -/
def polls : AdapterKind → Bool
  | .wifi .unknown | .wifi .router => false
  | .wifi .adapter | .bluetooth _ => true

/-- The timeout, in nanoseconds. -/
def Attempting.timeoutTime : Nat := c.connTimeout.toNat * 1000000

/-- When the timeout is over, in the milliseconds in which time is counted. -/
def Attempting.deadline : Nat := c.startTime + (c.connTimeout.toNat + 1) * 1000000

variable {c : Attempting} {m : Meeting} {p : Pace} {now delay : Nat}

theorem Pace.le_ended (p : Pace) (now : Nat) (attempt : Attempt) : now ≤ p.ended now attempt := by
  cases attempt <;> simp only [Pace.ended] <;> omega

theorem Prompt.left {waits waits' : List Waited} (h : Prompt delay (waits ++ waits')) :
    Prompt delay waits := fun w hw => h w (List.mem_append_left _ hw)

theorem Prompt.right {waits waits' : List Waited} (h : Prompt delay (waits ++ waits')) :
    Prompt delay waits' := fun w hw => h w (List.mem_append_right _ hw)

theorem elapsed_eq (h : c.startTime ≤ now) : c.elapsed now = ((now - c.startTime) / 1000000 : Nat) := by
  have hnonneg : (0 : Int) ≤ (now : Int) - c.startTime := by omega
  unfold Attempting.elapsed
  rw [Int.tdiv_eq_ediv_of_nonneg hnonneg]
  omega

/-- A wait that begins in time ends in time, but for the delay. -/
theorem InTime.ends_lt {step : Step} (h : InTime c step) (hstart : c.startTime ≤ step.now) {took : Nat}
    (hprompt : ∀ longest ∈ step.call.longest, (took : Int) ≤ longest * 1000 + delay) :
    step.now + took < c.deadline + delay := by
  obtain ⟨wait, hwait, hends⟩ := h.ends
  have htook := hprompt wait hwait
  rw [elapsed_eq hstart] at hends
  unfold Attempting.deadline
  omega

theorem longest_ofMilliseconds {timeout : Int} (h : 0 < timeout) :
    (Timeval.ofMilliseconds timeout).longest = some (timeout * 1000) := by
  have hlimit := Attempting.microseconds_ofMilliseconds h
  unfold Timeval.longest
  rw [hlimit, if_neg (by omega)]

/-! ## One round -/

/-- The last wait of a round. Where `connect` was the last, its limit was set right before. -/
inductive LastWait (c : Attempting) (r : Round) : Attempt → List Step → Prop
  | polled {attempt : Attempt} {steps : List Step}
      (hattempt : attempt = .notReady ∨ attempt = .expiredReady)
      (hmem : Attempting.waitForSocket r.now (c.getRemainingConnectionTime r.now) ∈ steps) :
      LastWait c r attempt steps
  | connected {attempt : Attempt} (steps : List Step)
      (hattempt : attempt = .connected ∨ attempt = .alreadyConnected ∨ attempt = .failed ∨
        attempt = .unavailableExpired)
      (hpos : 0 < c.getRemainingConnectionTime r.nowReady) :
      LastWait c r attempt (steps ++
        [Attempting.configureSocketForConnection r.nowReady (c.getRemainingConnectionTime r.nowReady),
          Attempting.connect r.nowReady (c.getRemainingConnectionTime r.nowReady)])
  | slept {steps : List Step} (retryCount : Nat)
      (hmem : Attempting.sleepFor r.nowRetry retryCount (c.getRemainingConnectionTime r.nowRetry) ∈ steps) :
      LastWait c r .unavailable steps

theorem lastWait_round {r : Round} (hpos : 0 < c.getRemainingConnectionTime r.now) (retryCount : Nat) :
    LastWait c r (c.round retryCount r).1 (c.round retryCount r).2 := by
  have hnow : ¬ c.getRemainingConnectionTime r.now ≤ 0 := by omega
  simp only [Attempting.round, if_neg hnow]
  cases r.ready with
  | false =>
    apply LastWait.polled (Or.inl rfl)
    exact List.mem_cons_of_mem _ List.mem_cons_self
  | true =>
    simp only [Bool.not_true, Bool.false_eq_true, if_false]
    split
    · apply LastWait.polled (Or.inr rfl)
      exact List.mem_cons_of_mem _ List.mem_cons_self
    · rename_i hready
      have hpos' : 0 < c.getRemainingConnectionTime r.nowReady := by omega
      cases r.result with
      | success => exact .connected _ (Or.inl rfl) hpos'
      | EISCONN => exact .connected _ (Or.inr (Or.inl rfl)) hpos'
      | ETIMEDOUT | EAGAIN | other => exact .connected _ (Or.inr (Or.inr (Or.inl rfl))) hpos'
      | ECONNREFUSED | EHOSTUNREACH | EHOSTDOWN | EINVAL =>
        dsimp only
        split
        · exact .connected _ (Or.inr (Or.inr (Or.inr rfl))) hpos'
        · exact .slept (retryCount + 1) (List.mem_append_right _ List.mem_cons_self)

/-- A round is over at once, or in time. -/
theorem round_over (hstart : c.startTime ≤ now) (hmax : c.getRemainingConnectionTime now ≤ intMax)
    (retryCount : Nat) (hprompt : Prompt delay ((c.round retryCount (p.round now)).2.map p.waited)) :
    p.ended now (c.round retryCount (p.round now)).1 = now ∨
      p.ended now (c.round retryCount (p.round now)).1 < c.deadline + delay := by
  have hin : ∀ step ∈ (c.round retryCount (p.round now)).2, InTime c step :=
    (Attempting.round_inTime_iff hstart retryCount).mpr hmax
  have hwait : ∀ step ∈ (c.round retryCount (p.round now)).2, c.startTime ≤ step.now →
      step.now + (p.waited step).took < c.deadline + delay := by
    intro step hstep hle
    apply (hin step hstep).ends_lt hle
    exact hprompt _ (List.mem_map_of_mem hstep)
  by_cases hexpired : c.getRemainingConnectionTime now ≤ 0
  · left
    have hround := Attempting.round_of_expired (c := c) (r := p.round now) hexpired retryCount
    rw [hround]
    rfl
  · right
    have hlast := lastWait_round (r := p.round now) (Int.not_le.mp hexpired) retryCount
    generalize c.round retryCount (p.round now) = outcome at hlast hwait
    obtain ⟨attempt, steps⟩ := outcome
    cases hlast with
    | polled hattempt hmem =>
      have hlt := hwait _ hmem hstart
      rcases hattempt with rfl | rfl <;> exact hlt
    | connected steps hattempt _ =>
      have hlt := hwait _ (List.mem_append_right _ (List.mem_cons_of_mem _ List.mem_cons_self))
        (hstart.trans (Nat.le_add_right _ _))
      rcases hattempt with rfl | rfl | rfl | rfl <;> exact hlt
    | slept retryCount hmem =>
      have hle : c.startTime ≤ (p.round now).nowRetry := by
        show _ ≤ now + p.polling + p.connecting
        omega
      exact hwait _ hmem hle

/-! ## Loops -/

variable {stops : Round → Bool} {goesOn : Attempt → Bool} {paces : Nat → Pace}

/-- How a loop with rounds left is over, or goes on. -/
theorem timedLoop_cases (left now : Nat) {i : Nat} (hi : maxRetries - (left + 1) = i) :
    (stops ((paces i).round now) = true ∧
      c.timedLoop stops goesOn paces (left + 1) now = ⟨none, [], [], now⟩) ∨
    (stops ((paces i).round now) = false ∧ goesOn (c.round i ((paces i).round now)).1 = true ∧
      c.timedLoop stops goesOn paces (left + 1) now =
        let p := paces i
        let out := c.round i (p.round now)
        let rest := c.timedLoop stops goesOn paces left (p.ended now out.1)
        ⟨rest.outcome, out.2 ++ rest.steps, out.2.map p.waited ++ rest.waits, rest.ended⟩) ∨
    (stops ((paces i).round now) = false ∧ goesOn (c.round i ((paces i).round now)).1 = false ∧
      c.timedLoop stops goesOn paces (left + 1) now =
        let p := paces i
        let out := c.round i (p.round now)
        ⟨some out.1, out.2, out.2.map p.waited, p.ended now out.1⟩) := by
  rw [Attempting.timedLoop, hi]
  cases hstops : stops ((paces i).round now) with
  | true => exact Or.inl ⟨rfl, rfl⟩
  | false =>
    right
    cases hgoes : goesOn (c.round i ((paces i).round now)).1 with
    | true =>
      left
      simp only [hgoes, Bool.false_eq_true, if_false, if_true, true_and]
    | false =>
      right
      simp only [hgoes, Bool.false_eq_true, if_false, true_and]

/-- A loop looks at the rounds that are left to it. -/
theorem loop_congr {rounds rounds' : Nat → Round} (left : Nat)
    (h : ∀ i, maxRetries - left ≤ i → i < maxRetries → rounds i = rounds' i)
    (hleft : left ≤ maxRetries) :
    c.loop stops goesOn rounds left = c.loop stops goesOn rounds' left := by
  induction left with
  | zero => rfl
  | succ left ih =>
    have hpos : maxRetries - (left + 1) < maxRetries := by
      unfold maxRetries at hleft ⊢
      omega
    have hround := h (maxRetries - (left + 1)) (le_refl _) hpos
    have hrest := ih (fun i hi hlt => h i (by omega) hlt) (by omega)
    rw [Attempting.loop, Attempting.loop, hround, hrest]

/-- The calls and the outcome are those of `loop` on some rounds. -/
theorem timedLoop_runs (left : Nat) (hleft : left ≤ maxRetries) (now : Nat) :
    ∃ rounds, c.loop stops goesOn rounds left =
      ((c.timedLoop stops goesOn paces left now).outcome,
        (c.timedLoop stops goesOn paces left now).steps) := by
  induction left generalizing now with
  | zero => exact ⟨fun i => (paces i).round now, rfl⟩
  | succ left ih =>
    let i := maxRetries - (left + 1)
    let p := paces i
    obtain ⟨rounds, hrest⟩ := ih (by omega) (p.ended now (c.round i (p.round now)).1)
    have hlater : c.loop stops goesOn (Function.update rounds i (p.round now)) left =
        c.loop stops goesOn rounds left := by
      apply loop_congr
      · intro j hj hlt
        apply Function.update_of_ne
        show j ≠ maxRetries - (left + 1)
        omega
      · omega
    have hself : Function.update rounds i (p.round now) (maxRetries - (left + 1)) = p.round now :=
      Function.update_self ..
    refine ⟨Function.update rounds i (p.round now), ?_⟩
    rw [Attempting.loop]
    rcases timedLoop_cases left now rfl with
      ⟨hstops, heq⟩ | ⟨hstops, hgoes, heq⟩ | ⟨hstops, hgoes, heq⟩
    · rw [heq]
      simp only [hself, p, i, hstops, if_true]
    · rw [heq]
      simp only [hself, hlater, hrest, p, i, hstops, hgoes, Bool.false_eq_true, if_false, if_true]
    · rw [heq]
      simp only [hself, p, i, hstops, hgoes, Bool.false_eq_true, if_false]

/-- The last call is a `connect`, and it takes its limit at most. -/
def EndsConnecting (c : Attempting) (delay : Nat) (steps : List Step) (ended : Nat) : Prop :=
  ∃ before at_ took, c.startTime ≤ at_ ∧ 0 < c.getRemainingConnectionTime at_ ∧
    steps = before ++
      [Attempting.configureSocketForConnection at_ (c.getRemainingConnectionTime at_),
        Attempting.connect at_ (c.getRemainingConnectionTime at_)] ∧
    ended = at_ + took ∧ (took : Int) ≤ c.getRemainingConnectionTime at_ * 1000000 + delay

theorem EndsConnecting.append {steps : List Step} {ended : Nat} (h : EndsConnecting c delay steps ended)
    (earlier : List Step) : EndsConnecting c delay (earlier ++ steps) ended := by
  obtain ⟨before, at_, took, hat, hpos, hsteps, hended, htook⟩ := h
  refine ⟨earlier ++ before, at_, took, hat, hpos, ?_, hended, htook⟩
  rw [hsteps, List.append_assoc]

/-- What holds of a loop that is over. -/
structure OverInTime (c : Attempting) (delay now : Nat) (timing : Timing) : Prop where
  later : now ≤ timing.ended
  ended : timing.ended = now ∨ timing.ended < c.deadline + delay
  requested : requested timing.outcome = true → EndsConnecting c delay timing.steps timing.ended

/-- A round that connects takes the limit of `connect` at most, from the look at the clock before it. -/
theorem round_requested (hstart : c.startTime ≤ now) (retryCount : Nat)
    (hprompt : Prompt delay ((c.round retryCount (p.round now)).2.map p.waited))
    (h : requested (some (c.round retryCount (p.round now)).1) = true) :
    EndsConnecting c delay (c.round retryCount (p.round now)).2
      (p.ended now (c.round retryCount (p.round now)).1) := by
  by_cases hexpired : c.getRemainingConnectionTime now ≤ 0
  · have hround := Attempting.round_of_expired (c := c) (r := p.round now) hexpired retryCount
    rw [hround] at h
    cases h
  · have hlast := lastWait_round (r := p.round now) (Int.not_le.mp hexpired) retryCount
    generalize c.round retryCount (p.round now) = outcome at hlast hprompt h
    obtain ⟨attempt, steps⟩ := outcome
    cases hlast with
    | polled hattempt _ => rcases hattempt with rfl | rfl <;> cases h
    | connected steps hattempt hpos =>
      have htook := hprompt _ (List.mem_map_of_mem (List.mem_append_right _
        (List.mem_cons_of_mem _ List.mem_cons_self))) _ (longest_ofMilliseconds hpos)
      have hconnecting : (p.connecting : Int) ≤
          c.getRemainingConnectionTime (now + p.polling) * 1000 * 1000 + delay := htook
      refine ⟨steps, now + p.polling, p.connecting, by omega, hpos, rfl, ?_, by omega⟩
      rcases hattempt with rfl | rfl | rfl | rfl
      · rfl
      · rfl
      · cases h
      · cases h
    | slept _ _ => cases h

theorem timedLoop_over (left : Nat) (hstart : c.startTime ≤ now)
    (hmax : c.getRemainingConnectionTime now ≤ intMax)
    (hprompt : Prompt delay (c.timedLoop stops goesOn paces left now).waits) :
    OverInTime c delay now (c.timedLoop stops goesOn paces left now) := by
  induction left generalizing now with
  | zero => exact ⟨le_refl now, Or.inl rfl, nofun⟩
  | succ left ih =>
    generalize hi : maxRetries - (left + 1) = i
    rcases timedLoop_cases left now hi with ⟨-, heq⟩ | ⟨-, -, heq⟩ | ⟨-, -, heq⟩
    · rw [heq]
      exact ⟨le_refl now, Or.inl rfl, nofun⟩
    · rw [heq] at hprompt ⊢
      have hle := (paces i).le_ended now (c.round i ((paces i).round now)).1
      have hover := round_over hstart hmax i hprompt.left
      have hrest := ih (hstart.trans hle) ((Attempting.remaining_antitone hle).trans hmax) hprompt.right
      constructor
      · exact hle.trans hrest.later
      · rcases hrest.ended with hnow | hlt
        · exact hover.imp hnow.trans hnow.trans_lt
        · exact Or.inr hlt
      · intro hrequested
        exact (hrest.requested hrequested).append _
    · rw [heq] at hprompt ⊢
      constructor
      · exact Pace.le_ended _ _ _
      · exact round_over hstart hmax i hprompt
      · exact round_requested hstart i hprompt

theorem remaining_le_connTimeout (hstart : c.startTime ≤ now) :
    c.getRemainingConnectionTime now ≤ c.connTimeout.toNat := by
  unfold Attempting.getRemainingConnectionTime
  rw [elapsed_eq hstart]
  omega

theorem timedListen_over (hstart : c.startTime ≤ now) (hprompt : Prompt delay (c.timedListen m now).waits) :
    (c.timedListen m now).ended = now ∨ (c.timedListen m now).ended < c.deadline + delay := by
  unfold Attempting.timedListen at hprompt ⊢
  dsimp only at hprompt ⊢
  split
  · exact Or.inl rfl
  · rename_i hpos
    rw [if_neg hpos] at hprompt
    split
    · rename_i hlistens
      right
      rw [if_pos hlistens] at hprompt
      apply (Attempting.accept_inTime (Int.not_le.mp hpos)).ends_lt hstart
      exact hprompt _ List.mem_cons_self
    · exact Or.inl rfl

/-- Each message takes the limit at most. -/
theorem exchange_over {limit : Timeval} {longest : Nat} (hlimit : limit.longest = some (longest : Int))
    (messages : List (Bool × Nat)) (hprompt : Prompt delay (exchange limit messages now).waits) :
    (exchange limit messages now).ended ≤ now + messages.length * (longest * 1000 + delay) := by
  induction messages generalizing now with
  | nil => simp [exchange]
  | cons message messages ih =>
    obtain ⟨ok, took⟩ := message
    rw [exchange] at hprompt ⊢
    rw [List.length_cons, Nat.add_one_mul]
    cases ok with
    | true =>
      have htook : (took : Int) ≤ longest * 1000 + delay := hprompt _ List.mem_cons_self _ hlimit
      have hrest := ih fun w hw => hprompt w (List.mem_cons_of_mem _ hw)
      simp only [if_true]
      omega
    | false =>
      have htook : (took : Int) ≤ longest * 1000 + delay := hprompt _ List.mem_cons_self _ hlimit
      simp only [Bool.false_eq_true, if_false]
      omega

theorem le_exchange (limit : Timeval) (messages : List (Bool × Nat)) (now : Nat) :
    now ≤ (exchange limit messages now).ended := by
  induction messages generalizing now with
  | nil => exact le_refl now
  | cons message messages ih =>
    obtain ⟨ok, took⟩ := message
    have hrest := ih (now + took)
    rw [exchange]
    split
    · exact (Nat.le_add_right now took).trans hrest
    · exact Nat.le_add_right now took

theorem limitOf_append (steps : List Step) (at_ : Nat) (timeout timeout' : Int) :
    limitOf (steps ++ [Attempting.configureSocketForConnection at_ timeout,
      Attempting.connect at_ timeout']) = .ofMilliseconds timeout := by
  simp [limitOf, Attempting.configureSocketForConnection, Attempting.connect, List.filterMap_append]

/-- When the timeout of a call is over, as often as the call may take it. -/
def bound (c : Attempting) (kind : AdapterKind) (delay : Nat) : Nat :=
  c.startTime + (timesTimeout kind * c.connTimeout.toNat + 1) * 1000000 + (timesTimeout kind + 1) * delay

theorem bound_adapter :
    bound c (.wifi .adapter) delay = c.startTime + (5 * c.connTimeout.toNat + 1) * 1000000 + 6 * delay := rfl

theorem deadline_le_bound {kind : AdapterKind} (hkind : 0 < timesTimeout kind) :
    c.deadline + delay ≤ bound c kind delay := by
  have htimes := Nat.le_mul_of_pos_left c.connTimeout.toNat hkind
  have hdelay := Nat.le_mul_of_pos_left delay hkind
  unfold Attempting.deadline bound
  rw [Nat.add_one_mul (timesTimeout kind) delay]
  omega

theorem pause_lt_bound {kind : AdapterKind} {pause : Nat} (hpause : pause ≤ delay) :
    c.startTime + pause < bound c kind delay := by
  unfold bound
  rw [Nat.add_one_mul (timesTimeout kind) delay]
  omega

/-- What begins right after the pause is over in time. -/
theorem lt_bound {kind : AdapterKind} (hkind : 0 < timesTimeout kind) {pause ended : Nat}
    (hpause : pause ≤ delay) (hended : ended = c.startTime + pause ∨ ended < c.deadline + delay) :
    ended < bound c kind delay := by
  rcases hended with rfl | hlt
  · exact pause_lt_bound hpause
  · exact hlt.trans_le (deadline_le_bound hkind)

/-! ## Calls in time -/

/-- What is left and what has passed make up the timeout. -/
theorem at_lt_deadline (hstart : c.startTime ≤ now) :
    (now : Int) + c.getRemainingConnectionTime now * 1000000 < c.deadline := by
  unfold Attempting.getRemainingConnectionTime Attempting.deadline
  rw [elapsed_eq hstart]
  omega

/-- Each message of a request may take what was left before `connect`. -/
theorem requested_over {timing : Timing} (hloop : OverInTime c delay now timing)
    (hrequested : requested timing.outcome = true) (messages : Vector (Bool × Nat) 4)
    (hprompt : Prompt delay (exchange (limitOf timing.steps) messages.toList timing.ended).waits) :
    (exchange (limitOf timing.steps) messages.toList timing.ended).ended + delay <
      bound c (.wifi .adapter) delay := by
  obtain ⟨steps, at_, took, hat, hpos, hsteps, hover, htook⟩ := hloop.requested hrequested
  -- The limit is still the one of `connect`: it is not set again before the messages.
  have hlimit : (limitOf timing.steps).longest =
      some ((c.getRemainingConnectionTime at_).toNat * 1000 : Nat) := by
    rw [hsteps, limitOf_append, longest_ofMilliseconds hpos]
    congr 1
    omega
  have hexchange := exchange_over hlimit messages.toList hprompt
  rw [Vector.length_toList] at hexchange
  have hdeadline := at_lt_deadline hat
  have hleft := remaining_le_connTimeout hat
  rw [bound_adapter]
  unfold Attempting.deadline at hdeadline
  omega

/-- How a request of a Wi-Fi client ends. -/
theorem wifi_request_cases (c : Attempting) (m : Meeting) {timing : Timing}
    (htiming : c.timedRequest m.request (c.startTime + m.pause) = timing) :
    (m.accessPoint = false ∧ WifiAdapter.timedRequest c m = ⟨false, [], c.startTime + m.pause⟩) ∨
    (requested timing.outcome = false ∧
      WifiAdapter.timedRequest c m = ⟨false, timing.waits, timing.ended⟩) ∨
    (requested timing.outcome = true ∧ WifiAdapter.timedRequest c m =
      let answered := exchange (limitOf timing.steps) m.messages.toList timing.ended
      ⟨answered.connected, timing.waits ++ answered.waits, answered.ended⟩) := by
  subst htiming
  unfold WifiAdapter.timedRequest
  cases m.accessPoint with
  | false => exact Or.inl ⟨rfl, rfl⟩
  | true =>
    cases hrequested : requested (c.timedRequest m.request (c.startTime + m.pause)).outcome with
    | false =>
      right; left
      simp only [hrequested, if_true, Bool.false_eq_true, if_false, true_and]
    | true =>
      right; right
      simp only [hrequested, if_true, true_and]

/-- A request of a Wi-Fi client is over, and a pause after it. -/
theorem wifi_request_over (hmax : (c.connTimeout.toNat : Int) ≤ intMax) (hpause : m.pause ≤ delay)
    (hprompt : Prompt delay (WifiAdapter.timedRequest c m).waits) :
    c.startTime ≤ (WifiAdapter.timedRequest c m).ended ∧
      (WifiAdapter.timedRequest c m).ended + delay < bound c (.wifi .adapter) delay := by
  have hstart : c.startTime ≤ c.startTime + m.pause := Nat.le_add_right _ _
  have hremaining := (remaining_le_connTimeout hstart).trans hmax
  have hpaused : c.startTime + m.pause + delay < bound c (.wifi .adapter) delay := by
    rw [bound_adapter]
    omega
  have hloop : Prompt delay (c.timedRequest m.request (c.startTime + m.pause)).waits →
      OverInTime c delay (c.startTime + m.pause) (c.timedRequest m.request (c.startTime + m.pause)) :=
    timedLoop_over maxRetries hstart hremaining
  rcases wifi_request_cases c m rfl with ⟨-, heq⟩ | ⟨-, heq⟩ | ⟨hrequested, heq⟩
  · rw [heq]
    exact ⟨hstart, hpaused⟩
  · rw [heq] at hprompt ⊢
    have hover := hloop hprompt
    refine ⟨hstart.trans hover.later, ?_⟩
    rcases hover.ended with hnow | hlt
    · exact (Nat.add_le_add_right hnow.le delay).trans_lt hpaused
    · apply (Nat.add_lt_add_right hlt delay).trans_le
      rw [bound_adapter]
      unfold Attempting.deadline
      omega
  · rw [heq] at hprompt ⊢
    have hover := hloop hprompt.left
    refine ⟨?_, requested_over hover hrequested m.messages hprompt.right⟩
    exact (hstart.trans hover.later).trans (le_exchange _ _ _)

theorem wifi_conn_over {deviceType : WifiDeviceType}
    (hmax : polls (.wifi deviceType) = true → (c.connTimeout.toNat : Int) ≤ intMax)
    (hprompt : m.Prompt c (.wifi deviceType) delay) :
    (WifiAdapter.timedConn c m deviceType).ended < bound c (.wifi deviceType) delay := by
  have hstart : c.startTime ≤ c.startTime + m.pause := Nat.le_add_right _ _
  have hwaits : Prompt delay (WifiAdapter.timedConn c m deviceType).waits := hprompt.waits
  cases deviceType with
  | unknown => exact pause_lt_bound hprompt.pause
  | router =>
    have hkind : 0 < timesTimeout (.wifi .router) := Nat.zero_lt_succ 0
    exact lt_bound hkind hprompt.pause (timedListen_over hstart hwaits)
  | adapter =>
    have hmax' : (c.connTimeout.toNat : Int) ≤ intMax := hmax rfl
    unfold WifiAdapter.timedConn at hwaits ⊢
    dsimp only at hwaits ⊢
    by_cases hconnected : (WifiAdapter.timedRequest c m).connected = true
    · rw [if_pos hconnected] at hwaits ⊢
      obtain ⟨hlater, hlt⟩ := wifi_request_over hmax' hprompt.pause hwaits.left
      have hafter : c.startTime ≤ (WifiAdapter.timedRequest c m).ended + m.addressPause :=
        hlater.trans (Nat.le_add_right _ _)
      have hloop := timedLoop_over maxRetries hafter
        ((remaining_le_connTimeout hafter).trans hmax') hwaits.right
      -- Where the request took longer than the timeout, `ConnectToPeer` is over at once.
      rcases hloop.ended with hnow | hover
      · have hpause := hprompt.addressPause
        exact hnow.trans_lt (by omega)
      · exact hover.trans_le (deadline_le_bound (Nat.zero_lt_succ 4))
    · rw [if_neg hconnected] at hwaits ⊢
      have hlt := (wifi_request_over hmax' hprompt.pause hwaits).2
      omega

theorem bluetooth_conn_over {isListener : Bool} (hmax : (c.connTimeout.toNat : Int) ≤ intMax)
    (hprompt : m.Prompt c (.bluetooth isListener) delay) :
    (BluetoothAdapter.timedConn c m isListener).ended < bound c (.bluetooth isListener) delay := by
  have hwaits : Prompt delay (BluetoothAdapter.timedConn c m isListener).waits := hprompt.waits
  have hstart (pause : Nat) : c.startTime ≤ c.startTime + pause := Nat.le_add_right _ _
  have hkind : 0 < timesTimeout (.bluetooth isListener) := Nat.zero_lt_succ 0
  apply max_lt
  · have hloop := timedLoop_over maxRetries (hstart m.requestPause)
      ((remaining_le_connTimeout (hstart _)).trans hmax) hwaits.left
    exact lt_bound hkind hprompt.requestPause hloop.ended
  · cases isListener with
    | true => exact lt_bound hkind hprompt.pause (timedListen_over (hstart _) hwaits.right)
    | false =>
      have hloop := timedLoop_over maxRetries (hstart m.pause)
        ((remaining_le_connTimeout (hstart _)).trans hmax) hwaits.right
      exact lt_bound hkind hprompt.pause hloop.ended

/-! ## Calls that take the whole time -/

/-- A round that connects after some time. -/
def Pace.slow (took : Nat) : Pace where
  connected := false
  ready := true
  result := .success
  polling := 0
  connecting := took
  sleeping := 0

/-- A round whose `poll` takes some time. -/
def Pace.stalled (took : Nat) : Pace where
  connected := false
  ready := true
  result := .other
  polling := took
  connecting := 0
  sleeping := 0

/-- Every wait but those of `poll` takes the same time, and all goes well. -/
def Meeting.slow (took : Nat) : Meeting where
  pause := 0
  requestPause := 0
  addressPause := 0
  accessPoint := true
  request _ := .slow took
  messages := Vector.replicate 4 (true, took)
  connect _ := .slow took
  binds := true
  listens := true
  accepts := true
  accepting := took

/-- The first `poll` of each loop takes some time, and nothing goes well. -/
def Meeting.stalled (took : Nat) : Meeting where
  pause := 0
  requestPause := 0
  addressPause := 0
  accessPoint := true
  request _ := .stalled took
  messages := Vector.replicate 4 (false, 0)
  connect _ := .stalled took
  binds := false
  listens := false
  accepts := false
  accepting := 0

variable {took : Nat}

@[simp] theorem prompt_nil : Prompt delay [] := nofun

@[simp] theorem prompt_cons {w : Waited} {waits : List Waited} :
    Prompt delay (w :: waits) ↔
      (∀ longest ∈ w.longest, (w.took : Int) ≤ longest * 1000 + delay) ∧ Prompt delay waits :=
  List.forall_mem_cons

@[simp] theorem prompt_append {waits waits' : List Waited} :
    Prompt delay (waits ++ waits') ↔ Prompt delay waits ∧ Prompt delay waits' :=
  List.forall_mem_append

theorem poll_longest_nonneg {timeout : Int32} :
    ∀ longest ∈ (SystemCall.poll timeout).longest, 0 ≤ longest := by
  intro longest h
  simp only [SystemCall.longest] at h
  split at h
  · cases h
  · cases h
    omega

/-- A wait that takes no time is prompt. -/
theorem prompt_of_nonneg {wait : Option Int} (h : ∀ longest ∈ wait, 0 ≤ longest) :
    ∀ longest ∈ wait, ((0 : Nat) : Int) ≤ longest * 1000 + (0 : Nat) := by
  intro longest hlongest
  have hnonneg := h longest hlongest
  omega

theorem set_longest_nonneg : ∀ longest ∈ (some 0 : Option Int), 0 ≤ longest := by
  rintro longest ⟨⟩
  exact le_refl 0

/-- A loop that is over after its first round. -/
theorem timedLoop_once (paces : Nat → Pace) {out : Attempt × List Step}
    (hstops : stops ((paces 0).round now) = false)
    (hround : c.round 0 ((paces 0).round now) = out) (hends : goesOn out.1 = false) :
    c.timedLoop stops goesOn paces maxRetries now =
      ⟨some out.1, out.2, out.2.map (paces 0).waited, (paces 0).ended now out.1⟩ := by
  subst hround
  rcases @timedLoop_cases c stops goesOn paces 4 now _ rfl with
    ⟨h, -⟩ | ⟨-, h, -⟩ | ⟨-, -, heq⟩
  · exact absurd (hstops.symm.trans h) Bool.false_ne_true
  · exact absurd (hends.symm.trans h) Bool.false_ne_true
  · exact heq

/-- A loop without time left is over at once. -/
theorem expired_loop (paces : Nat → Pace) (hexpired : c.getRemainingConnectionTime now ≤ 0)
    (hstops : stops ((paces 0).round now) = false) (hends : goesOn .expired = false) :
    c.timedLoop stops goesOn paces maxRetries now = ⟨some .expired, [], [], now⟩ :=
  timedLoop_once paces hstops (Attempting.round_of_expired (r := (paces 0).round now) hexpired 0) hends

/-- The calls of a slow round. -/
def Attempting.slowSteps (c : Attempting) (now : Nat) : List Step :=
  let remaining := c.getRemainingConnectionTime now
  [Attempting.configureSocketForConnection now remaining, Attempting.waitForSocket now remaining] ++
    [Attempting.configureSocketForConnection now remaining, Attempting.connect now remaining]

theorem slow_loop (hpos : 0 < c.getRemainingConnectionTime now)
    (hstops : stops ((Pace.slow took).round now) = false) (hends : goesOn .connected = false) :
    c.timedLoop stops goesOn (fun _ => .slow took) maxRetries now =
      ⟨some .connected, c.slowSteps now, (c.slowSteps now).map (Pace.slow took).waited, now + took⟩ := by
  have hround : c.round 0 ((Pace.slow took).round now) = (.connected, c.slowSteps now) := by
    have hpos' : ¬ c.getRemainingConnectionTime now ≤ 0 := by omega
    simp only [Attempting.round, Pace.round, Pace.slow, if_neg hpos', Bool.not_true, Bool.false_eq_true,
      if_false, Nat.add_zero]
    exact if_neg hpos'
  exact timedLoop_once (fun _ => .slow took) hstops hround hends

theorem prompt_slowSteps (hpos : 0 < c.getRemainingConnectionTime now)
    (htook : (took : Int) ≤ c.getRemainingConnectionTime now * 1000000) :
    Prompt 0 ((c.slowSteps now).map (Pace.slow took).waited) := by
  have hconnect : ∀ longest ∈ (Timeval.ofMilliseconds (c.getRemainingConnectionTime now)).longest,
      (took : Int) ≤ longest * 1000 + (0 : Nat) := by
    rw [longest_ofMilliseconds hpos]
    intro longest hlongest
    cases hlongest
    omega
  have hset := prompt_of_nonneg set_longest_nonneg
  have hpoll := prompt_of_nonneg
    (@poll_longest_nonneg (Int32.ofInt (c.getRemainingConnectionTime now)))
  exact prompt_cons.mpr ⟨hset, prompt_cons.mpr ⟨hpoll, prompt_cons.mpr ⟨hset,
    prompt_cons.mpr ⟨hconnect, prompt_nil⟩⟩⟩⟩

/-- More than an `int` holds is negative as the `int` of `poll`. -/
theorem poll_longest_of_lt (hstart : c.startTime ≤ now) (hmax : intMax < c.getRemainingConnectionTime now) :
    (SystemCall.poll (Int32.ofInt (c.getRemainingConnectionTime now))).longest = none := by
  have hle := Attempting.remaining_le hstart
  have hwrapped : (Int32.ofInt (c.getRemainingConnectionTime now)).toInt =
      c.getRemainingConnectionTime now - 4294967296 := by
    rw [Int32.toInt_ofInt]
    unfold intMax at hmax
    simp only [Int.bmod, Int32.size]
    omega
  exact if_pos (by omega)

/-- A first `poll` without a limit, and a loop that is over right after it. -/
theorem stalled_loop (hstart : c.startTime ≤ now) (hmax : intMax < c.getRemainingConnectionTime now)
    (hstops : stops ((Pace.stalled took).round now) = false) (hends : goesOn .failed = false)
    (hends' : goesOn .expiredReady = false) :
    requested (c.timedLoop stops goesOn (fun _ => .stalled took) maxRetries now).outcome = false ∧
      (c.timedLoop stops goesOn (fun _ => .stalled took) maxRetries now).ended = now + took ∧
      Prompt 0 (c.timedLoop stops goesOn (fun _ => .stalled took) maxRetries now).waits := by
  have hpos : ¬ c.getRemainingConnectionTime now ≤ 0 := by
    unfold intMax at hmax
    omega
  have hset := prompt_of_nonneg set_longest_nonneg
  have hpoll : ∀ longest ∈ (SystemCall.poll (Int32.ofInt (c.getRemainingConnectionTime now))).longest,
      (took : Int) ≤ longest * 1000 + (0 : Nat) := by
    rw [poll_longest_of_lt hstart hmax]
    exact nofun
  -- The loop is over, whether the timeout has run out in the `poll` or not.
  by_cases hready : c.getRemainingConnectionTime (now + took) ≤ 0
  · have hround : c.round 0 ((Pace.stalled took).round now) =
        (.expiredReady, Attempting.polled c ((Pace.stalled took).round now)) := by
      simp only [Attempting.round, Pace.round, Pace.stalled, if_neg hpos, Bool.not_true, Bool.false_eq_true,
        if_false]
      exact if_pos hready
    rw [timedLoop_once (fun _ => .stalled took) hstops hround hends']
    exact ⟨rfl, rfl, prompt_cons.mpr ⟨hset, prompt_cons.mpr ⟨hpoll, prompt_nil⟩⟩⟩
  · have hround : c.round 0 ((Pace.stalled took).round now) =
        (.failed, Attempting.polled c ((Pace.stalled took).round now) ++
          [Attempting.configureSocketForConnection (now + took) (c.getRemainingConnectionTime (now + took)),
            Attempting.connect (now + took) (c.getRemainingConnectionTime (now + took))]) := by
      simp only [Attempting.round, Pace.round, Pace.stalled, if_neg hpos, Bool.not_true, Bool.false_eq_true,
        if_false]
      exact if_neg hready
    have hlimit : ∀ longest ∈
        (Timeval.ofMilliseconds (c.getRemainingConnectionTime (now + took))).longest, 0 ≤ longest := by
      rw [longest_ofMilliseconds (Int.not_le.mp hready)]
      rintro longest ⟨⟩
      omega
    rw [timedLoop_once (fun _ => .stalled took) hstops hround hends]
    exact ⟨rfl, rfl, prompt_cons.mpr ⟨hset, prompt_cons.mpr ⟨hpoll, prompt_cons.mpr ⟨hset,
      prompt_cons.mpr ⟨prompt_of_nonneg hlimit, prompt_nil⟩⟩⟩⟩⟩

theorem remaining_start (c : Attempting) :
    c.getRemainingConnectionTime c.startTime = c.connTimeout.toNat := by
  unfold Attempting.getRemainingConnectionTime
  rw [elapsed_eq (le_refl _), Nat.sub_self]
  exact sub_zero _

/-- A loop that polls may take any time. -/
theorem conn_unbounded {kind : AdapterKind} (hpolls : polls kind = true)
    (hmax : intMax < c.connTimeout.toNat) (took : Nat) :
    (Meeting.stalled took).Prompt c kind 0 ∧ took ≤ (timedConn c (.stalled took) kind).ended := by
  have hremaining : intMax < c.getRemainingConnectionTime c.startTime := by rwa [remaining_start]
  obtain ⟨hrequested, hover, hrequest⟩ :
      requested (c.timedRequest (fun _ => .stalled took) c.startTime).outcome = false ∧
        (c.timedRequest (fun _ => .stalled took) c.startTime).ended = c.startTime + took ∧
        Prompt 0 (c.timedRequest (fun _ => .stalled took) c.startTime).waits :=
    stalled_loop (le_refl _) hremaining rfl rfl rfl
  have hlate : took ≤ (c.timedRequest (fun _ => .stalled took) c.startTime).ended := by
    rw [hover]
    exact Nat.le_add_left _ _
  have hprompt (hwaits : Prompt 0 (timedConn c (.stalled took) kind).waits) :
      (Meeting.stalled took).Prompt c kind 0 := ⟨le_refl 0, le_refl 0, le_refl 0, hwaits⟩
  match kind, hpolls with
  | .wifi .adapter, _ =>
    have hconn : timedConn c (.stalled took) (.wifi .adapter) =
        ⟨false, (c.timedRequest (fun _ => .stalled took) c.startTime).waits,
          (c.timedRequest (fun _ => .stalled took) c.startTime).ended⟩ := by
      have hcases : WifiAdapter.timedRequest c (.stalled took) =
          ⟨false, (c.timedRequest (fun _ => .stalled took) c.startTime).waits,
            (c.timedRequest (fun _ => .stalled took) c.startTime).ended⟩ :=
        if_neg (hrequested ▸ Bool.false_ne_true)
      show (if (WifiAdapter.timedRequest c (.stalled took)).connected then _ else
        WifiAdapter.timedRequest c (.stalled took)) = _
      rw [hcases]
      rfl
    rw [hconn] at hprompt ⊢
    exact ⟨hprompt hrequest, hlate⟩
  | .bluetooth true, _ =>
    have hlisten : (c.timedListen (.stalled took) c.startTime).waits = [] := by
      unfold Attempting.timedListen
      dsimp only [Meeting.stalled]
      split <;> rfl
    refine ⟨hprompt (prompt_append.mpr ⟨hrequest, ?_⟩), hlate.trans (le_max_left _ _)⟩
    show Prompt 0 (c.timedListen (.stalled took) c.startTime).waits
    rw [hlisten]
    exact prompt_nil
  | .bluetooth false, _ =>
    have hconnect : Prompt 0 (c.timedConnect (fun _ => .stalled took) c.startTime).waits :=
      (stalled_loop (le_refl _) hremaining rfl rfl rfl).2.2
    exact ⟨hprompt (prompt_append.mpr ⟨hrequest, hconnect⟩), hlate.trans (le_max_left _ _)⟩

theorem pos_or_expired (c : Attempting) :
    0 < c.getRemainingConnectionTime c.startTime ∨
      (c.getRemainingConnectionTime c.startTime ≤ 0 ∧ c.timeoutTime = 0) := by
  unfold Attempting.timeoutTime
  rw [remaining_start]
  omega

theorem slow_loop_over (c : Attempting) (hstops : stops ((Pace.slow c.timeoutTime).round c.startTime) = false)
    (hends : goesOn .connected = false) (hends' : goesOn .expired = false) :
    (c.timedLoop stops goesOn (fun _ => .slow c.timeoutTime) maxRetries c.startTime).ended =
        c.startTime + c.timeoutTime ∧
      Prompt 0 (c.timedLoop stops goesOn (fun _ => .slow c.timeoutTime) maxRetries c.startTime).waits := by
  rcases pos_or_expired c with hpos | ⟨hexpired, hzero⟩
  · rw [slow_loop hpos hstops hends]
    refine ⟨rfl, prompt_slowSteps hpos ?_⟩
    rw [remaining_start]
    show ((c.connTimeout.toNat * 1000000 : Nat) : Int) ≤ _
    omega
  · rw [expired_loop (fun _ => .slow c.timeoutTime) hexpired hstops hends', hzero]
    exact ⟨rfl, prompt_nil⟩

theorem slow_listen_over (c : Attempting) :
    (c.timedListen (.slow c.timeoutTime) c.startTime).ended = c.startTime + c.timeoutTime ∧
      Prompt 0 (c.timedListen (.slow c.timeoutTime) c.startTime).waits := by
  unfold Attempting.timedListen
  rcases pos_or_expired c with hpos | ⟨hexpired, hzero⟩
  · have hpos' : ¬ c.getRemainingConnectionTime c.startTime ≤ 0 := Int.not_le.mpr hpos
    dsimp only
    rw [if_neg hpos', longest_ofMilliseconds hpos, remaining_start]
    refine ⟨rfl, prompt_cons.mpr ⟨?_, prompt_nil⟩⟩
    rintro longest ⟨⟩
    show ((c.connTimeout.toNat * 1000000 : Nat) : Int) ≤ _
    omega
  · dsimp only
    rw [if_pos hexpired, hzero]
    exact ⟨rfl, prompt_nil⟩

/-- The four messages of a request, each of which takes the same time. -/
theorem slow_exchange_over {limit : Timeval}
    (hprompt : ∀ longest ∈ limit.longest, (took : Int) ≤ longest * 1000 + (0 : Nat)) (now : Nat) :
    let answered := exchange limit (Meeting.slow took).messages.toList now
    answered.connected = true ∧ answered.ended = now + 4 * took ∧ Prompt 0 answered.waits := by
  refine ⟨rfl, ?_, ?_⟩
  · show now + took + took + took + took = _
    omega
  · exact prompt_cons.mpr ⟨hprompt, prompt_cons.mpr ⟨hprompt, prompt_cons.mpr ⟨hprompt,
      prompt_cons.mpr ⟨hprompt, prompt_nil⟩⟩⟩⟩

theorem limitOf_slowSteps (c : Attempting) (now : Nat) :
    limitOf (c.slowSteps now) = .ofMilliseconds (c.getRemainingConnectionTime now) :=
  limitOf_append _ now _ _

/-- The request of a Wi-Fi client takes the timeout, and each of its messages once more. -/
theorem slow_request_over {c : Attempting} (hpos : 0 < c.getRemainingConnectionTime c.startTime) :
    (WifiAdapter.timedRequest c (.slow c.timeoutTime)).connected = true ∧
      (WifiAdapter.timedRequest c (.slow c.timeoutTime)).ended = c.startTime + 5 * c.timeoutTime ∧
      Prompt 0 (WifiAdapter.timedRequest c (.slow c.timeoutTime)).waits := by
  have htime : (c.timeoutTime : Int) = c.getRemainingConnectionTime c.startTime * 1000000 := by
    rw [remaining_start]
    exact Int.natCast_mul _ _
  have hlimit : ∀ longest ∈ (Timeval.ofMilliseconds (c.getRemainingConnectionTime c.startTime)).longest,
      (c.timeoutTime : Int) ≤ longest * 1000 + (0 : Nat) := by
    rw [longest_ofMilliseconds hpos]
    rintro longest ⟨⟩
    omega
  have hloop : c.timedRequest (fun _ => .slow c.timeoutTime) c.startTime =
      ⟨some .connected, c.slowSteps c.startTime,
        (c.slowSteps c.startTime).map (Pace.slow c.timeoutTime).waited, c.startTime + c.timeoutTime⟩ :=
    slow_loop hpos rfl rfl
  have hrequest : WifiAdapter.timedRequest c (.slow c.timeoutTime) =
      let answered := exchange (limitOf (c.slowSteps c.startTime))
        (Meeting.slow c.timeoutTime).messages.toList (c.startTime + c.timeoutTime)
      ⟨answered.connected, (c.slowSteps c.startTime).map (Pace.slow c.timeoutTime).waited ++ answered.waits,
        answered.ended⟩ := by
    rcases wifi_request_cases c (.slow c.timeoutTime) hloop with
      ⟨hnone, -⟩ | ⟨hfailed, -⟩ | ⟨-, heq⟩
    · cases hnone
    · cases hfailed
    · exact heq
  obtain ⟨hconnected, hover, hwaits⟩ := slow_exchange_over hlimit (c.startTime + c.timeoutTime)
  rw [hrequest, limitOf_slowSteps]
  refine ⟨hconnected, hover.trans (by omega), ?_⟩
  exact prompt_append.mpr ⟨prompt_slowSteps hpos htime.le, hwaits⟩

theorem slow_wifi_over (c : Attempting) :
    (WifiAdapter.timedConn c (.slow c.timeoutTime) .adapter).ended = c.startTime + 5 * c.timeoutTime ∧
      Prompt 0 (WifiAdapter.timedConn c (.slow c.timeoutTime) .adapter).waits := by
  rcases pos_or_expired c with hpos | ⟨hexpired, hzero⟩
  · obtain ⟨hconnected, hover, hwaits⟩ := slow_request_over hpos
    have hlate : c.startTime ≤ (WifiAdapter.timedRequest c (.slow c.timeoutTime)).ended := by omega
    -- The messages have used up the time of `ConnectToPeer`.
    have hafter :
        c.getRemainingConnectionTime (WifiAdapter.timedRequest c (.slow c.timeoutTime)).ended ≤ 0 := by
      have hlt := at_lt_deadline hlate
      have htime : c.timeoutTime = c.connTimeout.toNat * 1000000 := rfl
      unfold Attempting.deadline at hlt
      rw [remaining_start] at hpos
      omega
    have hloop : c.timedConnect (fun _ => .slow c.timeoutTime)
        (WifiAdapter.timedRequest c (.slow c.timeoutTime)).ended =
          ⟨false, [], (WifiAdapter.timedRequest c (.slow c.timeoutTime)).ended⟩ := by
      unfold Attempting.timedConnect
      rw [expired_loop (fun _ => .slow c.timeoutTime) hafter rfl rfl]
      rfl
    have hconn : WifiAdapter.timedConn c (.slow c.timeoutTime) .adapter =
        ⟨false, (WifiAdapter.timedRequest c (.slow c.timeoutTime)).waits ++ [],
          (WifiAdapter.timedRequest c (.slow c.timeoutTime)).ended⟩ := by
      refine (if_pos hconnected).trans ?_
      show (⟨(c.timedConnect _ _).connected, _ ++ (c.timedConnect _ _).waits,
        (c.timedConnect _ _).ended⟩ : Ended) = _
      rw [show (Meeting.slow c.timeoutTime).connect = fun _ => .slow c.timeoutTime from rfl,
        show (Meeting.slow c.timeoutTime).addressPause = 0 from rfl, Nat.add_zero, hloop]
    rw [hconn]
    exact ⟨hover, prompt_append.mpr ⟨hwaits, prompt_nil⟩⟩
  · have hloop : c.timedRequest (fun _ => .slow c.timeoutTime) c.startTime =
        ⟨some .expired, [], [], c.startTime⟩ :=
      expired_loop (fun _ => .slow c.timeoutTime) hexpired rfl rfl
    have hrequest : WifiAdapter.timedRequest c (.slow c.timeoutTime) = ⟨false, [], c.startTime⟩ := by
      rcases wifi_request_cases c (.slow c.timeoutTime) hloop with
        ⟨-, heq⟩ | ⟨-, heq⟩ | ⟨hrequested, -⟩
      · exact heq
      · exact heq
      · cases hrequested
    have hconn : WifiAdapter.timedConn c (.slow c.timeoutTime) .adapter = ⟨false, [], c.startTime⟩ := by
      unfold WifiAdapter.timedConn
      rw [hrequest]
      rfl
    rw [hconn, hzero]
    exact ⟨rfl, prompt_nil⟩

/-- Each adapter may take the whole time. -/
theorem conn_attained (c : Attempting) (kind : AdapterKind) :
    (Meeting.slow c.timeoutTime).Prompt c kind 0 ∧
      (timedConn c (.slow c.timeoutTime) kind).ended = c.startTime + timesTimeout kind * c.timeoutTime := by
  have hprompt (hwaits : Prompt 0 (timedConn c (.slow c.timeoutTime) kind).waits) :
      (Meeting.slow c.timeoutTime).Prompt c kind 0 := ⟨le_refl 0, le_refl 0, le_refl 0, hwaits⟩
  obtain ⟨hrequest, hrequestWaits⟩ :
      (c.timedRequest (fun _ => .slow c.timeoutTime) c.startTime).ended = c.startTime + c.timeoutTime ∧
        Prompt 0 (c.timedRequest (fun _ => .slow c.timeoutTime) c.startTime).waits :=
    slow_loop_over c rfl rfl rfl
  obtain ⟨hlisten, hlistenWaits⟩ := slow_listen_over c
  match kind with
  | .wifi .unknown =>
    refine ⟨hprompt prompt_nil, ?_⟩
    rw [timesTimeout, Nat.zero_mul]
    rfl
  | .wifi .router =>
    refine ⟨hprompt hlistenWaits, hlisten.trans ?_⟩
    rw [timesTimeout, Nat.one_mul]
  | .wifi .adapter =>
    obtain ⟨hover, hwaits⟩ := slow_wifi_over c
    exact ⟨hprompt hwaits, hover⟩
  | .bluetooth true =>
    refine ⟨hprompt (prompt_append.mpr ⟨hrequestWaits, hlistenWaits⟩), ?_⟩
    show max (c.timedRequest (fun _ => .slow c.timeoutTime) c.startTime).ended
      (c.timedListen (.slow c.timeoutTime) c.startTime).ended = _
    rw [hrequest, hlisten, max_self, timesTimeout, Nat.one_mul]
  | .bluetooth false =>
    obtain ⟨hconnect, hconnectWaits⟩ :
        (c.timedConnect (fun _ => .slow c.timeoutTime) c.startTime).ended = c.startTime + c.timeoutTime ∧
          Prompt 0 (c.timedConnect (fun _ => .slow c.timeoutTime) c.startTime).waits :=
      slow_loop_over c rfl rfl rfl
    refine ⟨hprompt (prompt_append.mpr ⟨hrequestWaits, hconnectWaits⟩), ?_⟩
    show max (c.timedRequest (fun _ => .slow c.timeoutTime) c.startTime).ended
      (c.timedConnect (fun _ => .slow c.timeoutTime) c.startTime).ended = _
    rw [hrequest, hconnect, max_self, timesTimeout, Nat.one_mul]

end Timed

end SensorLib
