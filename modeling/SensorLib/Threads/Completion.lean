import SensorLib.Threads.Sequential

/-! # Programs that come to an end

A thread that nobody disturbs comes to an end when, whatever the environment
chooses, no lock and no act keeps it from going on and every way it can go is
finite. That is an inductive fact about its program.
-/

namespace Threads

variable {S : Signature} {Y : System S} {α β : Type}

/-- A thread that holds these locks, and is the only one to hold any, gets this one. -/
def System.Grants (Y : System S) (held : List (S.Lock × Mode)) (l : S.Lock) (m : Mode) : Prop :=
  ∀ m', (l, m') ∈ held → m = .shared ∧ m' = .shared ∨ Y.reentrant l = true

/-- Every way the thread can go leads to a world where `P` holds, and it can go on until then. -/
inductive World.Inevitable (t : Tid) (P : World Y → Prop) : World Y → Prop
  | here {w : World Y} (h : P w) : Inevitable t P w
  | step {w : World Y} {e₀ : Y.Env} (hready : w.enabled (.run t e₀) = true)
      (hnext : ∀ e, w.enabled (.run t e) = true → Inevitable t P (w.next (.run t e))) :
      Inevitable t P w

namespace Prog

/-- A program that runs alone under these locks ends, and its result, the locks it holds then and
the state it leaves satisfy `Q`. -/
inductive Ends (Y : System S) (Q : α → List (S.Lock × Mode) → Y.State → Prop) :
    Prog S α → List (S.Lock × Mode) → Y.State → Prop
  | pure {a : α} {held : List (S.Lock × Mode)} {s : Y.State} (h : Q a held s) :
      Ends Y Q (.pure a) held s
  | lock {l : S.Lock} {m : Mode} {k : Prog S α} {held : List (S.Lock × Mode)} {s : Y.State}
      (hgrants : Y.Grants held l m) (hk : Ends Y Q k ((l, m) :: held) s) :
      Ends Y Q (.lock l m k) held s
  | unlock {l : S.Lock} {m : Mode} {k : Prog S α} {held : List (S.Lock × Mode)} {s : Y.State}
      (hk : Ends Y Q k (held.erase (l, m)) s) : Ends Y Q (.unlock l m k) held s
  | act {a : S.Act} {k : S.Answer a → Prog S α} {held : List (S.Lock × Mode)} {s : Y.State}
      (e₀ : Y.Env) (hready : (Y.exec a e₀ s).isSome)
      (hk : ∀ e x s', Y.exec a e s = some (x, s') → Ends Y Q (k x) held s') :
      Ends Y Q (.act a k) held s
  | call {f : S.Label} {k : S.Result → Prog S α} {held : List (S.Lock × Mode)} {s : Y.State}
      (hk : Ends Y Q ((Y.body f).bind k) held s) : Ends Y Q (.call f k) held s

variable {P : β → List (S.Lock × Mode) → Y.State → Prop}
  {Q R : α → List (S.Lock × Mode) → Y.State → Prop} {held : List (S.Lock × Mode)} {s s' : Y.State}

theorem Ends.mono {p : Prog S α} (hp : p.Ends Y Q held s)
    (hQR : ∀ a held s, Q a held s → R a held s) : p.Ends Y R held s := by
  induction hp with
  | pure h => exact .pure (hQR _ _ _ h)
  | lock hgrants _ ih => exact .lock hgrants ih
  | unlock _ ih => exact .unlock ih
  | act e₀ hready _ ih => exact .act e₀ hready ih
  | call _ ih => exact .call ih

theorem Ends.bind {p : Prog S β} {q : β → Prog S α} (hp : p.Ends Y P held s)
    (hq : ∀ b held s, P b held s → (q b).Ends Y Q held s) : (p.bind q).Ends Y Q held s := by
  induction hp with
  | pure h => exact hq _ _ _ h
  | lock hgrants _ ih => exact .lock hgrants ih
  | unlock _ ih => exact .unlock ih
  | act e₀ hready _ ih => exact .act e₀ hready ih
  | call _ ih => exact .call (bind_assoc _ _ _ ▸ ih)

/-- A scope that ends with the locks it began with. -/
theorem Ends.locked {l : S.Lock} {m : Mode} {p : Prog S α} (hgrants : Y.Grants held l m)
    (hp : p.Ends Y (fun a held' s => held' = (l, m) :: held ∧ Q a held s) ((l, m) :: held) s) :
    (locked l m p).Ends Y Q held s := by
  refine .lock hgrants (hp.bind ?_)
  rintro a _ s ⟨rfl, h⟩
  refine .unlock (.pure ?_)
  rwa [List.erase_cons_head]

/-- An act that the environment has no influence on. -/
theorem Ends.determined {a : S.Act} {k : S.Answer a → Prog S α} {x : S.Answer a} (e₀ : Y.Env)
    (hexec : ∀ e, Y.exec a e s = some (x, s')) (hk : (k x).Ends Y Q held s') :
    Ends Y Q (.act a k) held s := by
  refine .act e₀ (by rw [hexec]; rfl) fun e x' s'' h => ?_
  cases (hexec e).symm.trans h
  exact hk

/-! ## Programs with one outcome -/

/-- A program that runs alone gives back its locks, and has this result and leaves this state,
whatever the environment chooses. -/
def Computes (Y : System S) (p : Prog S α) (held : List (S.Lock × Mode)) (s : Y.State) (a : α)
    (s' : Y.State) : Prop :=
  p.Ends Y (fun b held' s'' => b = a ∧ held' = held ∧ s'' = s') held s

theorem computes_pure (a : α) (held : List (S.Lock × Mode)) (s : Y.State) :
    Computes Y (.pure a) held s a s := .pure ⟨rfl, rfl, rfl⟩

theorem Computes.ends {p : Prog S β} {q : β → Prog S α} {b : β}
    (hp : p.Computes Y held s b s') (hq : (q b).Ends Y Q held s') : (p.bind q).Ends Y Q held s := by
  refine Ends.bind hp ?_
  rintro _ _ _ ⟨rfl, rfl, rfl⟩
  exact hq

theorem computes_perform {a : S.Act} {x : S.Answer a} (e₀ : Y.Env)
    (hexec : ∀ e, Y.exec a e s = some (x, s')) : (perform a).Computes Y held s x s' :=
  Ends.determined e₀ hexec (.pure ⟨rfl, rfl, rfl⟩)

theorem Computes.locked {l : S.Lock} {m : Mode} {p : Prog S α} {a : α} (hgrants : Y.Grants held l m)
    (hp : p.Computes Y ((l, m) :: held) s a s') : (Prog.locked l m p).Computes Y held s a s' := by
  refine Ends.locked hgrants (Ends.mono hp ?_)
  rintro _ _ _ ⟨rfl, rfl, rfl⟩
  exact ⟨rfl, rfl, rfl, rfl⟩

/-- A program that ends has what it ends with as its postcondition, where nothing is owed before
its acts. -/
theorem Ends.wp {K : Contract Y} {T : S.Act → Prop} {p : Prog S α} (hp : p.Ends Y Q held s)
    (hacts : p.ActsIn T) (howes : ∀ a s, T a → K.owes a s) (hholds : ∀ s, K.holds s) :
    K.Wp p (fun a s => ∃ held, Q a held s) s := by
  induction hp with
  | pure h => exact ⟨_, h⟩
  | lock _ _ ih | unlock _ ih => exact ih hacts
  | act _ _ _ ih =>
    exact ⟨howes _ _ hacts.1, fun e x s' _ hexec => ⟨hholds s', ih e x s' hexec (hacts.2 x)⟩⟩
  | call => exact hacts.elim

theorem Computes.wp {K : Contract Y} {T : S.Act → Prop} {p : Prog S β} {q : β → Prog S α} {b : β}
    {Q : α → Y.State → Prop} (hp : p.Computes Y held s b s') (hacts : p.ActsIn T)
    (howes : ∀ a s, T a → K.owes a s) (hholds : ∀ s, K.holds s) (hq : K.Wp (q b) Q s') :
    K.Wp (p.bind q) Q s := by
  refine (Ends.wp hp hacts howes hholds).bind ?_
  rintro _ _ ⟨_, rfl, _, rfl⟩
  exact hq

end Prog

/-! ## One thread in a world -/

namespace World

variable {t : Tid} {f : S.Label} {held : List (S.Lock × Mode)} {s s' : Y.State}

theorem alone_lock_granted {l : S.Lock} {m : Mode} {k : Prog S S.Result} (e : Y.Env)
    (h : Y.Grants held l m) :
    (alone s t f (.lock l m k) held : World Y).enabled (.run t e) = true ∧
      (alone s t f (.lock l m k) held : World Y).next (.run t e) =
        alone s t f k ((l, m) :: held) := by
  simp only [enabled, next, alone_thread, decide_eq_true_eq]
  refine ⟨?_, by simp [alone, setThread]⟩
  rintro ⟨u, l', m'⟩ hx rfl
  obtain ⟨⟨l', m'⟩, hmem, heq⟩ := List.mem_map.mp hx
  cases heq
  exact (h m' hmem).imp_right fun hre => ⟨hre, rfl⟩

theorem alone_unlock_erase {l : S.Lock} {m : Mode} {k : Prog S S.Result} (e : Y.Env) :
    (alone s t f (.unlock l m k) held : World Y).enabled (.run t e) = true ∧
      (alone s t f (.unlock l m k) held : World Y).next (.run t e) =
        alone s t f k (held.erase (l, m)) := by
  simp only [enabled, next, alone_thread]
  have hinj : Function.Injective (Prod.mk t : S.Lock × Mode → Tid × S.Lock × Mode) :=
    fun _ _ h => (Prod.mk.inj h).2
  simp [alone, setThread, List.map_erase hinj]

theorem alone_act_enabled {a : S.Act} {k : S.Answer a → Prog S S.Result} {e : Y.Env} :
    (alone s t f (.act a k) held : World Y).enabled (.run t e) = (Y.exec a e s).isSome := by
  simp only [enabled, alone_thread]
  rfl

theorem alone_call {g : S.Label} {k : S.Result → Prog S S.Result} (e : Y.Env) :
    (alone s t f (.call g k) held : World Y).enabled (.run t e) = true ∧
      (alone s t f (.call g k) held : World Y).next (.run t e) =
        alone s t f ((Y.body g).bind k) held := by
  simp only [enabled, next, alone_thread]
  simp [alone, setThread]

/-- After its last instruction, a thread without locks leaves a quiet world. -/
theorem alone_pure {r : S.Result} (e : Y.Env) :
    (alone s t f (.pure r) [] : World Y).enabled (.run t e) = true ∧
      (alone s t f (.pure r) [] : World Y).next (.run t e) = quiet s := by
  simp only [enabled, next, alone_thread]
  simp [alone, setThread, quiet]

/-- A program that ends is run to its end by the thread that runs it. -/
theorem inevitable_of_ends {Q : S.Result → List (S.Lock × Mode) → Y.State → Prop}
    {p : Prog S S.Result} (hp : p.Ends Y Q held s) (e₀ : Y.Env) :
    (alone s t f p held).Inevitable t fun w =>
      ∃ r held s, Q r held s ∧ w = alone s t f (.pure r) held := by
  induction hp with
  | pure h => exact .here ⟨_, _, _, h, rfl⟩
  | lock hgrants _ ih =>
    refine .step (alone_lock_granted e₀ hgrants).1 fun e _ => ?_
    rw [(alone_lock_granted e hgrants).2]
    exact ih
  | unlock _ ih =>
    refine .step (alone_unlock_erase e₀).1 fun e _ => ?_
    rw [(alone_unlock_erase e).2]
    exact ih
  | act _ hready _ ih =>
    refine .step (alone_act_enabled.trans hready) fun e he => ?_
    obtain ⟨⟨x, s'⟩, hexec⟩ := Option.isSome_iff_exists.mp (alone_act_enabled.symm.trans he)
    rw [(alone_act hexec).2]
    exact ih e x s' hexec
  | call _ ih =>
    refine .step (alone_call e₀).1 fun e _ => ?_
    rw [(alone_call e).2]
    exact ih

theorem Inevitable.then {P Q : World Y → Prop} {w : World Y} (h : w.Inevitable t P)
    (hPQ : ∀ w, P w → w.Inevitable t Q) : w.Inevitable t Q := by
  induction h with
  | here h => exact hPQ _ h
  | step hready _ ih => exact .step hready ih

/-- A call whose body ends without locks returns, and leaves a quiet world. -/
theorem returns_of_ends {Q : Y.State → Prop} (e₀ : Y.Env)
    (hbody : (Y.body f).Ends Y (fun _ held s => held = [] ∧ Q s) [] s) :
    ((quiet s : World Y).next (.start t f)).Inevitable t fun w => ∃ s', w = quiet s' ∧ Q s' := by
  refine (inevitable_of_ends hbody e₀).then ?_
  rintro _ ⟨r, _, s', ⟨rfl, hQ⟩, rfl⟩
  refine .step (alone_pure e₀).1 fun e _ => ?_
  rw [(alone_pure e).2]
  exact .here ⟨s', rfl, hQ⟩

end World

end Threads
