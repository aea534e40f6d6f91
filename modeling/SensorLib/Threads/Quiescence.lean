import Mathlib.Logic.Hydra
import SensorLib.Threads.Fair
import SensorLib.Threads.Waiting

/-! # Executions that come to rest

Every step of a thread that makes no calls leaves less of its program. Where
some thread can always move, an execution in which no more calls start has an
end.
-/

namespace Threads

open Relation

variable {S : Signature} {Y : System S}

/-- What a thread runs after a step, and before. -/
inductive Advance : Option (S.Label × Prog S S.Result) → Option (S.Label × Prog S S.Result) → Prop
  | done (f : S.Label) (r : S.Result) : Advance none (some (f, .pure r))
  | lock (f : S.Label) (l : S.Lock) (m : Mode) (k : Prog S S.Result) :
      Advance (some (f, k)) (some (f, .lock l m k))
  | unlock (f : S.Label) (l : S.Lock) (m : Mode) (k : Prog S S.Result) :
      Advance (some (f, k)) (some (f, .unlock l m k))
  | act (f : S.Label) (a : S.Act) (k : S.Answer a → Prog S S.Result) (x : S.Answer a) :
      Advance (some (f, k x)) (some (f, .act a k))

theorem wellFounded_advance : WellFounded (@Advance S) := by
  have hnone : Acc (@Advance S) none := by
    constructor
    intro x hx
    cases hx
  constructor
  rintro (_ | ⟨f, p⟩)
  · exact hnone
  · induction p with
    | pure r =>
      constructor
      intro x hx
      cases hx
      exact hnone
    | lock l m k ih | unlock l m k ih =>
      constructor
      intro x hx
      cases hx
      exact ih
    | act a k ih =>
      constructor
      intro x hx
      cases hx with
      | act f a k x => exact ih x
    | call g k ih =>
      constructor
      intro x hx
      cases hx

instance : Std.Irrefl (@Advance S) := ⟨fun x => wellFounded_advance.irrefl.irrefl x⟩

namespace World

variable {w : World Y} {t : Tid} {f : S.Label} {p : Prog S S.Result}

theorem advance_next {e : Y.Env} (hop : w.enabled (.run t e) = true)
    (hcalls : ∀ f g k, w.thread t ≠ some (f, .call g k)) :
    Advance ((w.next (.run t e)).thread t) (w.thread t) := by
  have hran := ran hop
  generalize w.next (.run t e) = w' at hran
  cases hran with
  | done hthread | lock hthread | unlock hthread | act hthread =>
    simp only [setThread_thread, Function.update_self, hthread]
    constructor
  | call hthread => exact absurd hthread (hcalls _ _ _)

/-- What the threads below `n` have still to run. -/
def remaining (n : Nat) (w : World Y) : Multiset (Option (S.Label × Prog S S.Result)) :=
  (Multiset.range n).map w.thread

theorem remaining_next {n : Nat} {e : Y.Env} (hop : w.enabled (.run t e) = true) (ht : t < n)
    (hcalls : ∀ f g k, w.thread t ≠ some (f, .call g k)) :
    CutExpand Advance ((w.next (.run t e)).remaining n) (w.remaining n) := by
  obtain ⟨rest, hrange⟩ := Multiset.exists_cons_of_mem (Multiset.mem_range.mpr ht)
  have hnot : t ∉ rest := by
    have hnodup := Multiset.nodup_range n
    rw [hrange, Multiset.nodup_cons] at hnodup
    exact hnodup.1
  have hrest : rest.map (w.next (.run t e)).thread = rest.map w.thread := by
    apply Multiset.map_congr rfl
    intro u hu
    apply next_run_of_ne hop
    rintro rfl
    exact hnot hu
  rw [remaining, remaining, hrange, Multiset.map_cons, Multiset.map_cons, hrest]
  exact cutExpand_single_add (advance_next hop hcalls) _

end World

namespace Execution

variable {E : Execution Y} {n : Nat}

/-- Something happens where something can. -/
def Lively (E : Execution Y) : Prop :=
  ∀ n, (∃ t, (E.world n).Ready t) → ∃ m, n ≤ m ∧ E.op m ≠ none

/-- A world stays as it is while nothing happens. -/
theorem world_stays {m : Nat} (hm : n ≤ m) (hnone : ∀ k, n ≤ k → k < m → E.op k = none) :
    E.world m = E.world n := by
  induction m, hm using Nat.le_induction with
  | base => rfl
  | succ m hm ih =>
    rw [E.still m (hnone m hm (by omega))]
    exact ih fun k hk hkm => hnone k hk (by omega)

theorem exists_op (hlively : E.Lively) (hready : ∃ t, (E.world n).Ready t) :
    ∃ m o, n ≤ m ∧ E.world m = E.world n ∧ E.op m = some o := by
  have hmoves : ∃ m, n ≤ m ∧ E.op m ≠ none := hlively n hready
  classical
  have hleast := Nat.find_spec hmoves
  obtain ⟨o, ho⟩ := Option.ne_none_iff_exists'.mp hleast.2
  refine ⟨Nat.find hmoves, o, hleast.1, ?_, ho⟩
  apply world_stays hleast.1
  intro k hk hkm
  by_contra hne
  exact Nat.find_min hmoves hkm ⟨hk, hne⟩

/-- Only finitely many threads run in the end, if no more calls start. -/
theorem idle_from {k : Nat} (hidle : ∀ t, k ≤ t → (E.world n).thread t = none)
    (hstarts : ∀ m, n ≤ m → ∀ t f, E.op m ≠ some (.start t f)) {m : Nat} (hm : n ≤ m) :
    ∀ t, k ≤ t → (E.world m).thread t = none := by
  induction m, hm using Nat.le_induction with
  | base => exact hidle
  | succ m hm ih =>
    intro t ht
    cases hop : E.op m with
    | none => rw [E.still m hop, ih t ht]
    | some o =>
      have henabled := E.enabled m o hop
      rw [E.next m o hop]
      cases o with
      | start u f => exact absurd hop (hstarts m hm u f)
      | run u e =>
        have hu : t ≠ u := by
          rintro rfl
          simp [World.enabled, ih t ht] at henabled
        rw [World.next_run_of_ne henabled hu, ih t ht]

theorem exists_bound (hquiet : ∀ t, (E.world 0).thread t = none) (n : Nat) :
    ∃ k, ∀ t, k ≤ t → (E.world n).thread t = none := by
  apply Execution.invariant (I := fun w => ∃ k, ∀ t, k ≤ t → w.thread t = none)
  · exact ⟨0, fun t _ => hquiet t⟩
  · rintro n o hop ⟨k, hk⟩
    apply Exists.intro (max k (o.tid + 1))
    apply World.idle_next
    · intro t ht
      exact hk t (Nat.le_trans (Nat.le_max_left _ _) ht)
    · exact E.enabled n o hop
    · exact Nat.lt_of_lt_of_le (Nat.lt_succ_self o.tid) (Nat.le_max_right _ _)

/-- Where some thread can always move until all have ended, they all end. -/
theorem comes_to_rest (hlively : E.Lively) (hquiet : ∀ t, (E.world 0).thread t = none)
    (hstarts : ∀ m, n ≤ m → ∀ t f, E.op m ≠ some (.start t f))
    (hcalls : ∀ m, n ≤ m → ∀ t f g k, (E.world m).thread t ≠ some (f, .call g k))
    (hready : ∀ m, n ≤ m → (∃ t, (E.world m).thread t ≠ none) → ∃ t, (E.world m).Ready t) :
    ∃ m, n ≤ m ∧ ∀ t, (E.world m).thread t = none := by
  obtain ⟨k, hk⟩ := exists_bound hquiet n
  have hidle : ∀ m, n ≤ m → ∀ t, k ≤ t → (E.world m).thread t = none :=
    fun m hm => idle_from hk hstarts hm
  suffices h : ∀ x, ∀ m, n ≤ m → (E.world m).remaining k = x →
      ∃ m', n ≤ m' ∧ ∀ t, (E.world m').thread t = none by
    exact h _ n (Nat.le_refl n) rfl
  intro x
  induction x using wellFounded_advance.cutExpand.induction with
  | _ x ih =>
    intro m hm hx
    by_cases hbusy : ∃ t, (E.world m).thread t ≠ none
    · obtain ⟨m', o, hm', hsame, hop⟩ := exists_op hlively (hready m hm hbusy)
      have henabled := E.enabled m' o hop
      cases o with
      | start t f => exact absurd hop (hstarts m' (by omega) t f)
      | run t e =>
        have ht : t < k := by
          by_contra hge
          have hnone := hidle m' (Nat.le_trans hm hm') t (Nat.not_lt.mp hge)
          simp [World.enabled, hnone] at henabled
        have hless := World.remaining_next henabled ht (hcalls m' (by omega) t)
        rw [← E.next m' _ hop, hsame, hx] at hless
        exact ih _ hless (m' + 1) (by omega) rfl
    · refine ⟨m, hm, fun t => ?_⟩
      by_contra hne
      exact hbusy ⟨t, hne⟩

/-- An execution in which a run is all that happens. -/
theorem ofRun_lively {w : World Y} {ops : List (Op Y)} {hlegal : (machine Y).Legal w ops}
    (hidle : ∀ t, ((machine Y).run w ops).thread t = none) : (ofRun w ops hlegal).Lively := by
  rintro n ⟨t, e, henabled⟩
  by_cases hn : n < ops.length
  · exact ⟨n, Nat.le_refl n, by simp [ofRun, List.getElem?_eq_getElem hn]⟩
  · rw [ofRun_world_of_le (by omega)] at henabled
    simp [World.enabled, hidle t] at henabled

end Execution

/-! ## Some thread can move -/

namespace World

variable {w : World Y}

/-- Where locks are waited for in an order with an upper end, not all threads wait. -/
theorem exists_ready [Inhabited Y.Env] (rank : S.Lock → Nat) {bound : Nat} (hbound : ∀ l, rank l ≤ bound)
    (hmoves : ∀ t, w.thread t ≠ none → (∀ l, w.atLock t l = false) → w.Ready t)
    (hheld : ∀ t, w.thread t = none → w.heldBy t = [])
    (hup : ∀ t u l m m', w.Blocked t u l m m' → (∃ s, w.WaitsFor s t) →
      ∀ v l' n n', w.Blocked u v l' n n' → rank l < rank l')
    (hbusy : ∃ t, w.thread t ≠ none) : ∃ t, w.Ready t := by
  by_contra hnone
  have hstuck : ∀ t, w.thread t ≠ none → ∃ u l m m', w.Blocked t u l m m' := by
    intro t ht
    by_cases hat : ∃ l, w.atLock t l = true
    · obtain ⟨l, hat⟩ := hat
      obtain ⟨u, m, m', hblocked⟩ := exists_blocked (e := default) hat
        (Bool.eq_false_iff.mpr fun henabled => hnone ⟨t, default, henabled⟩)
      exact ⟨u, l, m, m', hblocked⟩
    · refine absurd ⟨t, hmoves t ht fun l => ?_⟩ hnone
      rw [← Bool.not_eq_true]
      exact fun hl => hat ⟨l, hl⟩
  have hholder : ∀ {t u l m m'}, w.Blocked t u l m m' → w.thread u ≠ none := by
    intro t u l m m' hblocked hidle
    have hmem := hblocked.holds
    rw [hheld u hidle] at hmem
    cases hmem
  -- The ranks go up along the threads that wait, and have an upper end.
  have hchain : ∀ d t u l m m', w.Blocked t u l m m' → (∃ s, w.WaitsFor s t) →
      bound < rank l + d → False := by
    intro d
    induction d with
    | zero =>
      intro t u l m m' _ _ hd
      have := hbound l
      omega
    | succ d ih =>
      intro t u l m m' htu hwaited hd
      obtain ⟨v, l', n, n', huv⟩ := hstuck u (hholder htu)
      have hlt := hup t u l m m' htu hwaited v l' n n' huv
      exact ih u v l' n n' huv ⟨t, l, m, m', htu⟩ (by omega)
  obtain ⟨t, ht⟩ := hbusy
  obtain ⟨u, l, m, m', htu⟩ := hstuck t ht
  obtain ⟨v, l', n, n', huv⟩ := hstuck u (hholder htu)
  exact hchain (bound + 1) u v l' n n' huv ⟨t, l, m, m', htu⟩ (by omega)

end World

end Threads
