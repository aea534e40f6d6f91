import SensorLib.Threads.Program

/-! # What programs are made of

A fact about a program that its blocks have, and that holds of one program
after another, holds of every program made of these blocks.
-/

namespace Threads

namespace Prog

variable {S : Signature} {α β : Type}

/-- A program of acts, all of the kind `T`. -/
def Only (T : S.Act → Prop) : Prog S α → Prop
  | .pure _ => True
  | .act a k => T a ∧ ∀ x, Only T (k x)
  | .lock .. | .unlock .. | .call .. => False

variable {T : S.Act → Prop}

theorem only_perform {a : S.Act} (ha : T a) : Only T (perform a) := ⟨ha, fun _ => trivial⟩

theorem Only.bind {p : Prog S α} {q : α → Prog S β} (hp : Only T p) (hq : ∀ a, Only T (q a)) :
    Only T (p.bind q) := by
  induction p with
  | pure a => exact hq a
  | act a k ih => exact ⟨hp.1, fun x => ih x (hp.2 x)⟩
  | lock | unlock | call => exact hp.elim

theorem Only.beside {turn : S.Act} {isLeft : S.Answer turn → Bool} {left : Prog S α → Prog S α}
    {q : Prog S α} (hturn : T turn) (hleft : ∀ q, Only T q → Only T (left q)) (hq : Only T q) :
    Only T (Prog.beside turn isLeft left q) := by
  induction q with
  | pure a => exact hleft _ trivial
  | act a k ih =>
    refine ⟨hturn, fun x => ?_⟩
    show Only T (if isLeft x = true then _ else _)
    split
    · exact hleft _ hq
    · exact ⟨hq.1, fun y => ih y (hq.2 y)⟩
  | lock | unlock | call => exact hq.elim

theorem Only.interleave {turn : S.Act} {isLeft : S.Answer turn → Bool} {p : Prog S Unit}
    {q : Prog S α} (hturn : T turn) (hp : Only T p) (hq : Only T q) :
    Only T (Prog.interleave turn isLeft p q) := by
  induction p generalizing q with
  | pure a => exact hq
  | act a k ih => exact Only.beside hturn (fun q hq => ⟨hp.1, fun x => ih x (hp.2 x) hq⟩) hq
  | lock | unlock | call => exact hp.elim

/-- A program that runs blocks of the kind `B` one after the other. -/
inductive Built (B : (β : Type) → Prog S β → Prop) : {α : Type} → Prog S α → Prop
  | pure {α : Type} (a : α) : Built B (.pure a)
  | bind {α β : Type} {p : Prog S β} {q : β → Prog S α} (hp : B β p) (hq : ∀ b, Built B (q b)) :
      Built B (p.bind q)

variable {B : (β : Type) → Prog S β → Prop}

theorem built_block {p : Prog S α} (hp : B α p) : Built B p :=
  p.bind_pure ▸ Built.bind hp Built.pure

theorem Built.append {p : Prog S α} {q : α → Prog S β} (hp : Built B p)
    (hq : ∀ a, Built B (q a)) : Built B (p.bind q) := by
  induction hp with
  | pure a => exact hq a
  | bind hp _ ih =>
    rw [bind_assoc]
    exact Built.bind hp ih

end Prog

end Threads
