import Mathlib.Logic.Basic

/-! # Programs of threads that share locks

A program is a tree of instructions. Everything another thread can see stands
in an instruction, so the steps of a thread are exactly its instructions.
-/

namespace Threads

inductive Mode
  | shared
  | exclusive
  deriving DecidableEq, Repr

/-- The instructions of a system: its locks, what acts on the state and answers, and the
procedures that may be called. -/
structure Signature where
  Lock : Type
  [lockEq : DecidableEq Lock]
  Act : Type
  Answer : Act → Type
  Label : Type
  Result : Type

attribute [instance] Signature.lockEq

inductive Prog (S : Signature) (α : Type) : Type
  | pure (a : α)
  | lock (l : S.Lock) (m : Mode) (k : Prog S α)
  | unlock (l : S.Lock) (m : Mode) (k : Prog S α)
  | act (a : S.Act) (k : S.Answer a → Prog S α)
  | call (f : S.Label) (k : S.Result → Prog S α)

namespace Prog

variable {S : Signature} {α β γ : Type}

def bind : Prog S α → (α → Prog S β) → Prog S β
  | .pure a, f => f a
  | .lock l m k, f => .lock l m (k.bind f)
  | .unlock l m k, f => .unlock l m (k.bind f)
  | .act a k, f => .act a fun x => (k x).bind f
  | .call g k, f => .call g fun x => (k x).bind f

instance : Monad (Prog S) where
  pure := .pure
  bind := bind

@[simp] theorem pure_eq (a : α) : (Pure.pure a : Prog S α) = .pure a := rfl

@[simp] theorem bind_eq (p : Prog S α) (f : α → Prog S β) : p >>= f = p.bind f := rfl

@[simp] theorem pure_bind (a : α) (f : α → Prog S β) : (Prog.pure a).bind f = f a := rfl

@[simp] theorem lock_bind (l : S.Lock) (m : Mode) (k : Prog S α) (f : α → Prog S β) :
    (Prog.lock l m k).bind f = .lock l m (k.bind f) := rfl

@[simp] theorem unlock_bind (l : S.Lock) (m : Mode) (k : Prog S α) (f : α → Prog S β) :
    (Prog.unlock l m k).bind f = .unlock l m (k.bind f) := rfl

@[simp] theorem act_bind (a : S.Act) (k : S.Answer a → Prog S α) (f : α → Prog S β) :
    (Prog.act a k).bind f = .act a fun x => (k x).bind f := rfl

@[simp] theorem call_bind (g : S.Label) (k : S.Result → Prog S α) (f : α → Prog S β) :
    (Prog.call g k).bind f = .call g fun x => (k x).bind f := rfl

theorem bind_pure (p : Prog S α) : p.bind .pure = p := by
  induction p with
  | pure a => rfl
  | lock l m k ih => rw [lock_bind, ih]
  | unlock l m k ih => rw [unlock_bind, ih]
  | act a k ih =>
    rw [act_bind]
    exact congrArg _ (funext ih)
  | call g k ih =>
    rw [call_bind]
    exact congrArg _ (funext ih)

theorem bind_assoc (p : Prog S α) (f : α → Prog S β) (g : β → Prog S γ) :
    (p.bind f).bind g = p.bind fun a => (f a).bind g := by
  induction p with
  | pure a => rfl
  | lock l m k ih => rw [lock_bind, lock_bind, ih, lock_bind]
  | unlock l m k ih => rw [unlock_bind, unlock_bind, ih, unlock_bind]
  | act a k ih =>
    rw [act_bind, act_bind, act_bind]
    exact congrArg _ (funext ih)
  | call h k ih =>
    rw [call_bind, call_bind, call_bind]
    exact congrArg _ (funext ih)

/-- One act, and its answer. -/
def perform (a : S.Act) : Prog S (S.Answer a) := .act a .pure

def invoke (f : S.Label) : Prog S S.Result := .call f .pure

/-- A block under a lock that is released when the block is left. -/
def locked (l : S.Lock) (m : Mode) (p : Prog S α) : Prog S α :=
  .lock l m (p.bind fun a => .unlock l m (.pure a))

/-! ## Two programs of one thread

A thread that starts a second one and waits for its end runs the instructions
of both, in an order that the answers of an act `turn` choose.
-/

/-- Run `left` or the next instruction of a program, whichever turn it is. -/
def beside (turn : S.Act) (isLeft : S.Answer turn → Bool) (left : Prog S α → Prog S α) :
    Prog S α → Prog S α
  | .pure a => left (.pure a)
  | .lock l m k =>
    .act turn fun x =>
      if isLeft x then left (.lock l m k) else .lock l m (beside turn isLeft left k)
  | .unlock l m k =>
    .act turn fun x =>
      if isLeft x then left (.unlock l m k) else .unlock l m (beside turn isLeft left k)
  | .act a k =>
    .act turn fun x =>
      if isLeft x then left (.act a k) else .act a fun y => beside turn isLeft left (k y)
  | .call f k =>
    .act turn fun x =>
      if isLeft x then left (.call f k) else .call f fun y => beside turn isLeft left (k y)

/-- Both programs, to the end of each. The result is that of the second. -/
def interleave (turn : S.Act) (isLeft : S.Answer turn → Bool) :
    Prog S Unit → Prog S α → Prog S α
  | .pure _, q => q
  | .lock l m k, q => beside turn isLeft (fun q => .lock l m (interleave turn isLeft k q)) q
  | .unlock l m k, q => beside turn isLeft (fun q => .unlock l m (interleave turn isLeft k q)) q
  | .act a k, q =>
    beside turn isLeft (fun q => .act a fun x => interleave turn isLeft (k x) q) q
  | .call f k, q =>
    beside turn isLeft (fun q => .call f fun x => interleave turn isLeft (k x) q) q

end Prog

/-! ## Programs over another signature -/

/-- How the instructions of `S` stand among those of `S'`. -/
structure Signature.Reading (S S' : Signature) where
  lock : S.Lock → S'.Lock
  act : S.Act → S'.Act
  answer : (a : S.Act) → S'.Answer (act a) → S.Answer a
  label : S.Label → S'.Label
  result : S'.Result → S.Result

namespace Prog

variable {S S' : Signature} {α : Type}

def translate (φ : S.Reading S') : Prog S α → Prog S' α
  | .pure a => .pure a
  | .lock l m k => .lock (φ.lock l) m (k.translate φ)
  | .unlock l m k => .unlock (φ.lock l) m (k.translate φ)
  | .act a k => .act (φ.act a) fun x => (k (φ.answer a x)).translate φ
  | .call f k => .call (φ.label f) fun r => (k (φ.result r)).translate φ

end Prog

/-- What a program does next. -/
inductive Instr (S : Signature)
  | done
  | lock (l : S.Lock) (m : Mode)
  | unlock (l : S.Lock) (m : Mode)
  | act (a : S.Act)
  | call (f : S.Label)

def Prog.head {S : Signature} {α : Type} : Prog S α → Instr S
  | .pure _ => .done
  | .lock l m _ => .lock l m
  | .unlock l m _ => .unlock l m
  | .act a _ => .act a
  | .call f _ => .call f

end Threads
