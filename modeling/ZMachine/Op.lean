import ZMachine.Fault

/-!
# Operations

An operation reads and changes a state and either gives a value or stops with a
fault. What it changed before it stopped stays changed: a story that fails half
way through an instruction leaves the bytes it has already written, and the
player can see them.

An operation on a part of a state acts on the whole by `Op.zoom`.
-/

set_option autoImplicit false

namespace ZMachine

/-- A computation over a state that gives a value or stops with a fault; the
state it ends in is kept either way. -/
def Op (σ α : Type) : Type :=
  σ → Except Fault α × σ

namespace Op

variable {σ τ α β : Type}

/-- Run an operation from a state. -/
@[inline] def run (x : Op σ α) (s : σ) : Except Fault α × σ :=
  x s

/-- The operation that only gives a value. -/
@[inline] protected def pure (a : α) : Op σ α :=
  fun s => (.ok a, s)

/-- One operation after another; a fault of the first is the outcome of both. -/
@[inline] protected def bind (x : Op σ α) (f : α → Op σ β) : Op σ β :=
  fun s =>
    match x s with
    | (.ok a, t) => f a t
    | (.error e, t) => (.error e, t)

instance : Monad (Op σ) where
  pure := Op.pure
  bind := Op.bind

/-- Stop with a fault. -/
@[inline] def fail (e : Fault) : Op σ α :=
  fun s => (.error e, s)

/-- Look at the state. -/
@[inline] def view (f : σ → α) : Op σ α :=
  fun s => (.ok (f s), s)

/-- Look at the state in a way that may fail. -/
@[inline] def query (f : σ → Except Fault α) : Op σ α :=
  fun s => (f s, s)

/-- Change the state. -/
@[inline] def update (f : σ → σ) : Op σ Unit :=
  fun s => (.ok (), f s)

/-- Give the value of a computation that needs no state. -/
@[inline] def ofExcept (x : Except Fault α) : Op σ α :=
  fun s => (x, s)

/-- Run an operation on a part of the state. -/
@[inline] def zoom (get : σ → τ) (set : τ → σ → σ) (x : Op τ α) : Op σ α :=
  fun s =>
    match x (get s) with
    | (r, t) => (r, set t s)

/-- Carry out an operation for each element of a list, in order. -/
def each (f : α → Op σ Unit) : List α → Op σ Unit
  | [] => pure ()
  | a :: as => do
      f a
      each f as

/-! ## Running compound operations -/

@[simp] theorem run_pure (a : α) (s : σ) : (pure a : Op σ α).run s = (.ok a, s) := rfl

theorem run_bind (x : Op σ α) (f : α → Op σ β) (s : σ) :
    (x >>= f).run s =
      match x.run s with
      | (.ok a, t) => (f a).run t
      | (.error e, t) => (.error e, t) := rfl

@[simp] theorem run_fail (e : Fault) (s : σ) : (fail e : Op σ α).run s = (.error e, s) := rfl

@[simp] theorem run_view (f : σ → α) (s : σ) : (view f).run s = (.ok (f s), s) := rfl

@[simp] theorem run_query (f : σ → Except Fault α) (s : σ) : (query f).run s = (f s, s) := rfl

@[simp] theorem run_update (f : σ → σ) (s : σ) : (update f).run s = (.ok (), f s) := rfl

/-- The second operation runs in the state that the first one leaves. -/
theorem run_bind_ok {x : Op σ α} {f : α → Op σ β} {s t : σ} {a : α}
    (h : x.run s = (.ok a, t)) : (x >>= f).run s = (f a).run t := by
  rw [run_bind, h]

/-- A fault of the first operation keeps the state that it leaves. -/
theorem run_bind_error {x : Op σ α} {f : α → Op σ β} {s t : σ} {e : Fault}
    (h : x.run s = (.error e, t)) : (x >>= f).run s = (.error e, t) := by
  rw [run_bind, h]

/-- Giving back what an operation gives is the operation. -/
theorem bind_pure_self (x : Op σ α) : Op.bind x Op.pure = x := by
  funext s
  simp only [Op.bind, Op.pure]
  rcases x s with ⟨_ | _, _⟩ <;> rfl

/-- Sequencing is associative. -/
theorem bind_bind {γ : Type} (x : Op σ α) (f : α → Op σ β) (g : β → Op σ γ) :
    Op.bind (Op.bind x f) g = Op.bind x (fun a => Op.bind (f a) g) := by
  funext s
  simp only [Op.bind]
  rcases x s with ⟨_ | _, _⟩ <;> rfl

instance : LawfulMonad (Op σ) :=
  LawfulMonad.mk' (Op σ) bind_pure_self (fun _ _ => rfl) bind_bind

end Op

end ZMachine
