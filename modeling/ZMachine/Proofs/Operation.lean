import Mathlib.Logic.Relation
import ZMachine.Op

/-!
# What operations are made of

Given the kinds of change that a state may undergo, an operation is made of them
when it leads from any state to another by such changes, one after another, also
when it stops half way through with a fault. Compound operations are made of
whatever their parts are made of, so it is enough to say once what the smallest
operations do: a property that no single change can destroy is then kept by all of
them.

Two operations on different states match when they give the same from matching
states and leave matching states.

An operation ensures a property from states of a kind when it gives a value there and
leaves a state with the property.
-/

set_option autoImplicit false

namespace ZMachine

/-- Two computations in a row give a value when the second does from what the first
gives. -/
theorem bind_eq_ok {α β : Type} {x : Except Fault α} {f : α → Except Fault β} {b : β}
    (given : (x >>= f) = .ok b) : ∃ a, x = .ok a ∧ f a = .ok b := by
  cases x with
  | error e => cases given
  | ok a => exact ⟨a, rfl, given⟩

theorem eq_ok_of_toOption {α : Type} {x : Except Fault α} {a : α} (given : x.toOption = some a) :
    x = .ok a := by
  cases x with
  | error e => cases given
  | ok b => exact congrArg Except.ok (Option.some.inj given)

namespace Op

open Relation (ReflTransGen)

theorem run_view_bind {σ α β : Type} (f : σ → α) (k : α → Op σ β) (s : σ) :
    (Op.view f >>= k).run s = (k (f s)).run s := rfl

theorem run_update_bind {σ β : Type} (f : σ → σ) (k : Unit → Op σ β) (s : σ) :
    (Op.update f >>= k).run s = (k ()).run (f s) := rfl

/-- Two operations in a row end with the fault of the first, or as the second does
from where the first ended. -/
theorem bind_cases {σ α β : Type} {x : Op σ α} {f : α → Op σ β} {s t : σ} {ended : Except Fault β}
    (run : (x >>= f).run s = (ended, t)) :
    (∃ e, (x.run s).1 = .error e ∧ ended = .error e ∧ t = (x.run s).2) ∨
      ∃ a, (x.run s).1 = .ok a ∧ (f a).run (x.run s).2 = (ended, t) := by
  rw [run_bind] at run
  rcases first : x.run s with ⟨e | a, u⟩
  · rw [first] at run
    cases run
    exact .inl ⟨e, rfl, rfl, rfl⟩
  · rw [first] at run
    exact .inr ⟨a, rfl, run⟩

/-- Two operations in a row give a value when the second does from where the first
ended. -/
theorem run_bind_eq_ok {σ α β : Type} {x : Op σ α} {f : α → Op σ β} {s t : σ} {b : β}
    (run : (x >>= f).run s = (.ok b, t)) :
    ∃ a, (x.run s).1 = .ok a ∧ (f a).run (x.run s).2 = (.ok b, t) := by
  obtain ⟨_, _, failed, _⟩ | given := bind_cases run
  · cases failed
  · exact given

theorem run_bind_eq_ok_iff {σ α β : Type} {x : Op σ α} {f : α → Op σ β} {s t : σ} {b : β} :
    (x >>= f).run s = (.ok b, t) ↔ ∃ a u, x.run s = (.ok a, u) ∧ (f a).run u = (.ok b, t) := by
  constructor
  · intro run
    obtain ⟨a, given, run⟩ := run_bind_eq_ok run
    exact ⟨a, (x.run s).2, Prod.ext given rfl, run⟩
  · rintro ⟨a, u, first, second⟩
    rw [run_bind_ok first, second]

/-- An operation on a part gives a value when it does on the part alone. -/
theorem run_zoom_eq_ok {σ τ α : Type} {get : σ → τ} {set : τ → σ → σ} {x : Op τ α} {s t : σ}
    {a : α} :
    (Op.zoom get set x).run s = (.ok a, t) ↔ ∃ u, x.run (get s) = (.ok a, u) ∧ t = set u s := by
  constructor
  · intro run
    obtain ⟨given, rfl⟩ := Prod.mk.inj run
    exact ⟨_, Prod.ext given rfl, rfl⟩
  · rintro ⟨u, given, rfl⟩
    exact congrArg (fun ended => (ended.1, set ended.2 s)) given

/-- Operations in a row on a part are operations on the part in a row. -/
theorem zoom_bind {σ τ α β : Type} {get : σ → τ} {set : τ → σ → σ} (x : Op τ α) (f : α → Op τ β)
    (got : ∀ t s, get (set t s) = t) (again : ∀ t u s, set u (set t s) = set u s) :
    Op.zoom get set (x >>= f) = Op.zoom get set x >>= fun a => Op.zoom get set (f a) := by
  funext s
  have first : (Op.zoom get set x).run s = ((x.run (get s)).1, set (x.run (get s)).2 s) := rfl
  have both : (Op.zoom get set (x >>= f)).run s =
      (((x >>= f).run (get s)).1, set ((x >>= f).run (get s)).2 s) := rfl
  change (Op.zoom get set (x >>= f)).run s = (Op.zoom get set x >>= _).run s
  rw [both, run_bind, run_bind, first]
  rcases x.run (get s) with ⟨fault | a, t⟩
  · rfl
  · have second : (Op.zoom get set (f a)).run (set t s) =
        (((f a).run (get (set t s))).1, set ((f a).run (get (set t s))).2 (set t s)) := rfl
    simp only [second, got, again]

/-! ## Changes -/

section MadeOf

variable {σ τ α β : Type} {R : σ → σ → Prop}

/-- However the operation ends, it changes the state only in the ways of `R`. -/
def MadeOf (R : σ → σ → Prop) (x : Op σ α) : Prop :=
  ∀ s, ReflTransGen R s (x.run s).2

namespace MadeOf

theorem reaches {x : Op σ α} (made : MadeOf R x) {s t : σ} {ended : Except Fault α}
    (run : x.run s = (ended, t)) : ReflTransGen R s t := by
  have reached := made s
  rwa [run] at reached

theorem mono {R' : σ → σ → Prop} {x : Op σ α} (made : MadeOf R x) (weaker : ∀ s t, R s t → R' s t) :
    MadeOf R' x :=
  fun s => ReflTransGen.mono weaker _ _ (made s)

theorem pure (a : α) : MadeOf R (Pure.pure a : Op σ α) := fun _ => .refl

theorem fail (e : Fault) : MadeOf R (Op.fail e : Op σ α) := fun _ => .refl

theorem view (f : σ → α) : MadeOf R (Op.view f) := fun _ => .refl

theorem query (f : σ → Except Fault α) : MadeOf R (Op.query f) := fun _ => .refl

theorem ofExcept (x : Except Fault α) : MadeOf R (Op.ofExcept x : Op σ α) := fun _ => .refl

theorem update {f : σ → σ} (change : ∀ s, R s (f s)) : MadeOf R (Op.update f) :=
  fun s => .single (change s)

theorem bind {x : Op σ α} {f : α → Op σ β} (first : MadeOf R x)
    (rest : ∀ a, MadeOf R (f a)) : MadeOf R (x >>= f) := by
  intro s
  rw [run_bind]
  rcases run : x.run s with ⟨fault | a, t⟩
  · exact first.reaches run
  · exact (first.reaches run).trans (rest a t)

theorem ite {condition : Prop} [Decidable condition] {x y : Op σ α} (yes : MadeOf R x)
    (no : MadeOf R y) : MadeOf R (if condition then x else y) := by
  split
  · exact yes
  · exact no

/-- One of two parts before the rest. -/
theorem either {condition : Prop} [Decidable condition] {x y : Op σ β} {k : β → Op σ α}
    (yes : MadeOf R x) (no : MadeOf R y) (rest : ∀ b, MadeOf R (k b)) :
    MadeOf R (if condition then x >>= k else y >>= k) :=
  .ite (.bind yes rest) (.bind no rest)

/-- A part that is only sometimes carried out before the rest. -/
theorem sometimes {condition : Prop} [Decidable condition] {x : Op σ Unit} {k : Unit → Op σ α}
    (made : MadeOf R x) (rest : ∀ u, MadeOf R (k u)) :
    MadeOf R (if condition then x >>= k else k ()) :=
  .ite (.bind made rest) (rest ())

/-- A refusal in front of an operation changes nothing. -/
theorem guard {condition : Prop} [Decidable condition] {e : Fault} {k : β → Op σ α} {x : Op σ α}
    (made : MadeOf R x) : MadeOf R (if condition then Op.fail e >>= k else x) :=
  .ite (fun _ => .refl) made

/-- An operation on a part of a state changes the whole in the ways in which a
change of the part does. -/
theorem zoom {T : τ → τ → Prop} {get : σ → τ} {set : τ → σ → σ} {x : Op τ α}
    (made : MadeOf T x) (same : ∀ s, set (get s) s = s)
    (lift : ∀ s t u, T t u → R (set t s) (set u s)) : MadeOf R (Op.zoom get set x) := by
  intro s
  have lifted : ReflTransGen R (set (get s) s) (set (x.run (get s)).2 s) :=
    (made (get s)).lift (fun t => set t s) (lift s)
  rw [same] at lifted
  exact lifted

end MadeOf

end MadeOf

/-! ## Matching operations -/

section Matches

variable {σ τ α β : Type} {R : σ → τ → Prop}

/-- From related states the operations give the same and leave related states. -/
def Matches (R : σ → τ → Prop) (x : Op σ α) (y : Op τ α) : Prop :=
  ∀ s t, R s t → (x.run s).1 = (y.run t).1 ∧ R (x.run s).2 (y.run t).2

namespace Matches

theorem pure (a : α) : Matches R (Pure.pure a) (Pure.pure a) := fun _ _ related => ⟨rfl, related⟩

theorem view {f : σ → α} {g : τ → α} (same : ∀ s t, R s t → f s = g t) :
    Matches R (Op.view f) (Op.view g) :=
  fun s t related => ⟨congrArg Except.ok (same s t related), related⟩

theorem query {f : σ → Except Fault α} {g : τ → Except Fault α}
    (same : ∀ s t, R s t → f s = g t) : Matches R (Op.query f) (Op.query g) :=
  fun s t related => ⟨same s t related, related⟩

theorem update {f : σ → σ} {g : τ → τ} (change : ∀ s t, R s t → R (f s) (g t)) :
    Matches R (Op.update f) (Op.update g) :=
  fun s t related => ⟨rfl, change s t related⟩

theorem bind {x : Op σ α} {y : Op τ α} {f : α → Op σ β} {g : α → Op τ β}
    (first : Matches R x y) (rest : ∀ a, Matches R (f a) (g a)) :
    Matches R (x >>= f) (y >>= g) := by
  intro s t related
  have matched := first s t related
  rw [run_bind, run_bind]
  generalize x.run s = ended, y.run t = ended' at matched
  obtain ⟨given, s'⟩ := ended
  obtain ⟨given', t'⟩ := ended'
  obtain ⟨rfl, after⟩ : given = given' ∧ R s' t' := matched
  cases given with
  | error fault => exact ⟨rfl, after⟩
  | ok a => exact rest a s' t' after

theorem ite {condition : Prop} [Decidable condition] {x x' : Op σ α} {y y' : Op τ α}
    (yes : Matches R x y) (no : Matches R x' y') :
    Matches R (if condition then x else x') (if condition then y else y') := by
  by_cases holds : condition
  · simpa only [if_pos holds] using yes
  · simpa only [if_neg holds] using no

/-- A refusal in front of matching operations. -/
theorem guard {γ : Type} {condition : Prop} [Decidable condition] {e : Fault} {k : γ → Op σ α}
    {k' : γ → Op τ α} {x : Op σ α} {y : Op τ α} (rest : Matches R x y) :
    Matches R (if condition then Op.fail e >>= k else x)
      (if condition then Op.fail e >>= k' else y) :=
  .ite (fun _ _ related => ⟨rfl, related⟩) rest

/-- An operation matches itself on equal states. -/
theorem same (x : Op σ α) : Matches Eq x x := by
  rintro s _ rfl
  exact ⟨rfl, rfl⟩

/-- Operations on parts match when they match on the parts. -/
theorem zoom {ρ ρ' : Type} {Q : ρ → ρ' → Prop} {get : σ → ρ} {set : ρ → σ → σ} {get' : τ → ρ'}
    {set' : ρ' → τ → τ} {x : Op ρ α} {y : Op ρ' α} (matched : Matches Q x y)
    (part : ∀ s t, R s t → Q (get s) (get' t))
    (whole : ∀ s t u v, R s t → Q u v → R (set u s) (set' v t)) :
    Matches R (Op.zoom get set x) (Op.zoom get' set' y) := by
  intro s t related
  obtain ⟨equal, after⟩ := matched (get s) (get' t) (part s t related)
  exact ⟨equal, whole s t _ _ related after⟩

end Matches

end Matches

/-! ## Operations that succeed -/

section Ensures

variable {σ α β : Type} {P Q R : σ → Prop}

/-- From a state with `P` the operation gives a value and leaves a state with `Q`. -/
def Ensures (P : σ → Prop) (x : Op σ α) (Q : σ → Prop) : Prop :=
  ∀ s, P s → ∃ a t, x.run s = (.ok a, t) ∧ Q t

namespace Ensures

theorem mono {x : Op σ α} (ensures : Ensures P x Q) (weaker : ∀ s, Q s → R s) :
    Ensures P x R := by
  intro s holds
  obtain ⟨a, t, run, holds⟩ := ensures s holds
  exact ⟨a, t, run, weaker t holds⟩

/-- A look at what is known already. -/
theorem look {f : σ → α} {k : α → Op σ β} {a : α} (known : ∀ s, P s → f s = a)
    (rest : Ensures P (k a) Q) : Ensures P (Op.view f >>= k) Q := by
  intro s holds
  rw [run_view_bind, known s holds]
  exact rest s holds

theorem bind {x : Op σ α} {f : α → Op σ β} (first : Ensures P x Q)
    (rest : ∀ a, Ensures Q (f a) R) : Ensures P (x >>= f) R := by
  intro s holds
  obtain ⟨a, t, run, holds⟩ := first s holds
  obtain ⟨b, u, run', holds⟩ := rest a t holds
  exact ⟨b, u, (run_bind_ok run).trans run', holds⟩

theorem ite {condition : Prop} [Decidable condition] {x y : Op σ α}
    (yes : condition → Ensures P x Q) (no : ¬ condition → Ensures P y Q) :
    Ensures P (if condition then x else y) Q := by
  by_cases holds : condition
  · rw [if_pos holds]
    exact yes holds
  · rw [if_neg holds]
    exact no holds

end Ensures

end Ensures

end Op

end ZMachine
