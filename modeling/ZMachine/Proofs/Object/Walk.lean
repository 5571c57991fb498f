import Mathlib.Data.Fintype.EquivFin
import Mathlib.Logic.Relation
import Mathlib.Order.WellFounded
import ZMachine.Proofs.Object.Links

/-!
# When the walk over the object tree ends

The walk goes down at most so many levels, but along a chain of siblings it goes until
the chain ends. It is a least solution of its equations, so a walk without end has no
answer at all.

From one sibling the walk passes to the next when it has shown the first with all that it
contains (`Passes`). There are only so many objects, so a chain along which it passes
without end leads back to an object of the chain, and a chain that does so is followed
without end (`visitChain_endless`, `visitChain_eq_none`). Hence the walk has an answer
exactly if it comes to no object that it passes back to (`walk_answers_iff`); in
particular it has one where no object follows itself among its siblings.
-/

set_option autoImplicit false

namespace ZMachine.ObjectTable

open Relation (ReflTransGen TransGen)

/-! ## Walks -/

namespace Walk

variable {α β : Type}

/-- A walk has no end, stops with a fault, or gives a value. -/
theorem ends (w : Walk α) : w.run = none ∨ (∃ e, w = throw e) ∨ ∃ a, w = pure a := by
  rcases ended : w.run with _ | e | a
  · exact .inl rfl
  · exact .inr (.inl ⟨e, ended⟩)
  · exact .inr (.inr ⟨a, ended⟩)

theorem pure_ne_none (a : α) : (pure a : Walk α).run ≠ none :=
  nofun

theorem throw_ne_none (e : Fault) : (throw e : Walk α).run ≠ none :=
  nofun

theorem pure_inj {a b : α} (same : (pure a : Walk α) = pure b) : a = b :=
  Except.ok.inj (Option.some.inj same)

theorem throw_bind (e : Fault) (f : α → Walk β) : (throw e : Walk α) >>= f = throw e :=
  rfl

/-- A walk behind a look at the story. -/
theorem look_bind {x : Except Fault α} {a : α} (found : x = .ok a) (f : α → Walk β) :
    (liftM x : Walk α) >>= f = f a := by
  rw [found]
  rfl

/-- Two walks in a row have no end when the first has none, or the second has none behind
what the first gives. -/
theorem bind_eq_none {w : Walk α} {f : α → Walk β} :
    (w >>= f).run = none ↔ w.run = none ∨ ∃ a, w = pure a ∧ (f a).run = none := by
  rcases w.ends with endless | ⟨e, rfl⟩ | ⟨a, rfl⟩
  · refine ⟨fun _ => .inl endless, fun _ => ?_⟩
    rw [ExceptT.run_bind, endless]
    rfl
  · rw [throw_bind]
    refine ⟨fun absurd => (throw_ne_none e absurd).elim, ?_⟩
    rintro (absurd | ⟨a, same, _⟩)
    · exact (throw_ne_none e absurd).elim
    · cases same
  · rw [pure_bind]
    refine ⟨fun endless => .inr ⟨a, rfl, endless⟩, ?_⟩
    rintro (absurd | ⟨b, same, endless⟩)
    · exact (pure_ne_none a absurd).elim
    · rwa [pure_inj same]

/-- Behind a look at the story the walk has no end when it has none behind what is seen. -/
theorem look_eq_none {x : Except Fault α} {f : α → Walk β} :
    ((liftM x : Walk α) >>= f).run = none ↔ ∃ a, x = .ok a ∧ (f a).run = none := by
  constructor
  · intro endless
    cases x with
    | error e => exact (throw_ne_none e endless).elim
    | ok a => exact ⟨a, rfl, endless⟩
  · rintro ⟨a, found, endless⟩
    rwa [look_bind found]

end Walk

variable {t : ObjectTable} {m : Memory} {c : Codec}

/-! ## Chains -/

section Chains

variable {α : Type} {visit : Word → Walk (List α)} {first obj next o : Word}
  {shown lines : List α}

/-- The walk passes from an object to its sibling when it has visited the object. -/
structure Passes (t : ObjectTable) (m : Memory) (visit : Word → Walk (List α))
    (obj next : Word) : Prop where
  real : obj ≠ 0
  visited : ∃ lines, visit obj = pure lines
  follows : t.sibling m obj = .ok next

theorem Passes.unique (passes : t.Passes m visit obj next) (passes' : t.Passes m visit obj o) :
    next = o :=
  Except.ok.inj (passes.follows.symm.trans passes'.follows)

theorem visitChain_zero (shown : List α) : t.visitChain m visit 0 shown = some (.ok shown) := by
  rw [visitChain, if_pos rfl]

theorem visitChain_next (real : obj ≠ 0) (visited : visit obj = pure lines)
    (follows : t.sibling m obj = .ok next) (shown : List α) :
    t.visitChain m visit obj shown = t.visitChain m visit next (shown ++ lines) := by
  rw [visitChain, if_neg real, visited]
  simp only [ExceptT.run_pure, Option.pure_def, Option.bind_eq_bind, Option.bind_some, follows]

/-- A chain begins without end when the first visit has no end, or when the walk passes on
and the rest of the chain has none. -/
theorem visitChain_step_eq_none (endless : t.visitChain m visit obj shown = none) :
    obj ≠ 0 ∧ (visit obj).run = none ∨
      ∃ lines next, t.Passes m visit obj next ∧
        t.visitChain m visit next (shown ++ lines) = none := by
  by_cases last : obj = 0
  · rw [last, visitChain_zero] at endless
    cases endless
  rcases (visit obj).ends with stuck | ⟨e, faulty⟩ | ⟨lines, visited⟩
  · exact .inl ⟨last, stuck⟩
  · rw [visitChain, if_neg last, faulty] at endless
    cases endless
  · cases follows : t.sibling m obj with
    | error e =>
        rw [visitChain, if_neg last, visited] at endless
        simp only [ExceptT.run_pure, Option.pure_def, Option.bind_eq_bind, Option.bind_some,
          follows] at endless
        cases endless
    | ok next =>
        rw [visitChain_next last visited follows] at endless
        exact .inr ⟨lines, next, ⟨last, ⟨lines, visited⟩, follows⟩, endless⟩

/-- A visit without end leaves the chain without one. -/
theorem visitChain_of_endless_visit (real : obj ≠ 0) (stuck : (visit obj).run = none)
    (shown : List α) : t.visitChain m visit obj shown = none := by
  rw [visitChain, if_neg real, stuck]
  rfl

/-- A chain along which the walk always passes on is followed without end: what the loop
gives it gives after finitely many steps, and none of them is the last. -/
theorem visitChain_endless (onward : ∀ o, ReflTransGen (t.Passes m visit) first o →
    ∃ next, t.Passes m visit o next) (shown : List α) :
    t.visitChain m visit first shown = none := by
  cases ended : t.visitChain m visit first shown with
  | none => rfl
  | some answer =>
      refine absurd onward (visitChain.partial_correctness t m visit (fun obj _ _ =>
        ¬ ∀ o, ReflTransGen (t.Passes m visit) obj o → ∃ next, t.Passes m visit o next)
        ?_ first shown answer ended)
      intro loop ih obj shown answer given onward
      obtain ⟨next, passes⟩ := onward obj .refl
      obtain ⟨lines, visited⟩ := passes.visited
      rw [if_neg passes.real, visited] at given
      simp only [ExceptT.run_pure, Option.pure_def, Option.bind_eq_bind, Option.bind_some,
        passes.follows] at given
      exact ih next _ answer given fun o reached => onward o (.head passes reached)

/-- From a circle the walk does not get away. -/
theorem Passes.circle_onward (circle : TransGen (t.Passes m visit) first first)
    (reached : ReflTransGen (t.Passes m visit) first o) : TransGen (t.Passes m visit) o o := by
  induction reached with
  | refl => exact circle
  | tail _ passes ih =>
      obtain ⟨next, first, back⟩ := TransGen.head'_iff.mp ih
      rw [first.unique passes] at back
      exact .tail' back passes

/-- A chain that leads back to where it begins is followed without end. -/
theorem visitChain_of_circle (circle : TransGen (t.Passes m visit) first first)
    (shown : List α) : t.visitChain m visit first shown = none := by
  refine visitChain_endless (fun o reached => ?_) shown
  obtain ⟨next, passes, _⟩ := TransGen.head'_iff.mp (Passes.circle_onward circle reached)
  exact ⟨next, passes⟩

/-- There are only so many objects: without a circle, a chain whose visits end is followed
to its end. -/
theorem visitChain_eq_none (endless : t.visitChain m visit first shown = none) :
    ∃ o, ReflTransGen (t.Passes m visit) first o ∧
      (o ≠ 0 ∧ (visit o).run = none ∨ TransGen (t.Passes m visit) o o) := by
  by_contra clear
  push Not at clear
  -- The steps from where the walk comes to, from the later object to the earlier one.
  let After (next obj : Word) : Prop :=
    ReflTransGen (t.Passes m visit) first obj ∧ TransGen (t.Passes m visit) obj next
  have trans : IsTrans Word After :=
    ⟨fun _ _ _ later sooner => ⟨sooner.1, sooner.2.trans later.2⟩⟩
  have numbers : Finite Word := .of_injective UInt16.toFin fun _ _ => UInt16.toFin_inj.mp
  have irrefl : Std.Irrefl After := ⟨fun obj again => (clear obj again.1).2 again.2⟩
  have noChain : ∀ o shown, ReflTransGen (t.Passes m visit) first o →
      t.visitChain m visit o shown ≠ none := by
    intro o
    induction o using (Finite.wellFounded_of_trans_of_irrefl After).induction with
    | _ o ih =>
      intro shown reached endless
      obtain ⟨real, stuck⟩ | ⟨lines, next, passes, endless⟩ := visitChain_step_eq_none endless
      · exact (clear o reached).1 real stuck
      · exact ih next ⟨reached, .single passes⟩ _ (reached.tail passes) endless
  exact noChain first shown .refl endless

end Chains

/-! ## The whole tree -/

section Tree

variable {levels : Nat} {obj first next : Word}

/-- Below an object the walk has no end exactly when it has none along its children. -/
theorem subtree_succ_eq_none :
    (t.subtree m c (levels + 1) obj).run = none ↔
      ∃ name first, t.shortName m c obj = .ok name ∧ t.child m obj = .ok first ∧
        t.visitChain m (t.subtree m c levels) first [⟨deepest - levels, name, obj⟩] = none := by
  rw [subtree, Walk.look_eq_none]
  simp only [Walk.look_eq_none]
  exact ⟨fun ⟨name, named, first, found, endless⟩ => ⟨name, first, named, found, endless⟩,
    fun ⟨name, first, named, found, endless⟩ => ⟨name, named, first, found, endless⟩⟩

/-- The walk comes to an object with so many levels left: to the children of the objects that
stand in no container, if what stands before them has been shown, to the children of every
object that it comes to, and from an object that it has shown to the next sibling. -/
inductive ComesTo (t : ObjectTable) (m : Memory) (c : Codec) : (levels : Nat) → Word → Prop where
  | root {before after : List Nat} {n : Nat} {lines : List TreeLine} {name : String}
      {first : Word} (all : List.range' 1 (t.objectCount m) = before ++ n :: after)
      (shown : t.roots m c before = pure lines) (out : t.parent m (UInt16.ofNat n) = .ok 0)
      (named : t.shortName m c (UInt16.ofNat n) = .ok name)
      (found : t.child m (UInt16.ofNat n) = .ok first) : ComesTo t m c deepest first
  | child {levels : Nat} {obj first : Word} {name : String} (here : ComesTo t m c (levels + 1) obj)
      (named : t.shortName m c obj = .ok name) (found : t.child m obj = .ok first) :
      ComesTo t m c levels first
  | sibling {levels : Nat} {obj next : Word} (here : ComesTo t m c levels obj)
      (passes : t.Passes m (t.subtree m c levels) obj next) : ComesTo t m c levels next

/-- The walk comes to an object that it passes back to. -/
def Circles (t : ObjectTable) (m : Memory) (c : Codec) : Prop :=
  ∃ levels obj, t.ComesTo m c levels obj ∧
    TransGen (t.Passes m (t.subtree m c levels)) obj obj

theorem ComesTo.along (here : t.ComesTo m c levels obj)
    (passed : ReflTransGen (t.Passes m (t.subtree m c levels)) obj next) :
    t.ComesTo m c levels next := by
  induction passed with
  | refl => exact here
  | tail _ passes ih => exact ih.sibling passes

/-- The lines of an object that stands in no container. -/
def root (t : ObjectTable) (m : Memory) (c : Codec) (n : Nat) : Walk (List TreeLine) := do
  let container ← t.parent m (UInt16.ofNat n)
  if container = 0 then t.subtree m c (deepest + 1) (UInt16.ofNat n) else pure []

theorem roots_cons (n : Nat) (rest : List Nat) :
    t.roots m c (n :: rest) = t.root m c n >>= fun lines =>
      t.roots m c rest >>= fun behind => pure (lines ++ behind) := by
  rw [roots, root, bind_assoc]
  refine bind_congr fun container => ?_
  split <;> rfl

theorem roots_append (before after : List Nat) :
    t.roots m c (before ++ after) = t.roots m c before >>= fun lines =>
      t.roots m c after >>= fun behind => pure (lines ++ behind) := by
  induction before with
  | nil => simp [roots]
  | cons n before ih =>
      simp only [List.cons_append, roots_cons, ih, bind_assoc, pure_bind, List.append_assoc]

theorem root_eq_none {n : Nat} :
    (t.root m c n).run = none ↔ t.parent m (UInt16.ofNat n) = .ok 0 ∧
      (t.subtree m c (deepest + 1) (UInt16.ofNat n)).run = none := by
  rw [root, Walk.look_eq_none]
  constructor
  · rintro ⟨container, inside, endless⟩
    by_cases out : container = 0
    · rw [if_pos out] at endless
      exact ⟨out ▸ inside, endless⟩
    · rw [if_neg out] at endless
      exact (Walk.pure_ne_none _ endless).elim
  · rintro ⟨out, endless⟩
    exact ⟨0, out, by rwa [if_pos rfl]⟩

/-- Among the objects of a list there is a first one below which the walk has no end. -/
theorem roots_eq_none {numbers : List Nat} (endless : (t.roots m c numbers).run = none) :
    ∃ before n after lines, numbers = before ++ n :: after ∧ t.roots m c before = pure lines ∧
      (t.root m c n).run = none := by
  induction numbers with
  | nil => exact (Walk.pure_ne_none _ endless).elim
  | cons n rest ih =>
      rw [roots_cons, Walk.bind_eq_none] at endless
      rcases endless with stuck | ⟨lines, shown, endless⟩
      · exact ⟨[], n, rest, [], rfl, rfl, stuck⟩
      · rcases Walk.bind_eq_none.mp endless with stuck | ⟨_, _, absurd⟩
        · obtain ⟨before, k, after, behind, rfl, shown', stuck⟩ := ih stuck
          refine ⟨n :: before, k, after, lines ++ behind, rfl, ?_, stuck⟩
          rw [roots_cons, shown, pure_bind, shown', pure_bind]
        · exact (Walk.pure_ne_none _ absurd).elim

/-- Along the children of every object that the walk comes to, and of every root, it comes to
a circle if it has no end. -/
theorem circles_of_subtree (endless : (t.subtree m c levels obj).run = none)
    (below : ∀ rest name first, levels = rest + 1 → t.shortName m c obj = .ok name →
      t.child m obj = .ok first → t.ComesTo m c rest first) : t.Circles m c := by
  induction levels generalizing obj with
  | zero => exact (Walk.throw_ne_none _ endless).elim
  | succ levels ih =>
      obtain ⟨name, first, named, found, endless⟩ := subtree_succ_eq_none.mp endless
      have here := below levels name first rfl named found
      obtain ⟨o, passed, ⟨_, stuck⟩ | circle⟩ := visitChain_eq_none endless
      · refine ih stuck fun rest name first same named found => ?_
        subst same
        exact (here.along passed).child named found
      · exact ⟨levels, o, here.along passed, circle⟩

/-- Where the children of an object that the walk comes to are followed without end, the
whole walk has no end. -/
theorem ComesTo.walk_eq_none (here : t.ComesTo m c levels obj)
    (endless : ∀ shown, t.visitChain m (t.subtree m c levels) obj shown = none) :
    (t.walk m c).run = none := by
  induction here with
  | @root before after n lines name first all shown out named found =>
      have stuck : (t.root m c n).run = none :=
        root_eq_none.mpr ⟨out, subtree_succ_eq_none.mpr ⟨name, first, named, found, endless _⟩⟩
      rw [walk, all, roots_append, shown, pure_bind]
      refine Walk.bind_eq_none.mpr (.inl ?_)
      rw [roots_cons]
      exact Walk.bind_eq_none.mpr (.inl stuck)
  | @child levels obj first name _ named found ih =>
      have stuck : (t.subtree m c (levels + 1) obj).run = none :=
        subtree_succ_eq_none.mpr ⟨name, first, named, found, endless _⟩
      obtain ⟨entry, placed, _⟩ := bind_eq_ok found
      exact ih (visitChain_of_endless_visit (eq_of_entryAddr placed).1 stuck)
  | sibling _ passes ih =>
      obtain ⟨lines, visited⟩ := passes.visited
      refine ih fun shown => ?_
      rw [visitChain_next passes.real visited passes.follows]
      exact endless _

/-- The walk has no end exactly if it comes to an object that it passes back to. -/
theorem walk_eq_none_iff : (t.walk m c).run = none ↔ t.Circles m c := by
  constructor
  · intro endless
    obtain ⟨before, n, after, lines, all, shown, stuck⟩ := roots_eq_none endless
    obtain ⟨out, stuck⟩ := root_eq_none.mp stuck
    refine circles_of_subtree stuck fun rest name first same named found => ?_
    cases same
    exact .root all shown out named found
  · rintro ⟨levels, obj, here, circle⟩
    exact here.walk_eq_none fun shown => visitChain_of_circle circle shown

/-- What the walk answers is what showing the tree gives. -/
theorem walk_eq_tree_iff : (t.walk m c).run = some (t.tree m c) ↔ (t.walk m c).run ≠ none := by
  rw [tree]
  cases ended : (t.walk m c).run <;> simp

/-- Where no object follows itself among its siblings, the walk has an answer. -/
theorem walk_eq_tree_of_acyclic
    (acyclic : ∀ obj, ¬ TransGen (fun o next => t.sibling m o = .ok next) obj obj) :
    (t.walk m c).run = some (t.tree m c) := by
  refine walk_eq_tree_iff.mpr (walk_eq_none_iff.not.mpr ?_)
  rintro ⟨levels, obj, _, circle⟩
  exact acyclic obj (circle.lift id fun _ _ passes => passes.follows)

/-- **Answers.** Showing the tree gives what the walk comes to, a list of lines or a fault,
exactly if the walk does not come to an object that it passes back to. Neither the links to
parents and children nor anything else in the image keep the walk from ending. -/
theorem walk_answers_iff (t : ObjectTable) (m : Memory) (c : Codec) :
    (t.walk m c).run = some (t.tree m c) ↔ ¬ t.Circles m c :=
  walk_eq_tree_iff.trans walk_eq_none_iff.not

end Tree

/-! ## A sibling of itself -/

/-- A story of version 3 with two objects, of which the first contains the second and the
second is its own sibling. -/
def ringBytes : List Byte :=
  [3, 0, 0, 0, 0, 0x90, 0, 0x90, 0, 0, 0, 0x40, 0, 0, 0, 0x90] ++ List.replicate 116 0 ++
    [2, 0, 0x90, 0, 0, 0, 0, 1, 2, 0, 0, 0x90, 0, 0]

def ringStory : Memory :=
  { bytes := ringBytes.toArray, pristine := ringBytes.toArray, version := 3, staticBase := 144,
    highBase := 144 }

def ringTable : ObjectTable :=
  { version := 3, addr := 0x40 }

def ringCodec : Codec :=
  { version := 3, abbreviations := 0, alphabetTable := 0, unicodeTable := 0 }

theorem ring_loaded : Memory.load ringBytes.toArray = .ok ringStory := by
  have size : ringBytes.toArray.size = 146 := by decide +kernel
  refine Memory.load_eq_ok ⟨by decide +kernel, by decide, by decide⟩
    ⟨by decide +kernel, by decide, ?_⟩ ⟨by decide +kernel, ?_⟩ <;> rw [size] <;> decide

/-- The tree of a story in which an object is its own sibling is never shown. -/
theorem ring_endless :
    Memory.load ringBytes.toArray = .ok ringStory ∧ Codec.read ringStory = .ok ringCodec ∧
      ringTable.objectCount ringStory = 2 ∧ ringTable.sibling ringStory 2 = .ok 2 ∧
      (ringTable.walk ringStory ringCodec).run = none := by
  have counted : ringTable.objectCount ringStory = 2 := by decide +kernel
  have around : ringTable.sibling ringStory 2 = .ok 2 := by decide +kernel
  have named : ringTable.shortName ringStory ringCodec 1 = .ok "" := by decide +kernel
  have named' : ringTable.shortName ringStory ringCodec 2 = .ok "" := by decide +kernel
  have last : ringTable.child ringStory 2 = .ok 0 := by decide +kernel
  have all : List.range' 1 (ringTable.objectCount ringStory) = [] ++ 1 :: [2] := by
    rw [counted]
    rfl
  have here : ringTable.ComesTo ringStory ringCodec deepest 2 :=
    .root all rfl (by decide +kernel) named (by decide +kernel)
  have shown : ringTable.subtree ringStory ringCodec deepest 2 = pure [⟨1, "", 2⟩] := by
    rw [deepest, subtree, Walk.look_bind named', Walk.look_bind last, visitChain_zero]
    rfl
  refine ⟨ring_loaded, by decide +kernel, counted, around, walk_eq_none_iff.mpr ?_⟩
  exact ⟨deepest, 2, here, .single ⟨by decide, ⟨_, shown⟩, around⟩⟩

end ZMachine.ObjectTable
