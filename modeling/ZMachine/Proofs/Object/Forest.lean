import Mathlib.Data.List.Nodup
import Mathlib.Data.List.Perm.Subperm
import Mathlib.Logic.Relation
import ZMachine.Proofs.Object.Links

/-!
# Forests of objects

A map of links is a forest when the objects that say they are in a container are
those of the container's chain of siblings, each once, and when nothing contains
itself. A move gives an object another parent and takes it from the front or the
middle of one chain to the front of another; where the object does not move into
itself, the result is a forest again (`Forest.moves`).
-/

set_option autoImplicit false

namespace ZMachine.Links

open Relation (ReflTransGen)

variable {f g : Links} {count : Nat}

/-! ## Chains of siblings -/

/-- The objects met by following siblings from an object until there is none. -/
inductive Chain (f : Links) : Word → List Word → Prop where
  | nil : Chain f 0 []
  | cons {obj : Word} {rest : List Word} (real : obj ≠ 0) (more : Chain f (f obj .sibling) rest) :
      Chain f obj (obj :: rest)

/-- The objects that an object contains, in order. -/
def Children (f : Links) (p : Word) (list : List Word) : Prop :=
  Chain f (f p .child) list

namespace Chain

variable {first obj : Word} {list xs ys : List Word}

/-- Siblings lead to one chain only. -/
theorem unique (chain : Chain f first xs) (chain' : Chain f first ys) : xs = ys := by
  induction chain generalizing ys with
  | nil =>
      cases chain' with
      | nil => rfl
      | cons real _ => exact absurd rfl real
  | cons real _ ih =>
      cases chain' with
      | nil => exact absurd rfl real
      | cons _ more => rw [ih more]

theorem head (chain : Chain f first (obj :: list)) : first = obj := by
  cases chain with
  | cons _ _ => rfl

theorem tail (chain : Chain f first (obj :: list)) : Chain f (f obj .sibling) list := by
  cases chain with
  | cons _ more => exact more

/-- A chain depends on the siblings of its members alone. -/
theorem congr (chain : Chain f first list) (same : ∀ o ∈ list, g o .sibling = f o .sibling) :
    Chain g first list := by
  induction chain with
  | nil => exact .nil
  | @cons obj rest real _ ih =>
      refine .cons real ?_
      rw [same obj List.mem_cons_self]
      exact ih fun o member => same o (List.mem_cons_of_mem obj member)

/-- A member of a chain heads the rest of it. -/
theorem behind (chain : Chain f first (xs ++ obj :: ys)) : Chain f obj (obj :: ys) := by
  induction xs generalizing first with
  | nil =>
      cases chain with
      | cons real more => exact .cons real more
  | cons x xs ih => exact ih chain.tail

/-- No object stands twice in a chain: it would be followed by itself without end. -/
theorem nodup (chain : Chain f first list) : list.Nodup := by
  induction chain with
  | nil => exact List.nodup_nil
  | @cons obj rest real more ih =>
      refine List.nodup_cons.mpr ⟨fun again => ?_, ih⟩
      obtain ⟨xs, ys, rfl⟩ := List.append_of_mem again
      have same : xs ++ obj :: ys = ys := (List.cons.inj (unique (.cons real more) more.behind)).2
      have := congrArg List.length same
      simp only [List.length_append, List.length_cons] at this
      omega

/-- Passing over a member takes it out of the chain. -/
theorem pass_over {b : Word} (chain : Chain f first (xs ++ b :: obj :: ys))
    (passed : g b .sibling = f obj .sibling)
    (same : ∀ o ∈ xs ++ ys, g o .sibling = f o .sibling) : Chain g first (xs ++ b :: ys) := by
  induction xs generalizing first with
  | nil =>
      cases chain with
      | cons real more =>
          refine .cons real ?_
          rw [passed]
          exact more.tail.congr same
  | cons x xs ih =>
      cases chain with
      | cons real more =>
          refine .cons real ?_
          rw [same x List.mem_cons_self]
          exact ih more fun o member => same o (List.mem_cons_of_mem x member)

/-- Where links lead to known objects only, a chain consists of known objects. -/
theorem known_of_bounded (chain : Chain f first list)
    (bounded : ∀ obj l, Known count obj → (f obj l).toNat ≤ count) (start : first.toNat ≤ count)
    (member : obj ∈ list) : Known count obj := by
  induction chain with
  | nil => cases member
  | @cons o rest real _ ih =>
      rcases List.mem_cons.mp member with rfl | member
      · exact ⟨real, start⟩
      · exact ih (bounded o .sibling ⟨real, start⟩) member

/-- A chain is no longer than there are object numbers. -/
theorem length_le (chain : Chain f first list) : list.length ≤ 0x10000 := by
  have nodup : (list.map UInt16.toNat).Nodup :=
    List.Nodup.map (fun _ _ => UInt16.toNat_inj.mp) chain.nodup
  have inside : list.map UInt16.toNat ⊆ List.range 0x10000 := by
    intro n member
    obtain ⟨o, _, rfl⟩ := List.mem_map.mp member
    exact List.mem_range.mpr o.toNat_lt
  have := (List.subperm_of_subset nodup inside).length_le
  rwa [List.length_map, List.length_range] at this

end Chain

/-! ## Forests -/

/-- Following parents from an object leads out of everything. -/
inductive Rooted (f : Links) : Word → Prop where
  | out : Rooted f 0
  | step {obj : Word} (above : Rooted f (f obj .parent)) : Rooted f obj

/-- What is rooted does not contain itself. -/
theorem Rooted.parent_ne {obj : Word} (rooted : Rooted f obj) (real : obj ≠ 0) :
    f obj .parent ≠ obj := by
  induction rooted with
  | out => exact absurd rfl real
  | @step obj _ ih =>
      intro same
      rw [same] at ih
      exact ih real same

/-- An object is another one, or lies inside it: following parents leads there. -/
def Within (f : Links) (obj inner : Word) : Prop :=
  ReflTransGen (fun o p => p = f o .parent) inner obj

/-- The first `count` objects form a forest. -/
structure Forest (f : Links) (count : Nat) : Prop where
  bounded : ∀ obj l, Known count obj → (f obj l).toNat ≤ count
  ends : ∀ p, Known count p → ∃ list, Children f p list
  held : ∀ p list, Known count p → Children f p list → ∀ obj ∈ list, f obj .parent = p
  listed : ∀ obj list, Known count obj → f obj .parent ≠ 0 → Children f (f obj .parent) list →
    list.count obj = 1
  loose : ∀ obj, Known count obj → f obj .parent = 0 → f obj .sibling = 0
  rooted : ∀ obj, Known count obj → Rooted f obj

/-- An object has another parent and stands at the front of its list, if it is an
object, and in no other list; nothing else is changed. -/
structure Moves (count : Nat) (f g : Links) (obj dest : Word) : Prop where
  parent : g obj .parent = dest
  kept : ∀ o, o ≠ obj → g o .parent = f o .parent
  siblings : ∀ o, o ≠ obj → f o .sibling ≠ obj → g o .sibling = f o .sibling
  loose : dest = 0 → g obj .sibling = 0
  lists : ∀ p list, Known count p → Children f p list →
    Children g p (if p = dest then obj :: list.erase obj else list.erase obj)
  bounded : ∀ o l, Known count o → (g o l).toNat ≤ count

namespace Forest

variable {obj dest p : Word} {list : List Word}

theorem known_of_link (forest : f.Forest count) (known : Known count obj) {l : Link}
    (leads : f obj l ≠ 0) : Known count (f obj l) :=
  ⟨leads, forest.bounded obj l known⟩

theorem known_of_mem (forest : f.Forest count) (known : Known count p)
    (children : Children f p list) (member : obj ∈ list) : Known count obj :=
  children.known_of_bounded forest.bounded (forest.bounded p .child known) member

/-- An object stands only in the list of its parent. -/
theorem not_mem (forest : f.Forest count) (known : Known count p) (children : Children f p list)
    (other : f obj .parent ≠ p) : obj ∉ list :=
  fun member => other (forest.held p list known children obj member)

theorem mem (forest : f.Forest count) (known : Known count obj) (inside : f obj .parent ≠ 0)
    (children : Children f (f obj .parent) list) : obj ∈ list := by
  refine List.count_pos_iff.mp ?_
  rw [forest.listed obj list known inside children]
  exact Nat.one_pos

end Forest

namespace Moves

variable {obj dest p : Word} {list : List Word}

/-- The members of a list after a move. -/
theorem mem_iff (moves : Moves count f g obj dest) (known : Known count p)
    (children : Children f p list) {after : List Word} (children' : Children g p after) (o : Word) :
    o ∈ after ↔ (o = obj ∧ p = dest) ∨ (o ≠ obj ∧ o ∈ list) := by
  rw [children'.unique (moves.lists p list known children)]
  have erased : ∀ o, o ∈ list.erase obj ↔ o ≠ obj ∧ o ∈ list :=
    fun o => children.nodup.mem_erase_iff
  by_cases here : p = dest
  · rw [if_pos here, List.mem_cons, erased]
    simp [here]
  · rw [if_neg here, erased]
    simp [here]

/-- When an object does not move into itself, parents still lead out of everything. -/
theorem rooted (moves : Moves count f g obj dest) (above : Rooted f dest)
    (clear : dest ≠ 0 → ¬ Within f obj dest) {o : Word} (before : Rooted f o) : Rooted g o := by
  -- The parents of what is not within the object have not changed.
  have aside : ∀ {o}, Rooted f o → ¬ Within f obj o → Rooted g o := by
    intro o before
    induction before with
    | out => exact fun _ => .out
    | @step o _ ih =>
        intro apart
        have other : o ≠ obj := by
          rintro rfl
          exact apart .refl
        refine .step ?_
        rw [moves.kept o other]
        exact ih fun within => apart (.head rfl within)
  have moved : Rooted g obj := by
    refine .step ?_
    rw [moves.parent]
    by_cases nowhere : dest = 0
    · rw [nowhere]
      exact .out
    · exact aside above (clear nowhere)
  induction before with
  | out => exact .out
  | @step o _ ih =>
      by_cases here : o = obj
      · rw [here]
        exact moved
      · refine .step ?_
        rw [moves.kept o here]
        exact ih

/-- **Moves.** A forest in which an object does not move into itself is a forest
again. -/
theorem forest (moves : Moves count f g obj dest) (before : f.Forest count) (real : obj ≠ 0)
    (above : Rooted f dest) (clear : dest ≠ 0 → ¬ Within f obj dest) : g.Forest count where
  bounded := moves.bounded
  ends p known := by
    obtain ⟨list, children⟩ := before.ends p known
    exact ⟨_, moves.lists p list known children⟩
  held p after known children' o member := by
    obtain ⟨list, children⟩ := before.ends p known
    rcases (moves.mem_iff known children children' o).mp member with ⟨rfl, rfl⟩ | ⟨other, member⟩
    · exact moves.parent
    · rw [moves.kept o other]
      exact before.held p list known children o member
  listed o after known inside children' := by
    have knownParent : Known count (g o .parent) := ⟨inside, moves.bounded o .parent known⟩
    obtain ⟨list, children⟩ := before.ends _ knownParent
    refine List.count_eq_one_of_mem children'.nodup ?_
    refine (moves.mem_iff knownParent children children' o).mpr ?_
    by_cases here : o = obj
    · exact .inl ⟨here, by rw [here, moves.parent]⟩
    · have same := moves.kept o here
      rw [same] at inside children
      exact .inr ⟨here, before.mem known inside children⟩
  loose o known out := by
    by_cases here : o = obj
    · rw [here] at out ⊢
      exact moves.loose (moves.parent ▸ out)
    · rw [moves.kept o here] at out
      have last := before.loose o known out
      rw [moves.siblings o here (last ▸ real.symm), last]
  rooted o known := moves.rooted above clear (before.rooted o known)

/-- A list that does not change hands stays as it is. -/
theorem others (moves : Moves count f g obj dest) (before : f.Forest count)
    (known : Known count p) (away : p ≠ dest) (away' : p ≠ f obj .parent)
    (children : Children f p list) : Children g p list := by
  have moved := moves.lists p list known children
  rwa [if_neg away, List.erase_of_not_mem (before.not_mem known children away'.symm)] at moved

/-- Taking an object out and putting it somewhere is one move. -/
theorem trans {h : Links} (out : Moves count f g obj 0) (into : Moves count g h obj dest) :
    Moves count f h obj dest where
  parent := into.parent
  kept o other := (into.kept o other).trans (out.kept o other)
  siblings o other apart := by
    have same := out.siblings o other apart
    rw [← same] at apart ⊢
    exact into.siblings o other apart
  loose := into.loose
  lists p list known children := by
    have taken := out.lists p list known children
    rw [if_neg known.1] at taken
    have put := into.lists p _ known taken
    rwa [List.erase_of_not_mem (a := obj) children.nodup.not_mem_erase] at put
  bounded := into.bounded

end Moves

/-! ## Changing links -/

/-- A link that leads to an object from the list it stands in: the container's, if it
is the first, or that of the object before it. -/
inductive LeadsTo (f : Links) (count : Nat) (obj : Word) : Word → Link → Prop where
  | first (next : f (f obj .parent) .child = obj) : LeadsTo f count obj (f obj .parent) .child
  | after {b : Word} (known : Known count b) (next : f b .sibling = obj)
      (beside : f b .parent = f obj .parent) : LeadsTo f count obj b .sibling

/-- An object is passed over at a link that leads to it, and put nowhere. -/
def takeOut (f : Links) (obj holder : Word) (l : Link) : Links :=
  ((f.set holder l (f obj .sibling)).set obj .parent 0).set obj .sibling 0

/-- An object that is nowhere is put in front of the children of another. -/
def putInto (f : Links) (obj dest : Word) : Links :=
  ((f.set obj .sibling (f dest .child)).set obj .parent dest).set dest .child obj

namespace Forest

variable {obj dest holder : Word} {l : Link}

/-- An object that is nowhere stays there. -/
theorem stays (forest : f.Forest count) (known : Known count obj) (out : f obj .parent = 0) :
    Moves count f f obj 0 where
  parent := out
  kept _ _ := rfl
  siblings _ _ _ := rfl
  loose _ := forest.loose obj known out
  lists p list knownP children := by
    have absent := forest.not_mem knownP children (out ▸ knownP.1.symm)
    rw [if_neg knownP.1, List.erase_of_not_mem absent]
    exact children
  bounded := forest.bounded

theorem takeOut_bounded (forest : f.Forest count) (known : Known count obj) (holder : Word)
    (l : Link) (o : Word) (k : Link) (known' : Known count o) :
    (takeOut f obj holder l o k).toNat ≤ count := by
  have next := forest.bounded obj .sibling known
  have old := forest.bounded o k known'
  simp only [takeOut, Links.set]
  split
  · exact Nat.zero_le count
  split
  · exact Nat.zero_le count
  split
  · exact next
  · exact old

/-- The list of the container without the object. -/
theorem takeOut_children (forest : f.Forest count) (known : Known count obj)
    (inside : f obj .parent ≠ 0) (leads : LeadsTo f count obj holder l) {list : List Word}
    (children : Children f (f obj .parent) list) :
    Children (takeOut f obj holder l) (f obj .parent) (list.erase obj) := by
  cases leads with
  | first next =>
      rw [Children, next] at children
      cases children with
      | nil => exact absurd rfl known.1
      | @cons _ rest real more =>
          have fresh := (List.nodup_cons.mp (Chain.cons real more).nodup).1
          have start : takeOut f obj (f obj .parent) .child (f obj .parent) .child =
              f obj .sibling := by
            simp [takeOut]
          rw [List.erase_cons_head, Children, start]
          refine more.congr fun o member => ?_
          have other : o ≠ obj := fun same => fresh (same ▸ member)
          simp [takeOut, other]
  | after known' next beside =>
      have member : holder ∈ list := by
        rw [← beside] at inside children
        exact forest.mem known' inside children
      obtain ⟨xs, rest, rfl⟩ := List.append_of_mem member
      obtain ⟨ys, rfl⟩ : ∃ ys, rest = obj :: ys := by
        have more := children.behind.tail
        rw [next] at more
        cases more with
        | nil => exact absurd rfl known.1
        | @cons _ ys _ _ => exact ⟨ys, rfl⟩
      have nodup := children.nodup
      simp only [List.nodup_append, List.nodup_cons, List.mem_cons, not_or] at nodup
      obtain ⟨_, ⟨⟨apart, notBehind⟩, fresh, _⟩, before⟩ := nodup
      have erased : (xs ++ holder :: obj :: ys).erase obj = xs ++ holder :: ys := by
        have notBefore : obj ∉ xs := fun member => before obj member obj (.inr (.inl rfl)) rfl
        rw [List.erase_append_right _ notBefore, List.erase_cons_tail (by simpa using apart),
          List.erase_cons_head]
      rw [erased, Children]
      have start : takeOut f obj holder .sibling (f obj .parent) .child =
          f (f obj .parent) .child := by
        simp [takeOut]
      rw [start]
      refine Chain.pass_over children ?_ fun o among => ?_
      · simp [takeOut, apart]
      · have other : o ≠ obj := by
          rintro rfl
          rcases List.mem_append.mp among with early | late
          · exact before o early o (.inr (.inl rfl)) rfl
          · exact fresh late
        have other' : o ≠ holder := by
          rintro rfl
          rcases List.mem_append.mp among with early | late
          · exact before o early o (.inl rfl) rfl
          · exact notBehind late
        simp [takeOut, other, other']

/-- Taking an object out of the list it stands in. -/
theorem takeOut_moves (forest : f.Forest count) (known : Known count obj)
    (inside : f obj .parent ≠ 0) (leads : LeadsTo f count obj holder l) :
    Moves count f (takeOut f obj holder l) obj 0 where
  parent := by simp [takeOut]
  kept o other := by
    cases leads <;> simp [takeOut, other]
  siblings o other apart := by
    cases leads with
    | first _ => simp [takeOut, other]
    | after _ next _ =>
        have other' : o ≠ holder := by
          rintro rfl
          exact apart next
        simp [takeOut, other, other']
  loose _ := by simp [takeOut]
  lists p list knownP children := by
    rw [if_neg knownP.1]
    by_cases here : p = f obj .parent
    · rw [here] at children ⊢
      exact forest.takeOut_children known inside leads children
    · -- Neither the object nor what leads to it stands in another list.
      have absent := forest.not_mem knownP children (Ne.symm here)
      rw [List.erase_of_not_mem absent, Children]
      have start : takeOut f obj holder l p .child = f p .child := by
        cases leads <;> simp [takeOut, here]
      rw [start]
      refine children.congr fun o member => ?_
      have other : o ≠ obj := fun same => absent (same ▸ member)
      cases leads with
      | first _ => simp [takeOut, other]
      | after _ _ beside =>
          have other' : o ≠ holder := by
            rintro rfl
            exact here ((forest.held p list knownP children o member).symm.trans beside)
          simp [takeOut, other, other']
  bounded := forest.takeOut_bounded known holder l

/-- Putting an object that is nowhere into another one. -/
theorem putInto_moves (forest : f.Forest count) (known : Known count obj)
    (known' : Known count dest) (apart : dest ≠ obj) (out : f obj .parent = 0) :
    Moves count f (putInto f obj dest) obj dest where
  parent := by simp [putInto]
  kept o other := by simp [putInto, other]
  siblings o other _ := by simp [putInto, other]
  loose nowhere := absurd nowhere known'.1
  lists p list knownP children := by
    have absent := forest.not_mem knownP children (out ▸ knownP.1.symm)
    have more : Chain (putInto f obj dest) (f p .child) list := by
      refine children.congr fun o member => ?_
      have other : o ≠ obj := fun same => absent (same ▸ member)
      simp [putInto, other]
    rw [List.erase_of_not_mem absent, Children]
    by_cases here : p = dest
    · subst here
      have start : putInto f obj p p .child = obj := by simp [putInto]
      have next : putInto f obj p obj .sibling = f p .child := by simp [putInto]
      rw [if_pos rfl, start]
      refine .cons known.1 ?_
      rw [next]
      exact more
    · have start : putInto f obj dest p .child = f p .child := by simp [putInto, here]
      rw [if_neg here, start]
      exact more
  bounded o k known'' := by
    have first := forest.bounded dest .child known'
    have old := forest.bounded o k known''
    simp only [putInto, Links.set]
    split
    · exact known.2
    split
    · exact known'.2
    split
    · exact first
    · exact old

end Forest

end ZMachine.Links
