import ZMachine.Proofs.Object.Forest

/-!
# Moving objects

Taking an object out of its container and putting it into another one change a few
links, one after another. In a table that holds a forest each of these operations
succeeds, is a move of that forest, and writes to the links of few objects only
(`remove_run`, `insert_run`). So after any number of them, none of which puts an
object into itself, the table still holds a forest, and each did what it says
(`forest_kept_by_moves`).
-/

set_option autoImplicit false

namespace ZMachine.ObjectTable

open Links (Chain Children Moves LeadsTo Within takeOut putInto)

variable {t : ObjectTable} {m m' : Memory} {count : Nat} {obj dest : Word}

/-- The first `count` objects lie in dynamic memory and form a forest. -/
structure Forest (t : ObjectTable) (m : Memory) (count : Nat) : Prop where
  placed : t.Placed m count
  linked : (t.links m count).Forest count

/-- Memory differs at most in the links of some objects. -/
structure Relinked (t : ObjectTable) (touched : Word → Prop) (m m' : Memory) : Prop where
  bounds : m.SameBounds m'
  bytes : ∀ i, (∀ o l, touched o → ¬ t.InField o l i) → m'.bytes[i]? = m.bytes[i]?

namespace Relinked

variable {touched : Word → Prop}

theorem refl (t : ObjectTable) (touched : Word → Prop) (m : Memory) : t.Relinked touched m m :=
  ⟨.refl m, fun _ _ => rfl⟩

theorem trans {m'' : Memory} (first : t.Relinked touched m m')
    (second : t.Relinked touched m' m'') : t.Relinked touched m m'' :=
  ⟨first.bounds.trans second.bounds,
    fun i outside => (second.bytes i outside).trans (first.bytes i outside)⟩

theorem mono {more : Word → Prop} (relinked : t.Relinked touched m m')
    (covers : ∀ o, touched o → more o) : t.Relinked more m m' :=
  ⟨relinked.bounds, fun i outside => relinked.bytes i fun o l here => outside o l (covers o here)⟩

end Relinked

/-- Setting a link of an object that may be touched. -/
theorem Placed.setLink_relinked (placed : t.Placed m count) (known : Known count obj) (l : Link)
    {value : Word} (bound : value.toNat ≤ count) {touched : Word → Prop} (here : touched obj) :
    ∃ m', (t.setLink obj l value).run m = (.ok (), m') ∧ t.Relinked touched m m' ∧
      t.Placed m' count ∧ t.links m' count = (t.links m count).set obj l value := by
  obtain ⟨m', run, same, kept, linked⟩ := placed.setLink_run known l bound
  exact ⟨m', run, ⟨same, fun i outside => kept i (outside obj l here)⟩, placed.congr same, linked⟩

/-! ## Taking an object out -/

/-- The object before another one in a chain is found. -/
theorem siblingBefore_eq (placed : t.Placed m count) {first b container : Word} {xs ys : List Word}
    (chain : Chain (t.links m count) first (xs ++ b :: obj :: ys))
    (known : ∀ o ∈ xs ++ b :: obj :: ys, Known count o) {fuel : Nat} (enough : xs.length < fuel) :
    t.siblingBefore m obj container fuel first = .ok b := by
  induction xs generalizing first fuel with
  | nil =>
      obtain ⟨fuel, rfl⟩ : ∃ n, fuel = n + 1 := ⟨fuel - 1, by simp at enough; omega⟩
      have found : t.sibling m b = .ok obj := by
        rw [sibling, placed.link_eq (known b (by simp)), chain.tail.head]
      rw [chain.head, siblingBefore, if_neg (known b (by simp)).1, found]
      exact if_pos rfl
  | cons x xs ih =>
      obtain ⟨fuel, rfl⟩ : ∃ n, fuel = n + 1 := ⟨fuel - 1, by simp at enough; omega⟩
      have found : t.sibling m x = .ok (t.links m count x .sibling) :=
        placed.link_eq (known x (by simp))
      have passes : t.links m count x .sibling ≠ obj := by
        intro same
        have rest : Chain (t.links m count) obj ((xs ++ [b]) ++ obj :: ys) := by
          simpa [same] using chain.tail
        have := congrArg List.length (rest.unique rest.behind)
        simp only [List.length_append, List.length_cons] at this
        omega
      rw [chain.head, siblingBefore, if_neg (known x (by simp)).1, found]
      change (if t.links m count x .sibling = obj then _ else _) = _
      rw [if_neg passes]
      refine ih chain.tail (fun o member => known o (List.mem_cons_of_mem x member)) ?_
      simpa using enough

/-- A link that leads to an object in a container is found from the container's first
child. -/
theorem Forest.found (forest : t.Forest m count) (known : Known count obj)
    (inside : t.links m count obj .parent ≠ 0)
    (later : t.links m count (t.links m count obj .parent) .child ≠ obj) :
    ∃ b, t.siblingBefore m obj (t.links m count obj .parent) chainBound
        (t.links m count (t.links m count obj .parent) .child) = .ok b ∧
      LeadsTo (t.links m count) count obj b .sibling := by
  have knownP := forest.linked.known_of_link known inside
  obtain ⟨list, children⟩ := forest.linked.ends _ knownP
  have all : ∀ o ∈ list, Known count o :=
    fun o member => forest.linked.known_of_mem knownP children member
  have parents := forest.linked.held _ list knownP children
  obtain ⟨before, ys, rfl⟩ := List.append_of_mem (forest.linked.mem known inside children)
  obtain rfl | ⟨xs, b, rfl⟩ := List.eq_nil_or_concat before
  · exact absurd children.head later
  · have short := children.length_le
    simp only [List.append_assoc, List.singleton_append, List.concat_eq_append]
      at children all parents short
    refine ⟨b, siblingBefore_eq forest.placed children all ?_, .after (all b (by simp)) ?_ ?_⟩
    · simp only [List.length_append, List.length_cons] at short
      rw [chainBound]
      omega
    · exact children.behind.tail.head
    · exact parents b (by simp)

/-- The objects whose links a move changes: the object itself, its old and new
containers, and the object before it. -/
def Touched (f : Links) (count : Nat) (obj dest o : Word) : Prop :=
  Known count o ∧ (o = obj ∨ o = dest ∨ o = f obj .parent ∨ f o .sibling = obj)

/-- Passing an object over at a link and putting it nowhere. -/
theorem Forest.takeOut_run (forest : t.Forest m count) (known : Known count obj) {holder : Word}
    (known' : Known count holder) (l : Link) {touched : Word → Prop} (here : touched obj)
    (there : touched holder) :
    ∃ m', (t.setLink holder l (t.links m count obj .sibling) >>= fun _ =>
        t.setLink obj .parent 0 >>= fun _ => t.setLink obj .sibling 0).run m = (.ok (), m') ∧
      t.Relinked touched m m' ∧ t.Placed m' count ∧
      t.links m' count = takeOut (t.links m count) obj holder l := by
  have zero : (0 : Word).toNat ≤ count := Nat.zero_le count
  obtain ⟨m₁, run₁, re₁, placed₁, links₁⟩ :=
    forest.placed.setLink_relinked known' l (forest.linked.bounded obj .sibling known) there
  obtain ⟨m₂, run₂, re₂, placed₂, links₂⟩ := placed₁.setLink_relinked known .parent zero here
  obtain ⟨m₃, run₃, re₃, placed₃, links₃⟩ := placed₂.setLink_relinked known .sibling zero here
  refine ⟨m₃, ?_, (re₁.trans re₂).trans re₃, placed₃, ?_⟩
  · rw [Op.run_bind_ok run₁, Op.run_bind_ok run₂, run₃]
  · rw [links₃, links₂, links₁]
    rfl

/-- Looking at a link of a known object. -/
theorem Placed.run_query_link (placed : t.Placed m count) (known : Known count obj) (l : Link) :
    (Op.query (t.link · obj l)).run m = (.ok (t.links m count obj l), m) := by
  rw [Op.run_query, placed.link_eq known]

/-- **Taking an object out.** It succeeds and is a move to nowhere. -/
theorem Forest.remove_run (forest : t.Forest m count) (known : Known count obj) :
    ∃ m', (t.remove obj).run m = (.ok (), m') ∧
      t.Relinked (Touched (t.links m count) count obj 0) m m' ∧ t.Placed m' count ∧
      Moves count (t.links m count) (t.links m' count) obj 0 := by
  have here : Touched (t.links m count) count obj 0 obj := ⟨known, .inl rfl⟩
  have container : (Op.query (t.parent · obj)).run m = _ :=
    forest.placed.run_query_link known .parent
  rw [remove, Op.run_bind_ok container]
  by_cases out : t.links m count obj .parent = 0
  · rw [if_pos out]
    exact ⟨m, rfl, .refl t _ m, forest.placed, forest.linked.stays known out⟩
  have known' := forest.linked.known_of_link known out
  have next : (Op.query (t.sibling · obj)).run m = _ := forest.placed.run_query_link known .sibling
  have first : (Op.query (t.child · (t.links m count obj .parent))).run m = _ :=
    forest.placed.run_query_link known' .child
  rw [if_neg out, Op.run_bind_ok next, Op.run_bind_ok first]
  by_cases front : t.links m count (t.links m count obj .parent) .child = obj
  · have there : Touched (t.links m count) count obj 0 (t.links m count obj .parent) :=
      ⟨known', .inr (.inr (.inl rfl))⟩
    obtain ⟨m', run, relinked, placed, linked⟩ := forest.takeOut_run known known' .child here there
    refine ⟨m', ?_, relinked, placed, ?_⟩
    · rw [if_pos front]
      exact run
    · rw [linked]
      exact forest.linked.takeOut_moves known out (.first front)
  · obtain ⟨b, found, leads⟩ := forest.found known out front
    obtain ⟨known'', next⟩ : Known count b ∧ t.links m count b .sibling = obj := by
      cases leads with
      | after known next _ => exact ⟨known, next⟩
    have there : Touched (t.links m count) count obj 0 b := ⟨known'', .inr (.inr (.inr next))⟩
    obtain ⟨m', run, relinked, placed, linked⟩ :=
      forest.takeOut_run known known'' .sibling here there
    refine ⟨m', ?_, relinked, placed, ?_⟩
    · have looked : (Op.query (t.siblingBefore · obj (t.links m count obj .parent) chainBound
          (t.links m count (t.links m count obj .parent) .child))).run m = (.ok b, m) := by
        rw [Op.run_query, found]
      rw [if_neg front]
      exact (Op.run_bind_ok looked).trans run
    · rw [linked]
      exact forest.linked.takeOut_moves known out leads

/-! ## Putting an object into another one -/

/-- **Putting an object into another one.** It succeeds and is a move there. -/
theorem Forest.insert_run (forest : t.Forest m count) (known : Known count obj)
    (known' : Known count dest) (apart : ¬ Within (t.links m count) obj dest) :
    ∃ m', (t.insert obj dest).run m = (.ok (), m') ∧
      t.Relinked (Touched (t.links m count) count obj dest) m m' ∧ t.Placed m' count ∧
      Moves count (t.links m count) (t.links m' count) obj dest := by
  have other : dest ≠ obj := by
    rintro rfl
    exact apart .refl
  have here : Touched (t.links m count) count obj dest obj := ⟨known, .inl rfl⟩
  have there : Touched (t.links m count) count obj dest dest := ⟨known', .inr (.inl rfl)⟩
  obtain ⟨m₀, run₀, re₀, placed₀, out⟩ := forest.remove_run known
  have between := out.forest forest.linked known.1 .out fun nowhere => absurd rfl nowhere
  obtain ⟨m₁, run₁, re₁, placed₁, links₁⟩ :=
    placed₀.setLink_relinked known .sibling (between.bounded dest .child known') here
  obtain ⟨m₂, run₂, re₂, placed₂, links₂⟩ :=
    placed₁.setLink_relinked known .parent known'.2 here
  obtain ⟨m₃, run₃, re₃, placed₃, links₃⟩ :=
    placed₂.setLink_relinked known' .child known.2 there
  have first : (Op.query (t.child · dest)).run m₀ = _ := placed₀.run_query_link known' .child
  have re₀' : t.Relinked (Touched (t.links m count) count obj dest) m m₀ := by
    refine re₀.mono fun o touched => ⟨touched.1, ?_⟩
    rcases touched.2 with is | is | is
    · exact .inl is
    · exact absurd is touched.1.1
    · exact .inr (.inr is)
  refine ⟨m₃, ?_, ((re₀'.trans re₁).trans re₂).trans re₃, placed₃, ?_⟩
  · rw [insert, if_neg other.symm, Op.run_bind_ok run₀,
      Op.run_bind_ok first, Op.run_bind_ok run₁, Op.run_bind_ok run₂, run₃]
  · have put : t.links m₃ count = putInto (t.links m₀ count) obj dest := by
      rw [links₃, links₂, links₁]
      rfl
    refine out.trans ?_
    rw [put]
    exact between.putInto_moves known known' other out.parent

/-! ## Many moves -/

/-- A request to move an object: out of its container, or into another one. -/
inductive TreeMove where
  | remove (obj : Word)
  | insert (obj dest : Word)
  deriving DecidableEq, Repr

namespace TreeMove

/-- The object that is moved. -/
def object : TreeMove → Word
  | remove obj => obj
  | insert obj _ => obj

/-- The new container, or 0. -/
def target : TreeMove → Word
  | remove _ => 0
  | insert _ dest => dest

/-- Carry out a move. -/
def perform (t : ObjectTable) : TreeMove → Op Memory Unit
  | remove obj => t.remove obj
  | insert obj dest => t.insert obj dest

/-- Known objects are moved, and none into itself or into what it contains. -/
def Allowed (t : ObjectTable) (m : Memory) (count : Nat) : TreeMove → Prop
  | remove obj => Known count obj
  | insert obj dest => Known count obj ∧ Known count dest ∧ ¬ Within (t.links m count) obj dest

end TreeMove

/-- The memory that a list of moves leaves. -/
def afterMoves (t : ObjectTable) : Memory → List TreeMove → Memory
  | m, [] => m
  | m, move :: rest => t.afterMoves ((move.perform t).run m).2 rest

/-- Each of a list of moves is allowed when its turn comes. -/
def AllowedAll (t : ObjectTable) (count : Nat) : Memory → List TreeMove → Prop
  | _, [] => True
  | m, move :: rest =>
      move.Allowed t m count ∧ t.AllowedAll count ((move.perform t).run m).2 rest

/-- What a move to a container, or to nowhere if that is 0, does to the table: the
object stands in front of the container's list and in no other, the order of the rest
is kept, and only the links of a few objects are written. -/
structure Moved (t : ObjectTable) (count : Nat) (m m' : Memory) (obj dest : Word) : Prop where
  parent : t.parent m' obj = .ok dest
  sibling : dest = 0 → t.sibling m' obj = .ok 0
  into : dest ≠ 0 → ∀ list, Children (t.links m count) dest list →
    Children (t.links m' count) dest (obj :: list.erase obj)
  out : ∀ container, t.parent m obj = .ok container → container ≠ 0 → container ≠ dest →
    ∀ list, Children (t.links m count) container list →
      Children (t.links m' count) container (list.erase obj)
  own : ∀ list, Children (t.links m count) obj list → Children (t.links m' count) obj list
  others : ∀ p, Known count p → p ≠ dest → t.parent m obj ≠ .ok p →
    ∀ list, Children (t.links m count) p list → Children (t.links m' count) p list
  relinked : t.Relinked (Touched (t.links m count) count obj dest) m m'

/-- A move of the forest is a move of the table. -/
theorem Forest.moved (forest : t.Forest m count) (known : Known count obj)
    (known' : dest = 0 ∨ Known count dest) (other : dest ≠ obj) (placed' : t.Placed m' count)
    (moves : Moves count (t.links m count) (t.links m' count) obj dest)
    (relinked : t.Relinked (Touched (t.links m count) count obj dest) m m') :
    t.Moved count m m' obj dest := by
  have container : t.parent m obj = .ok (t.links m count obj .parent) :=
    forest.placed.link_eq known
  have others : ∀ p, Known count p → p ≠ dest → t.parent m obj ≠ .ok p →
      ∀ list, Children (t.links m count) p list → Children (t.links m' count) p list := by
    intro p knownP away away' list children
    refine moves.others forest.linked knownP away (fun same => away' ?_) children
    rw [container, same]
  refine ⟨?_, fun nowhere => ?_, fun real list children => ?_, ?_, ?_, others, relinked⟩
  · rw [parent, placed'.link_eq known, moves.parent]
  · rw [sibling, placed'.link_eq known, moves.loose nowhere]
  · have lists := moves.lists dest list (known'.resolve_left real) children
    rwa [if_pos rfl] at lists
  · intro p found real away list children
    obtain rfl : t.links m count obj .parent = p := Except.ok.inj (container.symm.trans found)
    have lists := moves.lists _ list (forest.linked.known_of_link known real) children
    rwa [if_neg away] at lists
  · refine others obj known other.symm fun same => ?_
    have itself : t.links m count obj .parent = obj := Except.ok.inj (container.symm.trans same)
    exact (forest.linked.rooted obj known).parent_ne known.1 itself

/-- **One move.** A move that is allowed succeeds, keeps the forest and does what it
says. -/
theorem Forest.perform_run (forest : t.Forest m count) {move : TreeMove}
    (allowed : move.Allowed t m count) :
    ∃ m', (move.perform t).run m = (.ok (), m') ∧ t.Forest m' count ∧
      t.Moved count m m' move.object move.target := by
  cases move with
  | remove obj =>
      obtain ⟨m', run, relinked, placed, moves⟩ := forest.remove_run allowed
      refine ⟨m', run, ⟨placed, ?_⟩, ?_⟩
      · exact moves.forest forest.linked allowed.1 .out fun nowhere => absurd rfl nowhere
      · exact forest.moved allowed (.inl rfl) allowed.1.symm placed moves relinked
  | insert obj dest =>
      obtain ⟨known, known', apart⟩ := allowed
      have other : dest ≠ obj := by
        rintro rfl
        exact apart .refl
      obtain ⟨m', run, relinked, placed, moves⟩ := forest.insert_run known known' apart
      refine ⟨m', run, ⟨placed, ?_⟩, ?_⟩
      · exact moves.forest forest.linked known.1 (forest.linked.rooted dest known') fun _ => apart
      · exact forest.moved known (.inr known') other placed moves relinked

theorem afterMoves_append (m : Memory) (before rest : List TreeMove) :
    t.afterMoves m (before ++ rest) = t.afterMoves (t.afterMoves m before) rest := by
  induction before generalizing m with
  | nil => rfl
  | cons move before ih => exact ih _

/-- A forest is left by the first of a list of moves, and the rest are allowed in it. -/
theorem Forest.after (forest : t.Forest m count) {before rest : List TreeMove}
    (allowed : t.AllowedAll count m (before ++ rest)) :
    t.Forest (t.afterMoves m before) count ∧ t.AllowedAll count (t.afterMoves m before) rest := by
  induction before generalizing m with
  | nil => exact ⟨forest, allowed⟩
  | cons move before ih =>
      obtain ⟨m', run, forest', _⟩ := forest.perform_run allowed.1
      have allowed' := allowed.2
      rw [afterMoves]
      rw [run] at allowed' ⊢
      exact ih forest' allowed'

/-- **Moves keep forests.** In a table that holds a forest, each of a list of allowed
moves succeeds, leaves a forest and does exactly what it says. -/
theorem forest_kept_by_moves (forest : t.Forest m count) {moves : List TreeMove}
    (allowed : t.AllowedAll count m moves) (before : List TreeMove) (move : TreeMove)
    (after : List TreeMove) (parts : moves = before ++ move :: after) :
    t.Forest (t.afterMoves m before) count ∧
    (move.perform t).run (t.afterMoves m before) = (.ok (), t.afterMoves m (before ++ [move])) ∧
    t.Forest (t.afterMoves m (before ++ [move])) count ∧
    t.Moved count (t.afterMoves m before) (t.afterMoves m (before ++ [move])) move.object
      move.target := by
  rw [parts] at allowed
  obtain ⟨forest', allowed'⟩ := forest.after allowed
  obtain ⟨m', run, forest'', moved⟩ := forest'.perform_run allowed'.1
  have left : t.afterMoves m (before ++ [move]) = m' := by
    rw [afterMoves_append, afterMoves, run]
    rfl
  rw [left]
  exact ⟨forest', run, forest'', moved⟩

/-- A room with two things in it, in version 3. -/
def roomTable : ObjectTable :=
  { version := 3, addr := 64 }

def roomBytes : Array Byte :=
  Array.replicate 132 0 ++ #[2] ++ Array.replicate 6 0 ++ #[1, 3] ++ Array.replicate 7 0 ++ #[1] ++
    Array.replicate 11 0

def roomStory : Memory :=
  { bytes := roomBytes, pristine := roomBytes, version := 3, staticBase := 160, highBase := 160 }

theorem known_three {obj : Word} (known : Known 3 obj) : obj = 1 ∨ obj = 2 ∨ obj = 3 := by
  have pos := known.pos
  have bound := known.2
  have number : obj.toNat = 1 ∨ obj.toNat = 2 ∨ obj.toNat = 3 := by omega
  exact number.imp UInt16.toNat_inj.mp (Or.imp UInt16.toNat_inj.mp UInt16.toNat_inj.mp)

/-- The room is the first object, and contains the second and the third. -/
def roomLinks : Links :=
  Links.set (Links.set (Links.set (Links.set (fun _ _ => 0) 1 .child 2) 2 .parent 1) 2 .sibling 3)
    3 .parent 1

theorem room_links : roomTable.links roomStory 3 = roomLinks := by
  funext o l
  by_cases known : Known 3 o
  · rcases known_three known with rfl | rfl | rfl <;> cases l <;> decide +kernel
  · have other : ∀ n, Known 3 n → o ≠ n := fun n is same => known (same ▸ is)
    rw [links, if_neg known, roomLinks]
    simp [Links.set, other 1 (by decide), other 2 (by decide), other 3 (by decide)]

theorem room_children :
    Children roomLinks 1 [2, 3] ∧ Children roomLinks 2 [] ∧ Children roomLinks 3 [] :=
  ⟨.cons (by decide) (.cons (by decide) .nil), .nil, .nil⟩

theorem room_forest : roomTable.Forest roomStory 3 := by
  have placed : roomTable.Placed roomStory 3 := ⟨by decide, by decide, by decide +kernel⟩
  obtain ⟨first, second, third⟩ := room_children
  have lists : ∀ p list, Known 3 p → Children roomLinks p list →
      p = 1 ∧ list = [2, 3] ∨ list = [] := by
    intro p list known children
    rcases known_three known with rfl | rfl | rfl
    · exact .inl ⟨rfl, children.unique first⟩
    · exact .inr (children.unique second)
    · exact .inr (children.unique third)
  have top : Links.Rooted roomLinks 1 := .step .out
  refine ⟨placed, ?_⟩
  rw [room_links]
  refine ⟨?_, ?_, ?_, ?_, ?_, ?_⟩
  · intro obj l known
    rcases known_three known with rfl | rfl | rfl <;> cases l <;> decide
  · intro p known
    rcases known_three known with rfl | rfl | rfl
    · exact ⟨_, first⟩
    · exact ⟨_, second⟩
    · exact ⟨_, third⟩
  · intro p list known children obj member
    rcases lists p list known children with ⟨rfl, rfl⟩ | rfl
    · simp only [List.mem_cons, List.not_mem_nil, or_false] at member
      rcases member with rfl | rfl <;> decide
    · cases member
  · intro obj list known inside children
    rcases known_three known with rfl | rfl | rfl
    · exact absurd rfl inside
    · rw [children.unique first]
      decide
    · rw [children.unique first]
      decide
  · intro obj known out
    rcases known_three known with rfl | rfl | rfl
    · rfl
    · exact absurd out (by decide)
    · rfl
  · intro obj known
    rcases known_three known with rfl | rfl | rfl
    · exact top
    · exact .step top
    · exact .step top

/-- The second thing is put into the first, and then the first is taken out of the
room. -/
theorem room_moves :
    roomTable.Forest roomStory 3 ∧
    roomTable.AllowedAll 3 roomStory [.insert 3 2, .remove 2] ∧
    ∃ m m', (roomTable.insert 3 2).run roomStory = (.ok (), m) ∧
      Children (roomTable.links m 3) 1 [2] ∧ Children (roomTable.links m 3) 2 [3] ∧
      (roomTable.remove 2).run m = (.ok (), m') ∧ roomTable.Forest m' 3 ∧
      Children (roomTable.links m' 3) 1 [] ∧ Children (roomTable.links m' 3) 2 [3] := by
  have around : ∀ o, Within roomLinks o 2 → o = 2 ∨ o = 1 ∨ o = 0 := by
    intro o within
    induction within with
    | refl => exact .inl rfl
    | tail _ above ih =>
        rw [above]
        rcases ih with rfl | rfl | rfl <;> decide
  have known : Known 3 2 := by decide
  have allowed : roomTable.AllowedAll 3 roomStory [.insert 3 2, .remove 2] := by
    refine ⟨⟨by decide, known, ?_⟩, known, trivial⟩
    rw [room_links]
    exact fun within => absurd (around 3 within) (by decide)
  obtain ⟨first, second, _⟩ := room_children
  have inside : roomTable.parent roomStory 3 = .ok 1 := by
    rw [parent, room_forest.placed.link_eq (by decide), room_links]
    rfl
  rw [← room_links] at first second
  obtain ⟨_, run, _, moved⟩ := forest_kept_by_moves room_forest allowed [] _ _ rfl
  obtain ⟨between, run', after, moved'⟩ := forest_kept_by_moves room_forest allowed [_] _ _ rfl
  have one := moved.out 1 inside (by decide) (by decide) _ first
  have two := moved.into (by decide) _ second
  have inside' : roomTable.parent (roomTable.afterMoves roomStory [.insert 3 2]) 2 = .ok 1 := by
    rw [parent, between.placed.link_eq known]
    exact congrArg Except.ok (between.linked.held 1 _ (by decide) one 2 (by decide))
  have one' := moved'.out 1 inside' (by decide) (by decide) _ one
  exact ⟨room_forest, allowed, _, _, run, one, two, run', after, one', moved'.own _ two⟩

end ZMachine.ObjectTable
