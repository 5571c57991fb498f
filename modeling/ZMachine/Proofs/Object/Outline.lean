import ZMachine.Proofs.Object.Forest
import ZMachine.Proofs.Object.Walk

/-!
# The outline of the object tree

An outline of a list of objects has a line for each of them, in order, and under the line of
an object the outline of its children, one level further in (`Outline`). Where the objects
form a forest that is not too deep, the walk over the tree gives the outline of the objects
that stand in no container (`roots_outline`): the links of a counted object can be read
(`link_counted`), and a level is used up for every container above an object, so the walk
has a level left for each.

An object stands in an outline as often as in the list, and once more for every line of its
parent (`Outline.count_eq`). So every object of a forest has exactly one line, as following
parents shows (`Outline.count_line`).
-/

set_option autoImplicit false

namespace ZMachine

namespace Links

variable {f : Links} {count limit depth : Nat} {name : Word → String}

/-! ## Depth -/

/-- An object stands so many levels below an object that stands in no container. -/
inductive AtDepth (f : Links) : Nat → Word → Prop where
  | root {obj : Word} (out : f obj .parent = 0) : AtDepth f 0 obj
  | inside {depth : Nat} {obj : Word} (some : f obj .parent ≠ 0)
      (above : AtDepth f depth (f obj .parent)) : AtDepth f (depth + 1) obj

/-- An object stands at one depth only. -/
theorem AtDepth.unique {depth' : Nat} {obj : Word} (here : AtDepth f depth obj)
    (there : AtDepth f depth' obj) : depth = depth' := by
  induction here generalizing depth' with
  | root out =>
      cases there with
      | root _ => rfl
      | inside some _ => exact absurd out some
  | inside some _ ih =>
      cases there with
      | root out => exact absurd out some
      | inside _ above => rw [ih above]

/-- The first `count` objects form a forest in which no object stands deeper than `limit`.
Those in no container may be linked to siblings. -/
structure ForestWithin (f : Links) (count limit : Nat) : Prop where
  bounded : ∀ obj l, Known count obj → (f obj l).toNat ≤ count
  ends : ∀ p, Known count p → ∃ list, Children f p list
  held : ∀ p list, Known count p → Children f p list → ∀ obj ∈ list, f obj .parent = p
  listed : ∀ obj list, Known count obj → f obj .parent ≠ 0 → Children f (f obj .parent) list →
    list.count obj = 1
  shallow : ∀ obj, Known count obj → ∃ depth ≤ limit, AtDepth f depth obj

theorem Forest.within (forest : f.Forest count)
    (shallow : ∀ obj, Known count obj → ∃ depth ≤ limit, AtDepth f depth obj) :
    f.ForestWithin count limit :=
  ⟨forest.bounded, forest.ends, forest.held, forest.listed, shallow⟩

/-- The objects that stand in no container, in the order of their numbers. -/
def roots (f : Links) (count : Nat) : List Word :=
  ((List.range' 1 count).map UInt16.ofNat).filter fun obj => f obj .parent = 0

/-! ## Outlines -/

/-- The lines of a list of objects at some depth: under the line of each of them come the
lines of its children, one level deeper. -/
inductive Outline (f : Links) (name : Word → String) : Nat → List Word → List TreeLine → Prop where
  | nil {depth : Nat} : Outline f name depth [] []
  | cons {depth : Nat} {obj : Word} {list rest : List Word} {below behind : List TreeLine}
      (children : Children f obj list) (inner : Outline f name (depth + 1) list below)
      (after : Outline f name depth rest behind) :
      Outline f name depth (obj :: rest) (⟨depth, name obj, obj⟩ :: below ++ behind)

namespace Outline

variable {objs objs' : List Word} {lines lines' : List TreeLine}

theorem append (front : Outline f name depth objs lines)
    (back : Outline f name depth objs' lines') :
    Outline f name depth (objs ++ objs') (lines ++ lines') := by
  induction front with
  | nil => exact back
  | cons children inner _ _ ih =>
      rw [List.append_assoc]
      exact .cons children inner (ih back)

/-- A list of objects has one outline only. -/
theorem unique (outline : Outline f name depth objs lines)
    (outline' : Outline f name depth objs lines') : lines = lines' := by
  induction outline generalizing lines' with
  | nil =>
      cases outline'
      rfl
  | cons children _ _ inner after =>
      cases outline' with
      | cons children' inner' after' =>
          cases children.unique children'
          rw [inner inner', after after']

/-- Every line is that of a known object, by its name. -/
theorem line_known (outline : Outline f name depth objs lines)
    (forest : f.ForestWithin count limit) (known : ∀ obj ∈ objs, Known count obj) :
    ∀ l ∈ lines, Known count l.object ∧ l.name = name l.object := by
  induction outline with
  | nil => exact fun _ member => absurd member List.not_mem_nil
  | @cons depth obj list rest below behind children _ _ inner after =>
      have here : Known count obj := known obj List.mem_cons_self
      have inside : ∀ o ∈ list, Known count o := fun o =>
        children.known_of_bounded forest.bounded (forest.bounded obj .child here)
      intro l member
      rcases List.mem_append.mp member with member | member
      · rcases List.mem_cons.mp member with rfl | member
        · exact ⟨here, rfl⟩
        · exact inner inside l member
      · exact after (fun o among => known o (List.mem_cons_of_mem obj among)) l member

/-- An object has a line for each time that it stands in the list, and one for each line of
its parent. -/
theorem count_eq (outline : Outline f name depth objs lines)
    (forest : f.ForestWithin count limit) (known : ∀ obj ∈ objs, Known count obj) {o : Word}
    (known' : Known count o) :
    (lines.map TreeLine.object).count o =
      objs.count o + (lines.map TreeLine.object).count (f o .parent) := by
  induction outline with
  | nil => rfl
  | @cons depth obj list rest below behind children _ _ inner after =>
      have here : Known count obj := known obj List.mem_cons_self
      have inner := inner fun o =>
        children.known_of_bounded forest.bounded (forest.bounded obj .child here)
      have after := after fun o among => known o (List.mem_cons_of_mem obj among)
      -- A child stands once among the children of its parent, and nowhere else.
      have once : list.count o = if obj = f o .parent then 1 else 0 := by
        split
        · rename_i same
          subst same
          exact forest.listed o list known' here.1 children
        · rename_i other
          refine List.count_eq_zero.mpr fun member => other ?_
          exact (forest.held obj list here children o member).symm
      simp only [List.map_cons, List.map_append, List.cons_append, List.count_cons,
        List.count_append, inner, after, once, beq_iff_eq]
      omega

end Outline

theorem toNat_of_mem_range (numbered : count ≤ 65535) {n : Nat} (among : n ∈ List.range' 1 count) :
    (UInt16.ofNat n).toNat = n := by
  rw [List.mem_range'_1] at among
  exact UInt16.toNat_ofNat_of_lt' (by rw [UInt16.size]; omega)

/-- The number of a listed object is that of a known one. -/
theorem known_of_mem_range (numbered : count ≤ 65535) {n : Nat} (among : n ∈ List.range' 1 count) :
    Known count (UInt16.ofNat n) := by
  have same := toNat_of_mem_range numbered among
  rw [List.mem_range'_1] at among
  refine ⟨fun zero => ?_, by omega⟩
  rw [zero, UInt16.toNat_zero] at same
  omega

/-- The roots are known objects. -/
theorem known_of_mem_roots (numbered : count ≤ 65535) {obj : Word} (member : obj ∈ f.roots count) :
    Known count obj := by
  obtain ⟨n, among, rfl⟩ := List.mem_map.mp (List.mem_filter.mp member).1
  exact known_of_mem_range numbered among

/-- A known object stands once among the roots if it stands in no container. -/
theorem count_roots (numbered : count ≤ 65535) {obj : Word} (known : Known count obj) :
    (f.roots count).count obj = if f obj .parent = 0 then 1 else 0 := by
  split
  · rename_i out
    have nodup : ((List.range' 1 count).map UInt16.ofNat).Nodup := by
      refine List.Nodup.map_on (fun a among b among' same => ?_) List.nodup_range'
      have same := congrArg UInt16.toNat same
      rwa [toNat_of_mem_range numbered among, toNat_of_mem_range numbered among'] at same
    have member : obj ∈ (List.range' 1 count).map UInt16.ofNat := by
      refine List.mem_map.mpr ⟨obj.toNat, List.mem_range'_1.mpr ?_, UInt16.ofNat_toNat⟩
      exact ⟨known.pos, by have := known.2; omega⟩
    rw [roots, List.count_filter (by simpa using out), List.count_eq_one_of_mem nodup member]
  · rename_i inside
    refine List.count_eq_zero.mpr fun member => inside ?_
    simpa using (List.mem_filter.mp member).2

/-- **One line each.** In the outline of the roots of a forest every object has exactly one
line. -/
theorem Outline.count_line {lines : List TreeLine} (outline : Outline f name 0 (f.roots count) lines)
    (forest : f.ForestWithin count limit) (numbered : count ≤ 65535) {o : Word}
    (known : Known count o) : (lines.map TreeLine.object).count o = 1 := by
  have roots : ∀ obj ∈ f.roots count, Known count obj := fun _ => known_of_mem_roots numbered
  have lineOf : ∀ {o}, Known count o → (lines.map TreeLine.object).count o =
      (if f o .parent = 0 then 1 else 0) + (lines.map TreeLine.object).count (f o .parent) := by
    intro o known
    rw [outline.count_eq forest roots known, count_roots numbered known]
  obtain ⟨depth, -, placed⟩ := forest.shallow o known
  induction placed with
  | root out =>
      have none : (lines.map TreeLine.object).count 0 = 0 := by
        refine List.count_eq_zero.mpr fun member => ?_
        obtain ⟨l, among, zero⟩ := List.mem_map.mp member
        exact (outline.line_known forest roots l among).1.1 zero
      rw [lineOf known, if_pos out, out, none]
  | @inside _ o some _ ih =>
      rw [lineOf known, if_neg some, ih ⟨some, forest.bounded o .parent known⟩]

end Links

namespace ObjectTable

open Links

variable {t : ObjectTable} {m : Memory} {c : Codec} {count depth levels : Nat} {obj first : Word}
  {list : List Word} {f : Links} {name : Word → String}

/-! ## Counted objects -/

/-- The entry of every object that is counted lies in the image. -/
theorem countFrom_bounds {room obj : Nat} {lowest : Option Nat} (pos : 0 < obj) :
    t.countFrom m room obj lowest ≤ obj - 1 + room ∧
      ∀ n, obj ≤ n → n ≤ t.countFrom m room obj lowest →
        t.entriesAddr + n * t.entrySize ≤ m.size := by
  induction room generalizing obj lowest with
  | zero =>
      rw [countFrom]
      exact ⟨Nat.le_refl _, fun n _ _ => by omega⟩
  | succ room ih =>
      have entry : t.entriesAddr + (obj - 1) * t.entrySize + t.entrySize =
          t.entriesAddr + obj * t.entrySize := by
        obtain ⟨before, rfl⟩ := Nat.exists_eq_succ_of_ne_zero (Nat.pos_iff_ne_zero.mp pos)
        rw [Nat.succ_sub_one, Nat.succ_mul, Nat.add_assoc]
      have stops : obj - 1 ≤ obj - 1 + (room + 1) ∧ ∀ n, obj ≤ n → n ≤ obj - 1 →
          t.entriesAddr + n * t.entrySize ≤ m.size :=
        ⟨Nat.le_add_right _ _, fun n _ _ => by omega⟩
      rw [countFrom, entry]
      split
      · exact stops
      · rename_i inside
        split
        · split
          · have further := fun lowest => @ih (obj + 1) lowest (Nat.succ_pos obj)
            refine ⟨Nat.le_trans (further _).1 (by omega), fun n above below => ?_⟩
            rcases Nat.eq_or_lt_of_le above with rfl | above
            · simp only [Bool.or_eq_true, decide_eq_true_eq, not_or, Nat.not_lt] at inside
              exact inside.2
            · exact (further _).2 n above below
          · exact stops
        · exact stops

/-- The counted objects can be numbered by links. -/
theorem objectCount_le (t : ObjectTable) (m : Memory) :
    t.objectCount m ≤ if t.early then 255 else 65535 := by
  have bound : t.objectCount m ≤ 1 - 1 + if t.early then 255 else 65535 :=
    (countFrom_bounds Nat.one_pos).1
  rwa [Nat.sub_self, Nat.zero_add] at bound

/-- The counted objects stand in the image as they would in one that is all dynamic. -/
theorem placed_counted (some : 0 < t.objectCount m) :
    t.Placed { m with staticBase := m.size } (t.objectCount m) :=
  ⟨t.objectCount_le m, (countFrom_bounds Nat.one_pos).2 _ some (Nat.le_refl _), Nat.le_refl _⟩

/-- The links of a counted object can be read. -/
theorem link_counted (known : Known (t.objectCount m) obj) (l : Link) :
    t.link m obj l = .ok (t.links m (t.objectCount m) obj l) :=
  (placed_counted (Nat.lt_of_lt_of_le known.pos known.2)).link_eq known

/-! ## The walk over a forest -/

/-- The links and the names of the first `count` objects can be read. -/
structure Legible (t : ObjectTable) (m : Memory) (c : Codec) (count : Nat) (name : Word → String) :
    Prop where
  link : ∀ {obj}, Known count obj → ∀ l, t.link m obj l = .ok (t.links m count obj l)
  named : ∀ {obj}, Known count obj → t.shortName m c obj = .ok (name obj)

/-- Along a chain the walk gives one outline after another. -/
theorem visitChain_outline {visit : Word → Walk (List TreeLine)} (chain : Chain f first list)
    (linked : ∀ o ∈ list, t.sibling m o = .ok (f o .sibling))
    (each : ∀ o ∈ list, ∃ lines, visit o = pure lines ∧ Outline f name depth [o] lines) :
    ∃ lines, Outline f name depth list lines ∧
      ∀ shown, t.visitChain m visit first shown = some (.ok (shown ++ lines)) := by
  induction chain with
  | nil => exact ⟨[], .nil, fun shown => by rw [visitChain_zero, List.append_nil]⟩
  | @cons o rest real _ ih =>
      obtain ⟨lines, visited, outline⟩ := each o List.mem_cons_self
      obtain ⟨behind, outline', given⟩ :=
        ih (fun o' among => linked o' (List.mem_cons_of_mem o among))
          fun o' among => each o' (List.mem_cons_of_mem o among)
      refine ⟨lines ++ behind, outline.append outline', fun shown => ?_⟩
      rw [visitChain_next real visited (linked o List.mem_cons_self), given, List.append_assoc]

/-- Below an object the walk gives its outline, if there is a level left for every level that
the object may have below it. -/
theorem Legible.subtree_outline (legible : t.Legible m c count name)
    (forest : (t.links m count).ForestWithin count deepest) (known : Known count obj)
    (placed : AtDepth (t.links m count) depth obj) (left : depth + levels = deepest + 1) :
    ∃ lines, t.subtree m c levels obj = pure lines ∧
      Outline (t.links m count) name depth [obj] lines := by
  induction levels generalizing obj depth with
  | zero =>
      obtain ⟨depth', bound, placed'⟩ := forest.shallow obj known
      have := placed.unique placed'
      omega
  | succ levels ih =>
      obtain ⟨list, children⟩ := forest.ends obj known
      have inside : ∀ o ∈ list, Known count o := fun o =>
        children.known_of_bounded forest.bounded (forest.bounded obj .child known)
      have each : ∀ o ∈ list, ∃ lines, t.subtree m c levels o = pure lines ∧
          Outline (t.links m count) name (depth + 1) [o] lines := by
        intro o among
        have parent := forest.held obj list known children o among
        have deeper : AtDepth (t.links m count) (depth + 1) o := by
          refine .inside ?_ ?_ <;> rw [parent]
          · exact known.1
          · exact placed
        exact ih (inside o among) deeper (by omega)
      obtain ⟨below, outline, given⟩ :=
        visitChain_outline children (fun o among => legible.link (inside o among) .sibling) each
      have found : t.child m obj = .ok (t.links m count obj .child) := legible.link known .child
      have level : deepest - levels = depth := by omega
      refine ⟨⟨depth, name obj, obj⟩ :: below ++ [], ?_, .cons children outline .nil⟩
      rw [subtree, Walk.look_bind (legible.named known), Walk.look_bind found, given, level,
        List.append_nil]
      rfl

/-- The walk over a list of objects gives the outline of those in no container. -/
theorem Legible.roots_outline (legible : t.Legible m c count name)
    (forest : (t.links m count).ForestWithin count deepest) {numbers : List Nat}
    (known : ∀ n ∈ numbers, Known count (UInt16.ofNat n)) :
    ∃ lines, t.roots m c numbers = pure lines ∧ Outline (t.links m count) name 0
      ((numbers.map UInt16.ofNat).filter fun obj => t.links m count obj .parent = 0) lines := by
  induction numbers with
  | nil => exact ⟨[], rfl, .nil⟩
  | cons n rest ih =>
      obtain ⟨behind, given, outline⟩ := ih fun k among => known k (List.mem_cons_of_mem n among)
      have here := known n List.mem_cons_self
      have parent : t.parent m (UInt16.ofNat n) =
          .ok (t.links m count (UInt16.ofNat n) .parent) := legible.link here .parent
      rw [roots_cons, root, Walk.look_bind parent, List.map_cons]
      by_cases out : t.links m count (UInt16.ofNat n) .parent = 0
      · obtain ⟨lines, shown, front⟩ :=
          legible.subtree_outline forest here (.root out) (Nat.zero_add _)
        rw [if_pos out, shown, pure_bind, given, pure_bind,
          List.filter_cons_of_pos (by simpa using out)]
        exact ⟨lines ++ behind, rfl, front.append outline⟩
      · rw [if_neg out, pure_bind, given, pure_bind, List.filter_cons_of_neg (by simpa using out)]
        exact ⟨behind, rfl, outline⟩

/-- **The tree in outline.** Where the counted objects form a forest of depth at most 64 and
have names, the walk over the tree ends, and what it gives is the outline of the roots in
ascending order. Every counted object has exactly one line, with its name and number, indented
by two blanks a level. -/
theorem tree_outlines (forest : (t.links m (t.objectCount m)).ForestWithin (t.objectCount m) 64)
    (named : ∀ obj, Known (t.objectCount m) obj → t.shortName m c obj = .ok (name obj)) :
    ∃ lines, (t.walk m c).run = some (.ok lines) ∧ t.tree m c = .ok lines ∧
      Outline (t.links m (t.objectCount m)) name 0
        ((t.links m (t.objectCount m)).roots (t.objectCount m)) lines ∧
      (∀ obj, (lines.map TreeLine.object).count obj =
        if Known (t.objectCount m) obj then 1 else 0) ∧
      renderTree lines = String.join (lines.map fun l =>
        String.ofList (List.replicate (2 * l.depth) ' ') ++
          (name l.object ++ " (" ++ decimal l.object.toNat ++ ")\n")) := by
  have numbered : t.objectCount m ≤ 65535 := by
    have bound := t.objectCount_le m
    split at bound <;> omega
  have legible : t.Legible m c (t.objectCount m) name :=
    ⟨fun known l => link_counted known l, fun {obj} known => named obj known⟩
  obtain ⟨lines, given, outline⟩ :=
    legible.roots_outline forest fun n among => known_of_mem_range numbered among
  have answer : (t.walk m c).run = some (.ok lines) := by
    rw [walk, given]
    rfl
  have lineKnown := outline.line_known forest fun _ => known_of_mem_roots numbered
  refine ⟨lines, answer, ?_, outline, fun obj => ?_, ?_⟩
  · rw [tree, answer]
    rfl
  · split
    · exact outline.count_line forest numbered ‹_›
    · rename_i unknown
      refine List.count_eq_zero.mpr fun member => unknown ?_
      obtain ⟨l, among, rfl⟩ := List.mem_map.mp member
      exact (lineKnown l among).1
  · rw [renderTree]
    refine congrArg String.join (List.map_congr_left fun l among => ?_)
    rw [TreeLine.render, (lineKnown l among).2]
    rfl

/-! ## A house -/

/-- Four objects in version 3: the second, which has a name, contains the first and the
fourth, and the third stands beside it. -/
def houseTable : ObjectTable :=
  { version := 3, addr := 64 }

def houseBytes : List Byte :=
  List.replicate 126 0 ++
    [0, 0, 0, 0, 2, 4, 0, 0, 166] ++ [0, 0, 0, 0, 0, 0, 1, 0, 162] ++
    [0, 0, 0, 0, 0, 0, 0, 0, 166] ++ [0, 0, 0, 0, 2, 0, 0, 0, 166] ++ [1, 0x98, 0xA5, 0, 0, 0]

def houseStory : Memory :=
  { bytes := houseBytes.toArray, pristine := houseBytes.toArray, version := 3, staticBase := 162,
    highBase := 162 }

def houseCodec : Codec :=
  { version := 3, abbreviations := 0, alphabetTable := 0, unicodeTable := 0 }

def houseLinks : Links :=
  Links.set (Links.set (Links.set (Links.set (fun _ _ => 0) 1 .parent 2) 1 .sibling 4) 2 .child 1)
    4 .parent 2

def houseName (obj : Word) : String :=
  if obj = 2 then "a" else ""

theorem known_four {obj : Word} (known : Known 4 obj) :
    obj = 1 ∨ obj = 2 ∨ obj = 3 ∨ obj = 4 := by
  have pos := known.pos
  have bound := known.2
  have number : obj.toNat = 1 ∨ obj.toNat = 2 ∨ obj.toNat = 3 ∨ obj.toNat = 4 := by omega
  exact number.imp UInt16.toNat_inj.mp
    (Or.imp UInt16.toNat_inj.mp (Or.imp UInt16.toNat_inj.mp UInt16.toNat_inj.mp))

theorem house_links : houseTable.links houseStory 4 = houseLinks := by
  funext o l
  by_cases known : Known 4 o
  · rcases known_four known with rfl | rfl | rfl | rfl <;> cases l <;> decide +kernel
  · have other : ∀ n, Known 4 n → o ≠ n := fun n is same => known (same ▸ is)
    rw [links, if_neg known, houseLinks]
    simp [Links.set, other 1 (by decide), other 2 (by decide), other 4 (by decide)]

theorem house_children : Children houseLinks 2 [1, 4] :=
  .cons (by decide) (.cons (by decide) .nil)

theorem house_childless {p : Word} (known : Known 4 p) (other : p ≠ 2) :
    Children houseLinks p [] := by
  rcases known_four known with rfl | rfl | rfl | rfl
  · exact .nil
  · exact absurd rfl other
  · exact .nil
  · exact .nil

theorem house_forest : houseLinks.ForestWithin 4 64 := by
  have inside : ∀ {obj}, houseLinks obj .parent = 2 → AtDepth houseLinks 1 obj := fun parent =>
    .inside (parent ▸ by decide) (parent ▸ .root rfl)
  refine ⟨?_, fun p known => ?_, fun p list known children obj member => ?_,
    fun obj list known some children => ?_, fun obj known => ?_⟩
  · intro obj l known
    rcases known_four known with rfl | rfl | rfl | rfl <;> cases l <;> decide
  · by_cases here : p = 2
    · exact ⟨_, here ▸ house_children⟩
    · exact ⟨_, house_childless known here⟩
  · by_cases here : p = 2
    · subst here
      rw [children.unique house_children] at member
      simp only [List.mem_cons, List.not_mem_nil, or_false] at member
      rcases member with rfl | rfl <;> rfl
    · rw [children.unique (house_childless known here)] at member
      cases member
  · rcases known_four known with rfl | rfl | rfl | rfl
    · rw [children.unique house_children]
      decide
    · exact absurd rfl some
    · exact absurd rfl some
    · rw [children.unique house_children]
      decide
  · rcases known_four known with rfl | rfl | rfl | rfl
    · exact ⟨1, by decide, inside rfl⟩
    · exact ⟨0, by decide, .root rfl⟩
    · exact ⟨0, by decide, .root rfl⟩
    · exact ⟨1, by decide, inside rfl⟩

/-- The house, its two things and what stands beside it are listed in this order. -/
theorem house_listed :
    houseTable.objectCount houseStory = 4 ∧
      (houseTable.links houseStory 4).ForestWithin 4 64 ∧
      (∀ obj, Known 4 obj → houseTable.shortName houseStory houseCodec obj = .ok (houseName obj)) ∧
      houseTable.tree houseStory houseCodec =
        .ok [⟨0, "a", 2⟩, ⟨1, "", 1⟩, ⟨1, "", 4⟩, ⟨0, "", 3⟩] := by
  have counted : houseTable.objectCount houseStory = 4 := by decide +kernel
  have forest : (houseTable.links houseStory 4).ForestWithin 4 64 := house_links ▸ house_forest
  have named : ∀ obj, Known 4 obj →
      houseTable.shortName houseStory houseCodec obj = .ok (houseName obj) := by
    intro obj known
    rcases known_four known with rfl | rfl | rfl | rfl <;> decide +kernel
  obtain ⟨lines, _, given, outline, _⟩ :=
    tree_outlines (t := houseTable) (m := houseStory) (c := houseCodec)
      (by rw [counted]; exact forest) (by rw [counted]; exact named)
  rw [counted, house_links] at outline
  have expected : Outline houseLinks houseName 0 (houseLinks.roots 4)
      [⟨0, "a", 2⟩, ⟨1, "", 1⟩, ⟨1, "", 4⟩, ⟨0, "", 3⟩] :=
    .cons house_children
      (.cons (house_childless (by decide) (by decide)) .nil
        (.cons (house_childless (by decide) (by decide)) .nil .nil))
      (.cons (house_childless (by decide) (by decide)) .nil .nil)
  exact ⟨counted, forest, named, outline.unique expected ▸ given⟩

end ObjectTable

end ZMachine
