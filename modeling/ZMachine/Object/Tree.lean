import ZMachine.Object.Property

/-!
# The object tree

Objects are moved by taking them out of their container's list of children and
putting them in front of another's. The whole tree is shown by visiting every
object without a container and, below each, its children in order.

A chain of siblings that is longer than there are object numbers goes round in
a circle. Moving an object notices that. Showing the tree does not: the walk then
goes round without end and has no answer.
-/

set_option autoImplicit false

namespace ZMachine

/-- One object as it stands in its table. -/
structure ObjectEntry where
  id : Word
  attributes : List Nat
  parent : Word
  sibling : Word
  child : Word
  propertiesAddr : Nat
  name : String
  properties : List PropertyBlock
  deriving DecidableEq, Repr, Inhabited

/-- A line of the tree: an object at its depth. -/
structure TreeLine where
  depth : Nat
  name : String
  object : Word
  deriving DecidableEq, Repr, Inhabited

namespace ObjectTable

/-- More links than a chain of different objects can have. -/
def chainBound : Nat := 0x10000

/-! ## Moving objects -/

/-- The object whose next sibling is `obj`, from `current` on. -/
def siblingBefore (t : ObjectTable) (m : Memory) (obj container : Word) :
    (fuel : Nat) → (current : Word) → Except Fault Word
  | 0, _ => .error (.siblingLoop container.toNat)
  | fuel + 1, current =>
      if current = 0 then .error (.notAmongChildren obj.toNat container.toNat)
      else do
        let next ← t.sibling m current
        if next = obj then return current
        siblingBefore t m obj container fuel next

/-- Take an object out of its container. -/
def remove (t : ObjectTable) (obj : Word) : Op Memory Unit := do
  let container ← Op.query (t.parent · obj)
  if container = 0 then return ()
  let next ← Op.query (t.sibling · obj)
  let first ← Op.query (t.child · container)
  if first = obj then t.setLink container .child next
  else
    let before ← Op.query (t.siblingBefore · obj container chainBound first)
    t.setLink before .sibling next
  t.setLink obj .parent 0
  t.setLink obj .sibling 0

/-- Make an object the first child of another; its own children stay with it. -/
def insert (t : ObjectTable) (obj dest : Word) : Op Memory Unit := do
  if obj = dest then Op.fail (.insertIntoItself obj.toNat)
  t.remove obj
  let first ← Op.query (t.child · dest)
  t.setLink obj .sibling first
  t.setLink obj .parent dest
  t.setLink dest .child obj

/-! ## Looking at objects -/

/-- Everything the table holds about an object. -/
def entry (t : ObjectTable) (m : Memory) (c : Codec) (obj : Word) :
    Except Fault ObjectEntry := do
  let attributes ← t.attributes m obj
  let parent ← t.parent m obj
  let sibling ← t.sibling m obj
  let child ← t.child m obj
  let propertiesAddr ← t.propertiesAddr m obj
  let name ← t.shortName m c obj
  let properties ← t.properties m obj
  return { id := obj, attributes, parent, sibling, child, propertiesAddr, name, properties }

/-- Count the objects from number `obj` on, at most `room` of them. Objects end
where the image or the lowest property table found so far begins, or at an
entry whose property table does not stand behind it. -/
def countFrom (t : ObjectTable) (m : Memory) :
    (room obj : Nat) → (lowest : Option Nat) → Nat
  | 0, obj, _ => obj - 1
  | room + 1, obj, lowest =>
      let addr := t.entriesAddr + (obj - 1) * t.entrySize
      if lowest.any (· < addr + t.entrySize) || m.size < addr + t.entrySize then obj - 1
      else
        match t.propertiesAddr m (UInt16.ofNat obj) with
        | .ok table =>
            if addr < table then
              countFrom t m room (obj + 1) (some ((lowest.map (min · table)).getD table))
            else obj - 1
        | .error _ => obj - 1

/-- The number of objects in the table. -/
def objectCount (t : ObjectTable) (m : Memory) : Nat :=
  t.countFrom m (if t.early then 255 else 0xFFFF) 1 none

/-! ## Showing the tree -/

/-- The deepest level that is shown. -/
def deepest : Nat := 64

/-- A computation that may go on without end. It then has no answer, neither a
value nor a fault. -/
abbrev Walk (α : Type) := ExceptT Fault Option α

/-- Visit the objects of a sibling chain in order and put what they give behind
what has been shown (`s`). Only the end of the chain, or a fault, ends it. -/
def visitChain {α : Type} (t : ObjectTable) (m : Memory) (visit : Word → Walk (List α))
    (obj : Word) (s : List α) : Option (Except Fault (List α)) :=
  if obj = 0 then some (.ok s)
  else do
    match ← (visit obj).run with
    | .error e => some (.error e)
    | .ok lines =>
        let onward := visitChain t m visit (s := s ++ lines)
        match t.sibling m obj with
        | .error e => some (.error e)
        | .ok next => onward next
partial_fixpoint

/-- The lines of an object and all that it contains, with `levels` levels left. -/
def subtree (t : ObjectTable) (m : Memory) (c : Codec) :
    (levels : Nat) → Word → Walk (List TreeLine)
  | 0, obj => throw (.treeTooDeep obj.toNat)
  | levels + 1, obj => do
      let name ← t.shortName m c obj
      let first ← t.child m obj
      .mk (t.visitChain m (subtree t m c levels) first [⟨deepest - levels, name, obj⟩])

/-- The lines of the objects of a list that stand in no container. -/
def roots (t : ObjectTable) (m : Memory) (c : Codec) : List Nat → Walk (List TreeLine)
  | [] => return []
  | n :: rest => do
      let obj := UInt16.ofNat n
      let container ← t.parent m obj
      let lines ← if container = 0 then t.subtree m c (deepest + 1) obj else pure []
      return lines ++ (← roots t m c rest)

/-- The walk over the whole tree. -/
def walk (t : ObjectTable) (m : Memory) (c : Codec) : Walk (List TreeLine) :=
  t.roots m c (List.range' 1 (t.objectCount m))

/-- The lines of the whole tree, or the fault that the walk over it stops with. No
caller is given anything by a walk without end; a fault of its own stands for that. -/
def tree (t : ObjectTable) (m : Memory) (c : Codec) : Except Fault (List TreeLine) :=
  (t.walk m c).run.getD (.error .endlessWalk)

end ObjectTable

/-! ## Listings -/

/-- A line of the tree in print, indented by two blanks a level. -/
def TreeLine.render (l : TreeLine) : String :=
  String.ofList (List.replicate (2 * l.depth) ' ') ++ s!"{l.name} ({decimal l.object.toNat})\n"

/-- The whole tree in print. -/
def renderTree (lines : List TreeLine) : String :=
  String.join (lines.map TreeLine.render)

/-- Numbers in brackets, with commas between them. -/
def bracketed (numbers : List Nat) : String :=
  "[" ++ ", ".intercalate (numbers.map decimal) ++ "]"

/-- An object in print. -/
def ObjectEntry.listing (e : ObjectEntry) : String :=
  s!"{decimal e.id.toNat}. \"{e.name}\"\n"
    ++ s!"  Attributes: {bracketed e.attributes}\n"
    ++ s!"  Parent: {decimal e.parent.toNat}  Sibling: {decimal e.sibling.toNat}  "
    ++ s!"Child: {decimal e.child.toNat}\n"
    ++ s!"  Properties @ {hexAddress 4 e.propertiesAddr}:"
    ++ String.join (e.properties.map fun p => s!" [{decimal p.id}:{decimal p.length}]")

end ZMachine
