import ZMachine.Proofs.Machine.Story
import ZMachine.Proofs.Memory.Layout
import ZMachine.Proofs.Text.Spelling
import ZMachine.Session.Output

/-!
# Output to tables

While a table is open, what is printed is stored in it: the codes of the characters in a
row, behind a word that counts them. Tables can be opened inside tables, and the
characters go to the innermost.

A table has therefore captured, when all is done, what was printed from its opening on
while no table inside it was open, up to its closing (`captured`). The count of a table
is kept beside memory and wraps, and it is copied to memory with every text; the two agree
since a table that was written lies in dynamic memory, which is smaller than the count can
tell (`tables_hold_captures`).
-/

set_option autoImplicit false

namespace ZMachine

namespace Op

variable {σ α : Type}

theorem each_append (f : α → Op σ Unit) (first second : List α) :
    each f (first ++ second) = each f first >>= fun _ => each f second := by
  induction first with
  | nil => rfl
  | cons a rest ih => rw [List.cons_append, each, each, ih, bind_assoc]

end Op

namespace Session

open Relation (ReflTransGen)

variable {ω α : Type} {h : Host ω} {s t : Session ω}

/-! ## Parts of a session -/

theorem onMachine_eq_ok {x : Op Machine α} {a : α} :
    (onMachine x).run s = (.ok a, t) ↔
      ∃ machine, x.run s.machine = (.ok a, machine) ∧ t = { s with machine } :=
  Op.run_zoom_eq_ok

theorem onMemory_eq_ok {x : Op Memory α} {a : α} :
    (onMemory x).run s = (.ok a, t) ↔
      ∃ memory, x.run s.machine.memory = (.ok a, memory) ∧
        t = { s with machine := { s.machine with memory } } := by
  rw [onMemory, onMachine_eq_ok]
  constructor
  · rintro ⟨machine, run, rfl⟩
    obtain ⟨memory, written, rfl⟩ := Op.run_zoom_eq_ok.mp run
    exact ⟨memory, written, rfl⟩
  · rintro ⟨memory, written, rfl⟩
    exact ⟨_, Op.run_zoom_eq_ok.mpr ⟨memory, written, rfl⟩, rfl⟩

/-! ## Requests -/

/-- Nothing but the host's world changes. -/
def Sends (s t : Session ω) : Prop :=
  ∃ world, t = { s with world }

theorem sends_of_reaches (sent : ReflTransGen Sends s t) : s.Sends t := by
  induction sent with
  | refl => exact ⟨s.world, rfl⟩
  | tail _ last ih =>
      obtain ⟨_, rfl⟩ := ih
      obtain ⟨world, rfl⟩ := last
      exact ⟨world, rfl⟩

theorem request_sends (r : ω → Except HostError α × ω) : (request r).MadeOf Sends := by
  refine .bind (fun s => .single ⟨(r s.world).2, rfl⟩) fun answer => ?_
  cases answer with
  | ok a => exact .pure a
  | error e => exact .fail _

theorem echoCommand_sends (h : Host ω) (line : String) : (echoCommand h line).MadeOf Sends :=
  .bind (.view _) fun _ => .ite (request_sends _) (.pure _)

/-- With no table open, printing reaches the host and changes nothing else. -/
theorem output_sends (h : Host ω) (text : String) (closed : s.streams.tables = []) :
    s.Sends ((output h text).run s).2 := by
  rw [output]
  split
  · exact ⟨s.world, rfl⟩
  · rw [Op.run_view_bind, closed]
    have made : Op.MadeOf Sends (do
        if ← Op.view (·.streams.screen) then request (h.print .screen text)
        if ← queryMachine (·.memory.flag .transcripting) then request (h.print .transcript text) :
          Op (Session ω) Unit) :=
      .bind (.view _) fun _ => .sometimes (request_sends _) fun _ =>
        .bind (.query _) fun _ => .ite (request_sends _) (.pure _)
    exact sends_of_reaches (made s)

/-! ## Single uses of the streams -/

/-- A table that was opened. -/
theorem openTable_eq_ok {table : Word} (run : (openTable (some table)).run s = (.ok (), t)) :
    s.streams.tables.length < maxTables ∧ s.machine.memory.Writable table.toNat 2 ∧
      t = { s with
        machine := { s.machine with
          memory := s.machine.memory.lay table.toNat [highByte 0, lowByte 0] }
        streams := { s.streams with tables := ⟨table.toNat, 0⟩ :: s.streams.tables } } := by
  rw [openTable, Op.run_view_bind] at run
  split at run
  · cases (Prod.mk.inj run).1
  · rename_i room
    obtain ⟨_, u, written, opened⟩ := Op.run_bind_eq_ok_iff.mp run
    obtain ⟨memory, stored, rfl⟩ := onMemory_eq_ok.mp written
    obtain ⟨writable, rfl⟩ := Memory.writeWord_eq_ok.mp stored
    cases opened
    exact ⟨Nat.not_le.mp room, writable, rfl⟩

/-- A text that was added to a table. -/
theorem writeToTable_eq_ok {table : OutputTable} {outer : List OutputTable} {text : String}
    {count : Word} (total : table.count + UInt16.ofNat text.length = count)
    (run : (writeToTable table outer text).run s = (.ok (), t)) :
    s.machine.memory.Writable (table.addr + 2 + table.count.toNat) text.length ∧
    s.machine.memory.Writable table.addr 2 ∧
    t = { s with
      machine := { s.machine with
        memory := (s.machine.memory.lay (table.addr + 2 + table.count.toNat)
          (Zscii.ofString text)).lay table.addr [highByte count, lowByte count] }
      streams := { s.streams with tables := ⟨table.addr, count⟩ :: outer } } := by
  subst total
  have length := Zscii.length_ofString text
  rw [writeToTable] at run
  obtain ⟨_, u, written, counted⟩ := Op.run_bind_eq_ok_iff.mp run
  obtain ⟨memory, stored, rfl⟩ := onMemory_eq_ok.mp written
  obtain ⟨codes, rfl⟩ := (Memory.writeBytes_lays _ _ _ _).mp stored
  rw [Op.run_update_bind] at counted
  obtain ⟨memory', stored', rfl⟩ := onMemory_eq_ok.mp counted
  obtain ⟨word, rfl⟩ := Memory.writeWord_eq_ok.mp stored'
  exact ⟨length ▸ codes, word.congr codes.sameBounds.symm, rfl⟩

/-! ## What tables capture -/

/-- What can be done with the memory streams: a table is opened inside those already
open, the innermost is closed, and a text is printed. -/
inductive StreamUse where
  | opens (table : Word)
  | closes
  | prints (text : String)
  deriving DecidableEq, Repr, Inhabited

/-- Make use of the streams. -/
def StreamUse.perform (h : Host ω) : StreamUse → Op (Session ω) Unit
  | .opens table => selectStream 3 (some table)
  | .closes => selectStream (-3) none
  | .prints text => output h text

/-- What is printed to a table from here on, when so many tables inside it are open: all
that is printed while there are none, until it is closed itself. -/
def captured : (inside : Nat) → List StreamUse → List Char
  | _, [] => []
  | inside, .opens _ :: rest => captured (inside + 1) rest
  | 0, .closes :: _ => []
  | inside + 1, .closes :: rest => captured inside rest
  | 0, .prints text :: rest => text.toList ++ captured 0 rest
  | inside + 1, .prints _ :: rest => captured (inside + 1) rest

/-- A table and what was printed to it. -/
structure Capture where
  addr : Nat
  text : List Char
  deriving DecidableEq, Repr, Inhabited

/-- Every opening of a table with what is printed while that table is the innermost. -/
def openings : List StreamUse → List Capture
  | [] => []
  | .opens table :: rest => ⟨table.toNat, captured 0 rest⟩ :: openings rest
  | .closes :: rest => openings rest
  | .prints _ :: rest => openings rest

namespace Capture

/-- The bytes of a table: how many characters it has, and their codes. -/
def bytes (c : Capture) : List Byte :=
  [highByte (UInt16.ofNat c.text.length), lowByte (UInt16.ofNat c.text.length)] ++
    c.text.map Zscii.ofChar

/-- The address behind the bytes of a table. -/
def stop (c : Capture) : Nat :=
  c.addr + 2 + c.text.length

/-- No byte belongs to both tables. -/
def Apart (c d : Capture) : Prop :=
  c.stop ≤ d.addr ∨ d.stop ≤ c.addr

instance (c d : Capture) : Decidable (c.Apart d) :=
  inferInstanceAs (Decidable (_ ∨ _))

/-- The table as the session keeps it. -/
def table (c : Capture) : OutputTable :=
  ⟨c.addr, UInt16.ofNat c.text.length⟩

/-- The table with more text. -/
def add (c : Capture) (more : List Char) : Capture :=
  { c with text := c.text ++ more }

/-- The table has its bytes in memory, where the story may write. -/
structure Held (m : Memory) (c : Capture) : Prop where
  stand : m.Stand c.addr c.bytes
  room : c.stop ≤ m.staticBase

variable {c d : Capture} {m t : Memory}

theorem length_bytes (c : Capture) : c.bytes.length = 2 + c.text.length := by
  rw [bytes, List.length_append, List.length_map]
  rfl

theorem Apart.symm (apart : c.Apart d) : d.Apart c :=
  Or.symm apart

theorem Apart.of_add {more more' : List Char} (apart : (c.add more).Apart (d.add more')) :
    c.Apart d := by
  simp only [Apart, stop, add, List.length_append] at apart ⊢
  omega

/-- The images differ in the bytes of the table at most. -/
structure Within (m t : Memory) (c : Capture) : Prop where
  bounds : m.SameBounds t
  outside : ∀ i, i < c.addr ∨ c.stop ≤ i → t.bytes[i]? = m.bytes[i]?

/-- A table is held when nothing changed but another one. -/
theorem Held.of_within (held : c.Held m) (within : d.Within m t) (apart : d.Apart c) :
    c.Held t := by
  refine ⟨held.stand.congr fun i low high => within.outside i ?_, ?_⟩
  · rw [length_bytes] at high
    rw [Apart, stop, stop] at apart
    rw [stop]
    omega
  · rw [within.bounds.staticBase]
    exact held.room

/-- A table that was opened holds nothing. -/
theorem held_opened {addr : Nat} (writable : m.Writable addr 2)
    (opened : m.lay addr [highByte 0, lowByte 0] = t) :
    Held t ⟨addr, []⟩ ∧ Within m t ⟨addr, []⟩ := by
  have bytes : [highByte 0, lowByte 0] = (⟨addr, []⟩ : Capture).bytes := rfl
  have last := (writable (addr + 1) (Nat.le_succ _) (Nat.lt_succ_self _)).1
  rw [bytes] at opened
  subst opened
  have writable : m.Writable addr (⟨addr, []⟩ : Capture).bytes.length := writable
  have bounds := writable.sameBounds
  refine ⟨⟨writable.stand_lay, ?_⟩, bounds, fun i outside => writable.getElem?_lay outside⟩
  rw [bounds.staticBase]
  exact last

/-- A table that was added to holds what it held and what was added. -/
theorem Held.added (held : c.Held m) {more : List Char} {count : Word}
    (counted : UInt16.ofNat (c.add more).text.length = count)
    (codes : m.Writable c.stop (more.map Zscii.ofChar).length)
    (word : m.Writable c.addr [highByte count, lowByte count].length)
    (added : (m.lay c.stop (more.map Zscii.ofChar)).lay c.addr
      [highByte count, lowByte count] = t) :
    (c.add more).Held t ∧ (c.add more).Within m t := by
  have split : (c.add more).bytes =
      [highByte count, lowByte count] ++ (c.text.map Zscii.ofChar ++ more.map Zscii.ofChar) := by
    rw [bytes, counted, add, List.map_append]
  have before : m.Stand (c.addr + [highByte count, lowByte count].length)
      (c.text.map Zscii.ofChar) := held.stand.tail.tail
  have length : [highByte count, lowByte count].length = 2 := rfl
  generalize [highByte count, lowByte count] = head at word added split before length
  have bounds := codes.sameBounds
  have word' := word.congr bounds
  have bounds' := bounds.trans word'.sameBounds
  have addr : (c.add more).addr = c.addr := rfl
  have stop : c.addr + head.length + (c.text.map Zscii.ofChar).length = c.stop := by
    rw [length, List.length_map, Capture.stop]
  have stop' : (c.add more).stop = c.stop + (more.map Zscii.ofChar).length := by
    simp only [Capture.stop, add, List.length_append, List.length_map]
    omega
  subst added
  refine ⟨⟨?_, ?_⟩, bounds', fun i outside => ?_⟩
  · rw [split, addr, Memory.stand_append, Memory.stand_append, stop]
    refine ⟨word'.stand_lay, before.congr fun i low high => ?_, codes.stand_lay.congr ?_⟩
    · rw [word'.getElem?_lay (.inr low), codes.getElem?_lay (.inl (stop ▸ high))]
    · intro i low _
      exact word'.getElem?_lay (.inr (by omega))
  · rw [bounds'.staticBase, stop']
    exact codes.below held.room
  · rw [addr, stop'] at outside
    rw [word'.getElem?_lay (by omega), codes.getElem?_lay (by omega)]

end Capture

/-- The open tables of the session, the innermost first, hold these captures. -/
structure Captures (opened : List Capture) (s : Session ω) : Prop where
  tables : s.streams.tables = opened.map Capture.table
  held : ∀ c ∈ opened, c.Held s.machine.memory

variable {opened outer : List Capture} {c : Capture} {table : Word} {text : String}

/-- A change of one table alone leaves those around it as they are. -/
theorem Captures.changed (captures : s.Captures opened)
    (tables : t.streams.tables = (c :: outer).map Capture.table)
    (changed : c.Held t.machine.memory ∧ c.Within s.machine.memory t.machine.memory)
    (others : ∀ d ∈ outer, d ∈ opened) (apart : ∀ d ∈ outer, c.Apart d) :
    t.Captures (c :: outer) := by
  refine ⟨tables, fun d member => ?_⟩
  rcases List.mem_cons.mp member with rfl | inside
  · exact changed.1
  · exact (captures.held d (others d inside)).of_within changed.2 (apart d inside)

/-- **Opening.** A table that was opened is the innermost and holds nothing. -/
theorem opens_captures (captures : s.Captures opened)
    (run : ((StreamUse.opens table).perform h).run s = (.ok (), t))
    (apart : ∀ d ∈ opened, Capture.Apart ⟨table.toNat, []⟩ d) :
    t.Captures (⟨table.toNat, []⟩ :: opened) ∧
      Capture.Within s.machine.memory t.machine.memory ⟨table.toNat, []⟩ := by
  obtain ⟨_, writable, rfl⟩ := openTable_eq_ok run
  have opened := Capture.held_opened writable rfl
  exact ⟨captures.changed (by rw [captures.tables]; rfl) opened (fun _ member => member) apart,
    opened.2⟩

/-- **Closing.** The innermost table is closed, if there is one. -/
theorem closes_captures (captures : s.Captures opened)
    (run : (StreamUse.closes.perform h).run s = (.ok (), t)) :
    t.Captures opened.tail ∧ t.machine = s.machine := by
  obtain ⟨_, rfl⟩ := Prod.mk.inj run
  refine ⟨⟨?_, fun c member => captures.held c (List.mem_of_mem_tail member)⟩, rfl⟩
  rw [List.map_tail, ← captures.tables]

/-- With no table open, printing leaves the machine alone. -/
theorem prints_closed (captures : s.Captures [])
    (run : ((StreamUse.prints text).perform h).run s = (.ok (), t)) :
    t.Captures [] ∧ t.machine = s.machine := by
  have sent := output_sends h text captures.tables
  rw [show (output h text).run s = (.ok (), t) from run] at sent
  obtain ⟨world, rfl⟩ := sent
  exact ⟨⟨captures.tables, captures.held⟩, rfl⟩

/-- **Printing.** A text is added to the innermost table. -/
theorem prints_captures (narrow : s.machine.memory.staticBase < 2 ^ 16)
    (captures : s.Captures (c :: outer))
    (run : ((StreamUse.prints text).perform h).run s = (.ok (), t))
    (apart : ∀ d ∈ outer, (c.add text.toList).Apart d) :
    t.Captures (c.add text.toList :: outer) ∧
      (c.add text.toList).Within s.machine.memory t.machine.memory := by
  rw [StreamUse.perform, output] at run
  split at run
  · rename_i empty
    cases run
    have same : c.add text.toList = c := by
      rw [String.isEmpty_iff.mp empty]
      simp [Capture.add]
    rw [same]
    exact ⟨captures, .refl _, fun _ _ => rfl⟩
  · rw [Op.run_view_bind, captures.tables, List.map_cons] at run
    have held := captures.held c List.mem_cons_self
    have short : c.text.length < 2 ^ 16 := by
      have := held.room
      rw [Capture.stop] at this
      omega
    have total : c.table.count + UInt16.ofNat text.length =
        UInt16.ofNat (c.add text.toList).text.length := by
      rw [Capture.table, ← UInt16.ofNat_add, Capture.add, List.length_append,
        String.length_toList]
    have place : c.table.addr + 2 + c.table.count.toNat = c.stop := by
      simp only [Capture.table, Capture.stop, UInt16.toNat_ofNat_of_lt' short]
    have length : text.length = (text.toList.map Zscii.ofChar).length := by
      rw [List.length_map, String.length_toList]
    obtain ⟨codes, word, ended⟩ := writeToTable_eq_ok total run
    rw [place, length] at codes
    rw [place] at ended
    subst ended
    have added := held.added rfl codes word rfl
    exact ⟨captures.changed rfl added (fun _ => List.mem_cons_of_mem c) apart, added.2⟩

/-! ## Runs -/

/-- The tables as they end up: those that are open already, each with what is still
printed to it, and those that are opened later. -/
def settled (opened : List Capture) (uses : List StreamUse) : List Capture :=
  opened.mapIdx (fun inside c => c.add (captured inside uses)) ++ openings uses

theorem settled_nil (opened : List Capture) : settled opened [] = opened := by
  have same : ∀ c : Capture, c.add [] = c := by
    intro c
    rw [Capture.add, List.append_nil]
  simp only [settled, captured, openings, same, List.append_nil]
  induction opened with
  | nil => rfl
  | cons c outer ih => rw [List.mapIdx_cons, ih]

theorem settled_opens (opened : List Capture) (table : Word) (rest : List StreamUse) :
    (settled opened (.opens table :: rest)).Perm (settled (⟨table.toNat, []⟩ :: opened) rest) := by
  rw [settled, settled, List.mapIdx_cons, List.cons_append]
  exact List.perm_middle

theorem settled_closes (c : Capture) (outer : List Capture) (rest : List StreamUse) :
    settled (c :: outer) (.closes :: rest) = c :: settled outer rest := by
  rw [settled, settled, List.mapIdx_cons, List.cons_append, captured, Capture.add, List.append_nil]
  rfl

theorem settled_prints (c : Capture) (outer : List Capture) (text : String)
    (rest : List StreamUse) :
    settled (c :: outer) (.prints text :: rest) = settled (c.add text.toList :: outer) rest := by
  rw [settled, settled, List.mapIdx_cons, List.mapIdx_cons, captured, Capture.add, Capture.add,
    Capture.add, List.append_assoc]
  rfl

/-- An open table ends up with more text at most. -/
theorem mem_settled (uses : List StreamUse) {c : Capture} (member : c ∈ opened) :
    ∃ more, c.add more ∈ settled opened uses := by
  obtain ⟨place, inside, rfl⟩ := List.mem_iff_getElem.mp member
  exact ⟨captured place uses, List.mem_append_left _
    (List.mem_mapIdx.mpr ⟨place, inside, rfl⟩)⟩

/-- Tables that end up apart are apart before. -/
theorem apart_of_settled {uses : List StreamUse}
    (apart : (settled (c :: outer) uses).Pairwise Capture.Apart) :
    ∀ d ∈ outer, c.Apart d := by
  intro d member
  rw [settled, List.mapIdx_cons, List.cons_append] at apart
  obtain ⟨place, inside, rfl⟩ := List.mem_iff_getElem.mp member
  have later : outer[place].add (captured (place + 1) uses) ∈
      outer.mapIdx (fun inside d => d.add (captured (inside + 1) uses)) ++ openings uses :=
    List.mem_append_left _ (List.mem_mapIdx.mpr ⟨place, inside, rfl⟩)
  exact (List.rel_of_pairwise_cons apart later).of_add

/-- The second image is the first with the tables filled in. -/
structure Filled (m t : Memory) (tables : List Capture) : Prop where
  held : ∀ c ∈ tables, c.Held t
  bounds : m.SameBounds t
  outside : ∀ i, (∀ c ∈ tables, i < c.addr ∨ c.stop ≤ i) → t.bytes[i]? = m.bytes[i]?

section Filled

variable {m u t : Memory} {tables : List Capture}

/-- What happens inside a table that is filled in later is part of its filling. -/
theorem Filled.after (filled : Filled u t tables) (within : c.Within m u)
    (later : ∃ more, c.add more ∈ tables) : Filled m t tables := by
  refine ⟨filled.held, within.bounds.trans filled.bounds, fun i outside => ?_⟩
  obtain ⟨more, member⟩ := later
  have grown := outside _ member
  rw [filled.outside i outside, within.outside i]
  simp only [Capture.stop, Capture.add, List.length_append] at grown ⊢
  omega

/-- A table that is closed stays as it is while others are filled in. -/
theorem Filled.cons (filled : Filled m t tables) (held : c.Held m)
    (apart : ∀ d ∈ tables, c.Apart d) : Filled m t (c :: tables) := by
  have kept : c.Held t := by
    refine ⟨held.stand.congr fun i low high => filled.outside i fun d member => ?_, ?_⟩
    · have := apart d member
      rw [Capture.length_bytes] at high
      rw [Capture.Apart, Capture.stop] at this
      omega
    · rw [filled.bounds.staticBase]
      exact held.room
  refine ⟨List.forall_mem_cons.mpr ⟨kept, filled.held⟩, filled.bounds, fun i outside => ?_⟩
  exact filled.outside i fun d member => outside d (List.mem_cons_of_mem c member)

end Filled

/-- **A run.** Any uses of the streams fill in the tables, those that were open and those
that they open, with what is printed to each. -/
theorem each_fills {uses : List StreamUse} (narrow : s.machine.memory.staticBase < 2 ^ 16)
    (captures : s.Captures opened)
    (run : (Op.each (StreamUse.perform h) uses).run s = (.ok (), t))
    (apart : (settled opened uses).Pairwise Capture.Apart) :
    Filled s.machine.memory t.machine.memory (settled opened uses) := by
  induction uses generalizing s opened with
  | nil =>
      cases run
      rw [settled_nil]
      exact ⟨captures.held, .refl _, fun _ _ => rfl⟩
  | cons use rest ih =>
      obtain ⟨_, u, first, after⟩ := Op.run_bind_eq_ok_iff.mp run
      cases use with
      | opens table =>
          have order := settled_opens opened table rest
          have apart' := (order.pairwise_iff Capture.Apart.symm).mp apart
          obtain ⟨captures', within⟩ := opens_captures captures first (apart_of_settled apart')
          have filled :=
            (ih (within.bounds.staticBase ▸ narrow) captures' after apart').after within
            (mem_settled rest List.mem_cons_self)
          exact ⟨fun d member => filled.held d (order.mem_iff.mp member), filled.bounds,
            fun i outside => filled.outside i fun d member => outside d (order.mem_iff.mpr member)⟩
      | closes =>
          obtain ⟨captures', same⟩ := closes_captures captures first
          rw [← same] at narrow ⊢
          rcases opened with _ | ⟨c, outer⟩
          · exact ih narrow captures' after apart
          · rw [settled_closes] at apart ⊢
            obtain ⟨apart, others⟩ := List.pairwise_cons.mp apart
            refine (ih narrow captures' after others).cons ?_ apart
            exact same ▸ captures.held c List.mem_cons_self
      | prints text =>
          rcases opened with _ | ⟨c, outer⟩
          · obtain ⟨captures', same⟩ := prints_closed captures first
            rw [← same] at narrow ⊢
            exact ih narrow captures' after apart
          · rw [settled_prints] at apart ⊢
            obtain ⟨captures', within⟩ :=
              prints_captures narrow captures first (apart_of_settled apart)
            exact (ih (within.bounds.staticBase ▸ narrow) captures' after apart).after within
              (mem_settled rest List.mem_cons_self)

/-- A single use opens a table only if there are few, and tells the host nothing while
one is open. -/
theorem perform_bounded {use : StreamUse} (few : s.streams.tables.length ≤ maxTables)
    (run : (use.perform h).run s = (.ok (), t)) :
    t.streams.tables.length ≤ maxTables ∧ (s.streams.tables ≠ [] → t.world = s.world) := by
  cases use with
  | opens table =>
      obtain ⟨room, _, rfl⟩ := openTable_eq_ok run
      exact ⟨room, fun _ => rfl⟩
  | closes =>
      obtain ⟨_, rfl⟩ := Prod.mk.inj run
      refine ⟨?_, fun _ => rfl⟩
      exact Nat.le_trans (by rw [List.length_tail]; exact Nat.sub_le _ _) few
  | prints text =>
      rcases tables : s.streams.tables with _ | ⟨table, outer⟩
      · have sent := output_sends h text tables
        rw [show (output h text).run s = (.ok (), t) from run] at sent
        obtain ⟨world, rfl⟩ := sent
        exact ⟨few, fun opened => absurd rfl opened⟩
      · rw [StreamUse.perform, output] at run
        split at run
        · cases run
          exact ⟨few, fun _ => rfl⟩
        · rw [Op.run_view_bind, tables] at run
          obtain ⟨_, _, rfl⟩ := writeToTable_eq_ok rfl run
          exact ⟨by simpa [tables] using few, fun _ => rfl⟩

/-- However far a run has come, few tables are open. -/
theorem each_bounded {uses : List StreamUse} (few : s.streams.tables.length ≤ maxTables)
    (run : (Op.each (StreamUse.perform h) uses).run s = (.ok (), t)) :
    t.streams.tables.length ≤ maxTables := by
  induction uses generalizing s with
  | nil =>
      cases run
      exact few
  | cons use rest ih =>
      obtain ⟨_, u, first, after⟩ := Op.run_bind_eq_ok_iff.mp run
      exact ih (perform_bounded few first).1 after

/-- **Tables hold what was printed to them.** Take any session with no table open and any
uses of the streams that succeed, in which tables are opened, closed and printed to in any
order. If the tables are filled apart from each other, then at the end each of them holds
in its first word the number of the characters that were printed while it was the
innermost, and behind that word their codes in order. No byte outside the tables is
changed. At every point of the run at most 16 tables are open, and as long as one is, the
host is told nothing.

The static base is read from a word of the header. -/
theorem tables_hold_captures (h : Host ω) (uses : List StreamUse)
    (narrow : s.machine.memory.staticBase < 2 ^ 16) (closed : s.streams.tables = [])
    (run : (Op.each (StreamUse.perform h) uses).run s = (.ok (), t))
    (apart : (openings uses).Pairwise Capture.Apart) :
    (∀ c ∈ openings uses,
      (∃ count, t.machine.memory.getWord c.addr = .ok count ∧ count.toNat = c.text.length) ∧
      t.machine.memory.readBytes (c.addr + 2) c.text.length =
        .ok (c.text.map Zscii.ofChar).toArray) ∧
    (∀ i, (∀ c ∈ openings uses, i < c.addr ∨ c.addr + 2 + c.text.length ≤ i) →
      t.machine.memory.bytes[i]? = s.machine.memory.bytes[i]?) ∧
    ∀ before rest, uses = before ++ rest →
      ∃ u, (Op.each (StreamUse.perform h) before).run s = (.ok (), u) ∧
        u.streams.tables.length ≤ 16 ∧
        (u.streams.tables ≠ [] →
          ∀ use ∈ rest.head?, ((use.perform h).run u).2.world = u.world) := by
  have few : s.streams.tables.length ≤ maxTables := by
    rw [closed]
    exact Nat.zero_le _
  have captures : s.Captures [] := ⟨closed, nofun⟩
  have filled : Filled _ _ (openings uses) := each_fills narrow captures run apart
  refine ⟨fun c member => ?_, filled.outside, fun before rest parts => ?_⟩
  · obtain ⟨stand, room⟩ := filled.held c member
    rw [Capture.stop, filled.bounds.staticBase] at room
    have short : c.text.length < 2 ^ 16 := by omega
    have inside := stand.inside nofun
    rw [Capture.length_bytes, ← Nat.add_assoc] at inside
    rw [Capture.bytes, Memory.stand_append] at stand
    obtain ⟨counted, codes⟩ := stand
    refine ⟨⟨_, counted.getWord, UInt16.toNat_ofNat_of_lt' short⟩, ?_⟩
    have length : (c.text.map Zscii.ofChar).length = c.text.length := List.length_map _
    rw [← length] at inside ⊢
    exact Memory.Stand.readBytes codes inside
  · rw [parts, Op.each_append] at run
    obtain ⟨_, u, first, after⟩ := Op.run_bind_eq_ok_iff.mp run
    refine ⟨u, first, each_bounded few first, fun opened use next => ?_⟩
    rcases rest with _ | ⟨use', rest⟩
    · cases next
    · cases next
      obtain ⟨_, v, performed, _⟩ := Op.run_bind_eq_ok_iff.mp after
      rw [performed]
      exact (perform_bounded (each_bounded few first) performed).2 opened

/-! ## A table inside a table -/

/-- A story that selects the transcript, opens a table, reads a line and ends. -/
def notingStory : Array Byte :=
  #[5, 0, 0, 0, 0, 0x64, 0, 0x64, 0, 0x60, 0, 0x40, 0, 0x40, 0, 0x60] ++ Array.replicate 48 0 ++
    #[10] ++ Array.replicate 31 0 ++
    #[0, 6, 0, 0, 0xF3, 0x7F, 2, 0xF3, 0x4F, 3, 0, 0x58, 0xE4, 0x3F, 0, 0x40, 0, 0xBA] ++
    Array.replicate 14 0

/-- The machine on which the story that notes is played. -/
def notingMachine : Machine :=
  Machine.ofStory notingStory

theorem notingMachine_loaded : Machine.load notingStory {} 0 = .ok notingMachine :=
  Machine.load_ofStory (by decide +kernel)

/-- The story that notes, before its first instruction. -/
def notingSession : Session Unit :=
  { machine := notingMachine, sourceName := "tale", world := () }

/-- A table is opened inside another, which is printed to before and after. -/
def nestedUses : List StreamUse :=
  [.opens 0x40, .prints "go", .opens 0x50, .prints "é", .closes, .prints " on", .closes]

/-- Each of the nested tables holds what was printed to it. -/
theorem nestedUses_captured :
    (notingSession.machine.memory.staticBase < 2 ^ 16 ∧ notingSession.streams.tables = [] ∧
      (openings nestedUses).Pairwise Capture.Apart) ∧
    ∃ t, (Op.each (StreamUse.perform Host.null) nestedUses).run notingSession = (.ok (), t) ∧
      (∃ count, t.machine.memory.getWord 0x40 = .ok count ∧ count.toNat = 5) ∧
      t.machine.memory.readBytes 0x42 5 = .ok #[103, 111, 32, 111, 110] ∧
      (∃ count, t.machine.memory.getWord 0x50 = .ok count ∧ count.toNat = 1) ∧
      t.machine.memory.readBytes 0x52 1 = .ok #[170] := by
  have narrow : notingSession.machine.memory.staticBase < 2 ^ 16 := by decide +kernel
  have ran : ((Op.each (StreamUse.perform Host.null) nestedUses).run notingSession).1 = .ok () :=
    eq_ok_of_toOption (by decide +kernel)
  have opened : openings nestedUses = [⟨0x40, ['g', 'o', ' ', 'o', 'n']⟩, ⟨0x50, ['é']⟩] := by
    decide
  have apart : (openings nestedUses).Pairwise Capture.Apart := by
    rw [opened]
    decide
  obtain ⟨tables, _⟩ :=
    tables_hold_captures Host.null nestedUses narrow rfl (Prod.ext ran rfl) apart
  rw [opened] at tables
  obtain ⟨⟨count, codes⟩, others⟩ := List.forall_mem_cons.mp tables
  obtain ⟨⟨count', codes'⟩, _⟩ := List.forall_mem_cons.mp others
  exact ⟨⟨narrow, rfl, apart⟩, _, Prod.ext ran rfl, count, codes, count', codes'⟩

end Session

end ZMachine
