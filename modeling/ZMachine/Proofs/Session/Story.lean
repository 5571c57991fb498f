import ZMachine.Proofs.Machine.Story
import ZMachine.Proofs.Session.Step

/-!
# What no run can change

Whatever a story and its player do, and whatever snapshots the host hands over,
static memory, the pristine copy and the header stay as they were when the story
was loaded (`performAll_keeps_story`).
-/

set_option autoImplicit false

namespace ZMachine.Session

open Relation (ReflTransGen)

variable {ω : Type} {offered : Snapshot → Prop} {story : Array Byte} {s t : Session ω}

/-- Changes of a session change its machine by changes, and keep its name. -/
theorem changes_within (changes : ReflTransGen (Change offered) s t) :
    ReflTransGen (Machine.Change offered) s.machine t.machine ∧ t.sourceName = s.sourceName := by
  induction changes with
  | refl => exact ⟨.refl, rfl⟩
  | tail _ change ih =>
      cases change with
      | within change => exact ⟨ih.1.tail change, ih.2⟩
      | around => exact ih

/-- Whatever is asked of it, a session goes on playing its story. -/
theorem performAll_plays (h : Host ω) (actions : List Action) (plays : s.machine.Plays story) :
    (performAll h actions s).machine.Plays story :=
  Machine.plays_of_changes (changes_within (performAll_changes h actions s)).1 plays

/-- Whatever is asked of it, a session goes on with the dictionary of its story. -/
theorem performAll_readsWords (h : Host ω) (actions : List Action)
    (reads : s.machine.ReadsWords) : (performAll h actions s).machine.ReadsWords :=
  Machine.readsWords_of_changes (changes_within (performAll_changes h actions s)).1 reads

/-- **What no run can change.** After any actions, with any host, a machine has the
bounds and the pristine copy it was loaded with, the story's own bytes in static
memory, and the header it was loaded with; starting over keeps that header, and
the story verifies as it did at first. -/
theorem performAll_keeps_story {settings : Settings} {entropy : UInt64}
    {generator : Random.Generator} {machine : Machine}
    (loaded : Machine.load story settings entropy generator = .ok machine) (h : Host ω)
    (name : String) (world : ω) (actions : List Action)
    (reached : performAll h actions (start machine name world) = s) :
    s.machine.memory.size = machine.memory.size ∧
    s.machine.memory.version = machine.memory.version ∧
    s.machine.memory.staticBase = machine.memory.staticBase ∧
    s.machine.memory.highBase = machine.memory.highBase ∧
    s.machine.memory.pristine = machine.memory.pristine ∧
    machine.memory.pristine = story ∧
    (∀ i, machine.memory.staticBase ≤ i → s.machine.memory.bytes[i]? = story[i]?) ∧
    s.machine.header = machine.header ∧
    (Machine.restart.run s.machine).2.header = machine.header ∧
    s.machine.verify = machine.verify := by
  obtain ⟨plays, _⟩ := Machine.load_plays loaded
  have plays' : s.machine.Plays story := reached ▸ performAll_plays h actions plays
  have bounds := plays.holds.sameBounds plays'.holds
  have header : s.machine.header = machine.header := plays.header_eq plays'
  have restarted : (Machine.restart.run s.machine).2.Plays story :=
    Machine.Change.plays (show s.machine.Change (fun _ => True) _ from .restarted) plays'
  refine ⟨bounds.size, bounds.version, bounds.staticBase, bounds.highBase, bounds.pristine,
    plays.holds.pristine, ?_, header, plays.header_eq restarted, ?_⟩
  · intro i above
    exact plays'.holds.static i (bounds.staticBase ▸ above)
  · simp only [Machine.verify, Memory.checksum, bounds.pristine, header]

/-- A story that saves, restores and ends. -/
def savingStory : Array Byte :=
  #[3, 0, 0, 0, 0, 0x40, 0, 0x40, 0, 0x46, 0, 0x40, 0, 0x40, 0, 0x40] ++ Array.replicate 48 0 ++
    #[0xB5, 0xC2, 0xB6, 0xC2, 0xBA, 0, 0, 0, 0, 0]

/-- The machine on which the story that saves is played. -/
@[irreducible] def savingMachine : Machine :=
  match Machine.load savingStory {} 0 with
  | .ok machine => machine
  | .error _ => default

theorem savingMachine_loaded : Machine.load savingStory {} 0 = .ok savingMachine := by
  have loads : (Machine.load savingStory {} 0).isOk = true := by decide +kernel
  rcases loaded : Machine.load savingStory {} 0 with _ | machine
  · rw [loaded] at loads
    cases loads
  · rw [savingMachine, loaded]

/-- The story that saves keeps its header to the end. -/
theorem savingStory_keeps_header :
    Machine.load savingStory {} 0 = .ok savingMachine ∧
      (performAll Host.null [.run 3] (start savingMachine "tale" ())).machine.header =
        savingMachine.header := by
  obtain ⟨_, _, _, _, _, _, _, header, _⟩ :=
    performAll_keeps_story savingMachine_loaded Host.null "tale" () [.run 3] rfl
  exact ⟨savingMachine_loaded, header⟩

end ZMachine.Session
