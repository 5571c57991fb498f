import ZMachine.Proofs.Object.Links

/-!
# Moves that fail

Moving an object sets several links, one after another, and each of them may be refused.
Taking an object out sets the link that leads to it first and the links of the object
afterwards; putting it into another one begins by taking it out of where it is, and looks
at the new container only then. So a move that fails does not always leave the tree as it
was. This module says exactly when it does not: when an object is torn out of its container
(`TornOut`), or when it is not put into the new one after it was taken out (`Stranded`). Both
need a link that lies in static memory, or a new container that is no object
(`move_torn_iff`).
-/

set_option autoImplicit false

namespace ZMachine.ObjectTable

variable {t : ObjectTable} {m m' : Memory} {obj dest container holder next : Word} {l : Link}

/-! ## The link that leads to an object -/

/-- The link through which an object is found in its container: the container's own, or that
of the object before it. -/
inductive Held (t : ObjectTable) (m : Memory) (obj : Word) : (container holder : Word) → Link → Prop
    where
  | first {container : Word} (inside : t.parent m obj = .ok container) (some : container ≠ 0)
      (front : t.child m container = .ok obj) : Held t m obj container container .child
  | later {container first holder : Word} (inside : t.parent m obj = .ok container)
      (some : container ≠ 0) (front : t.child m container = .ok first) (other : first ≠ obj)
      (before : t.siblingBefore m obj container chainBound first = .ok holder) :
      Held t m obj container holder .sibling

theorem sibling_of_siblingBefore {fuel : Nat} {current : Word}
    (found : t.siblingBefore m obj container fuel current = .ok holder) :
    t.sibling m holder = .ok obj := by
  induction fuel generalizing current with
  | zero => cases found
  | succ fuel ih =>
      rw [siblingBefore] at found
      split at found
      · cases found
      · obtain ⟨next, read, found⟩ := bind_eq_ok found
        split at found
        · rename_i here
          cases found
          rw [read, here]
        · exact ih found

namespace Held

theorem inside (held : t.Held m obj container holder l) : t.parent m obj = .ok container := by
  cases held <;> assumption

theorem some (held : t.Held m obj container holder l) : container ≠ 0 := by
  cases held <;> assumption

theorem leads (held : t.Held m obj container holder l) : t.link m holder l = .ok obj := by
  cases held with
  | first _ _ front => exact front
  | later _ _ _ _ before => exact sibling_of_siblingBefore before

end Held

/-! ## Taking an object out -/

/-- The writes by which an object is taken out. -/
def unlink (t : ObjectTable) (obj holder : Word) (l : Link) (next : Word) : Op Memory Unit := do
  t.setLink holder l next
  t.setLink obj .parent 0
  t.setLink obj .sibling 0

/-- The image after an object has been taken out. -/
def unlinked (t : ObjectTable) (m : Memory) (obj holder : Word) (l : Link) (next : Word) : Memory :=
  t.relink (t.relink (t.relink m holder l next) obj .parent 0) obj .sibling 0

theorem Held.run_remove (held : t.Held m obj container holder l)
    (behind : t.sibling m obj = .ok next) :
    (t.remove obj).run m = (t.unlink obj holder l next).run m := by
  have looked : (Op.query (t.parent · obj)).run m = (.ok container, m) :=
    congrArg (Prod.mk · m) held.inside
  have looked' : (Op.query (t.sibling · obj)).run m = (.ok next, m) :=
    congrArg (Prod.mk · m) behind
  rw [remove, Op.run_bind_ok looked, if_neg held.some, Op.run_bind_ok looked']
  cases held with
  | first _ _ front =>
      have front' : (Op.query (t.child · container)).run m = (.ok obj, m) :=
        congrArg (Prod.mk · m) front
      rw [Op.run_bind_ok front', if_pos rfl]
      rfl
  | @later head _ _ _ front other before =>
      have front' : (Op.query (t.child · container)).run m = (.ok head, m) :=
        congrArg (Prod.mk · m) front
      have before' : (Op.query (t.siblingBefore · obj container chainBound head)).run m =
          (.ok holder, m) := congrArg (Prod.mk · m) before
      rw [Op.run_bind_ok front', if_neg other, Op.run_bind_ok before']
      rfl

/-- Either nothing is written, because a link cannot be read or the object is nowhere, or the
link that leads to the object is found first. -/
theorem remove_cases (t : ObjectTable) (m : Memory) (obj : Word) :
    (∃ fault, (t.remove obj).run m = (.error fault, m)) ∨
      t.parent m obj = .ok 0 ∧ (t.remove obj).run m = (.ok (), m) ∨
      ∃ container holder l next, t.Held m obj container holder l ∧
        t.sibling m obj = .ok next := by
  cases inside : t.parent m obj with
  | error fault => exact .inl ⟨fault, Op.run_bind_error (congrArg (Prod.mk · m) inside)⟩
  | ok container =>
      have looked : (Op.query (t.parent · obj)).run m = (.ok container, m) :=
        congrArg (Prod.mk · m) inside
      rw [remove, Op.run_bind_ok looked]
      by_cases out : container = 0
      · rw [if_pos out]
        exact .inr (.inl ⟨congrArg Except.ok out, rfl⟩)
      rw [if_neg out]
      cases behind : t.sibling m obj with
      | error fault => exact .inl ⟨fault, Op.run_bind_error (congrArg (Prod.mk · m) behind)⟩
      | ok next =>
          have looked' : (Op.query (t.sibling · obj)).run m = (.ok next, m) :=
            congrArg (Prod.mk · m) behind
          rw [Op.run_bind_ok looked']
          cases front : t.child m container with
          | error fault => exact .inl ⟨fault, Op.run_bind_error (congrArg (Prod.mk · m) front)⟩
          | ok first =>
              have front' : (Op.query (t.child · container)).run m = (.ok first, m) :=
                congrArg (Prod.mk · m) front
              rw [Op.run_bind_ok front']
              by_cases here : first = obj
              · subst here
                exact .inr (.inr ⟨_, _, _, _, .first inside out front, rfl⟩)
              rw [if_neg here]
              cases before : t.siblingBefore m obj container chainBound first with
              | error fault =>
                  exact .inl ⟨fault, Op.run_bind_error (congrArg (Prod.mk · m) before)⟩
              | ok holder =>
                  exact .inr (.inr ⟨_, _, _, _, .later inside out front here before, rfl⟩)

/-- An object whose sibling can be changed can be given another parent. -/
theorem LinkWritable.parent_of_sibling (here : t.LinkWritable m obj .sibling) :
    t.LinkWritable m obj .parent := by
  refine ⟨here.found, fun i low high => ?_⟩
  have last := here.writable (t.fieldAddr obj .sibling) (Nat.le_refl _)
    (by rw [fieldWidth]; split <;> omega)
  have order : i < t.fieldAddr obj .sibling := by
    cases early : t.early <;>
      simp [fieldAddr, fieldWidth, linkOffset, linkSlot, early] at high ⊢ <;> omega
  omega

/-- How far the writes get depends on which of the three links lie in dynamic memory. -/
theorem unlink_cases (m : Memory) (obj holder : Word) (l : Link) (fits : t.Fits next) :
    ¬ t.LinkWritable m holder l ∧
        (∃ fault, (t.unlink obj holder l next).run m = (.error fault, m)) ∨
      t.LinkWritable m holder l ∧ ¬ t.LinkWritable m obj .parent ∧
        (∃ fault, (t.unlink obj holder l next).run m =
          (.error fault, t.relink m holder l next)) ∨
      t.LinkWritable m holder l ∧ t.LinkWritable m obj .parent ∧ ¬ t.LinkWritable m obj .sibling ∧
        (∃ fault, (t.unlink obj holder l next).run m =
          (.error fault, t.relink (t.relink m holder l next) obj .parent 0)) ∨
      t.LinkWritable m holder l ∧ t.LinkWritable m obj .sibling ∧
        (t.unlink obj holder l next).run m = (.ok (), t.unlinked m obj holder l next) := by
  obtain ⟨held, run⟩ | ⟨blocked, fault, run⟩ := setLink_cases m holder l fits
  · have same := held.sameBounds next
    obtain ⟨own, run'⟩ | ⟨blocked, fault, run'⟩ :=
      setLink_cases (t.relink m holder l next) obj .parent t.fits_zero
    · have same' := own.sameBounds 0
      obtain ⟨last, run''⟩ | ⟨blocked, fault, run''⟩ :=
        setLink_cases (t.relink (t.relink m holder l next) obj .parent 0) obj .sibling t.fits_zero
      · refine .inr (.inr (.inr ⟨held, last.congr (same.trans same').symm, ?_⟩))
        rw [unlink, Op.run_bind_ok run, Op.run_bind_ok run', run'']
        rfl
      · refine .inr (.inr (.inl ⟨held, own.congr same.symm, fun last => ?_, fault, ?_⟩))
        · exact blocked (last.congr (same.trans same'))
        · rw [unlink, Op.run_bind_ok run, Op.run_bind_ok run', run'']
    · refine .inr (.inl ⟨held, fun own => blocked (own.congr same), fault, ?_⟩)
      rw [unlink, Op.run_bind_ok run, Op.run_bind_error run']
  · exact .inl ⟨blocked, fault, Op.run_bind_error run⟩

/-- What the links lead to after an object has been taken out. -/
theorem link_unlinked (begun : t.LinkWritable m holder l) (own : t.LinkWritable m obj .sibling)
    (fits : t.Fits next) (o : Word) (k : Link) :
    t.link (t.unlinked m obj holder l next) o k =
      if o = obj ∧ k = .sibling then .ok 0 else if o = obj ∧ k = .parent then .ok 0
      else if o = holder ∧ k = l then .ok next else t.link m o k := by
  have same := begun.sameBounds next
  have parent := own.parent_of_sibling.congr same
  have last := own.congr (same.trans (parent.sameBounds 0))
  rw [unlinked, last.link_relink_eq t.fits_zero, parent.link_relink_eq t.fits_zero,
    begun.link_relink_eq fits]

/-- What taking an object out leaves when it succeeds. -/
inductive Out (t : ObjectTable) (m : Memory) (obj : Word) : Memory → Prop where
  | already (nowhere : t.parent m obj = .ok 0) : Out t m obj m
  | taken {container holder next : Word} {l : Link} (held : t.Held m obj container holder l)
      (behind : t.sibling m obj = .ok next) (begun : t.LinkWritable m holder l)
      (own : t.LinkWritable m obj .sibling) : Out t m obj (t.unlinked m obj holder l next)

/-- Taking an object out stops half way: the link that leads to it is set, and one of its own
is not. That shows, unless the object followed itself. -/
inductive TornOut (t : ObjectTable) (m : Memory) (obj : Word) : Prop where
  | intro {container holder next : Word} {l : Link} (held : t.Held m obj container holder l)
      (behind : t.sibling m obj = .ok next) (begun : t.LinkWritable m holder l)
      (stopped : ¬ t.LinkWritable m obj .sibling)
      (seen : next ≠ obj ∨ t.LinkWritable m obj .parent)

theorem fits_of_link {o value : Word} {k : Link} (linked : t.link m o k = .ok value) :
    t.Fits value :=
  (link_eq_ok.mp linked).2.1

/-- Taking an object out succeeds where nothing is in the way. -/
theorem remove_eq_ok : (t.remove obj).run m = (.ok (), m') ↔ t.Out m obj m' := by
  constructor
  · intro run
    obtain ⟨fault, failed⟩ | ⟨nowhere, stayed⟩ | ⟨container, holder, l, next, held, behind⟩ :=
      t.remove_cases m obj
    · cases failed.symm.trans run
    · cases stayed.symm.trans run
      exact .already nowhere
    · rw [held.run_remove behind] at run
      obtain ⟨_, _, failed⟩ | ⟨_, _, _, failed⟩ | ⟨_, _, _, _, failed⟩ | ⟨begun, own, done⟩ :=
        unlink_cases m obj holder l (fits_of_link behind)
      · cases failed.symm.trans run
      · cases failed.symm.trans run
      · cases failed.symm.trans run
      · cases done.symm.trans run
        exact .taken held behind begun own
  · rintro (nowhere | ⟨held, behind, begun, own⟩)
    · have looked : (Op.query (t.parent · obj)).run m = (.ok 0, m) :=
        congrArg (Prod.mk · m) nowhere
      rw [remove, Op.run_bind_ok looked]
      rfl
    · rw [held.run_remove behind]
      obtain ⟨blocked, _⟩ | ⟨_, blocked, _⟩ | ⟨_, _, blocked, _⟩ | ⟨_, _, done⟩ :=
        unlink_cases m obj _ _ (fits_of_link behind)
      · exact absurd begun blocked
      · exact absurd own.parent_of_sibling blocked
      · exact absurd own blocked
      · exact done

/-- Taking an object out fails and leaves a change behind just when it is torn out. -/
theorem remove_torn_iff :
    (∃ fault m', (t.remove obj).run m = (.error fault, m') ∧ m' ≠ m) ↔ t.TornOut m obj := by
  constructor
  · rintro ⟨fault, m', run, changed⟩
    obtain ⟨_, failed⟩ | ⟨_, stayed⟩ | ⟨container, holder, l, next, held, behind⟩ :=
      t.remove_cases m obj
    · cases failed.symm.trans run
      exact absurd rfl changed
    · cases stayed.symm.trans run
    rw [held.run_remove behind] at run
    obtain ⟨_, _, failed⟩ | ⟨begun, blocked, _, failed⟩ | ⟨begun, parent, blocked, _⟩ |
      ⟨_, _, done⟩ := unlink_cases m obj holder l (fits_of_link behind)
    · cases failed.symm.trans run
      exact absurd rfl changed
    · cases failed.symm.trans run
      refine .intro held behind begun (fun own => blocked own.parent_of_sibling) (.inl ?_)
      rintro rfl
      exact changed (begun.relink_self held.leads)
    · exact .intro held behind begun blocked (.inr parent)
    · cases done.symm.trans run
  · rintro (@⟨container, holder, next, l, held, behind, begun, stopped, seen⟩)
    have fits := fits_of_link behind
    rw [held.run_remove behind]
    obtain ⟨blocked, _⟩ | ⟨_, blocked, fault, run⟩ | ⟨_, parent, _, fault, run⟩ | ⟨_, own, _⟩ :=
      unlink_cases m obj _ _ fits
    · exact absurd begun blocked
    · refine ⟨fault, _, run, fun same => ?_⟩
      have after := begun.link_relink fits
      rw [same, held.leads] at after
      exact seen.elim (fun other => other (Except.ok.inj after).symm) blocked
    · refine ⟨fault, _, run, fun same => held.some ?_⟩
      have after := (parent.congr (begun.sameBounds next)).link_relink t.fits_zero
      rw [same] at after
      exact Except.ok.inj (held.inside.symm.trans after)
    · exact absurd own stopped

/-! ## Putting an object into another one -/

/-- The writes by which an object that is nowhere is put into another one. -/
def linkIn (t : ObjectTable) (obj dest : Word) : Op Memory Unit := do
  let first ← Op.query (t.child · dest)
  t.setLink obj .sibling first
  t.setLink obj .parent dest
  t.setLink dest .child obj

/-- How far the writes get depends on whether the new container can be read, and on which
links lie in dynamic memory. -/
theorem linkIn_cases (m : Memory) (dest : Word) (fits : t.Fits obj) :
    (∃ fault, t.child m dest = .error fault ∧ (t.linkIn obj dest).run m = (.error fault, m)) ∨
      ∃ first, t.child m dest = .ok first ∧
        (¬ t.LinkWritable m obj .sibling ∧
            (∃ fault, (t.linkIn obj dest).run m = (.error fault, m)) ∨
          t.LinkWritable m obj .sibling ∧ ¬ t.LinkWritable m dest .child ∧
            (∃ fault, (t.linkIn obj dest).run m =
              (.error fault, t.relink (t.relink m obj .sibling first) obj .parent dest)) ∨
          t.LinkWritable m dest .child ∧ (t.linkIn obj dest).run m = (.ok (),
            t.relink (t.relink (t.relink m obj .sibling first) obj .parent dest) dest .child obj)) := by
  cases front : t.child m dest with
  | error fault => exact .inl ⟨fault, rfl, Op.run_bind_error (congrArg (Prod.mk · m) front)⟩
  | ok first =>
      have front' : (Op.query (t.child · dest)).run m = (.ok first, m) :=
        congrArg (Prod.mk · m) front
      obtain ⟨entry, found⟩ := (link_eq_ok.mp front).1
      refine .inr ⟨first, rfl, ?_⟩
      obtain ⟨own, run⟩ | ⟨blocked, fault, run⟩ :=
        setLink_cases m obj .sibling (fits_of_link front)
      · have same := own.sameBounds first
        have parent := own.parent_of_sibling.congr same
        have same' := same.trans (parent.sameBounds dest)
        obtain ⟨_, run'⟩ | ⟨blocked, _⟩ := setLink_cases (t.relink m obj .sibling first) obj .parent
          (fits_of_entryAddr found)
        · obtain ⟨last, run''⟩ | ⟨blocked, fault, run''⟩ := setLink_cases
            (t.relink (t.relink m obj .sibling first) obj .parent dest) dest .child fits
          · refine .inr (.inr ⟨last.congr same'.symm, ?_⟩)
            rw [linkIn, Op.run_bind_ok front', Op.run_bind_ok run, Op.run_bind_ok run', run'']
          · refine .inr (.inl ⟨own, fun last => blocked (last.congr same'), fault, ?_⟩)
            rw [linkIn, Op.run_bind_ok front', Op.run_bind_ok run, Op.run_bind_ok run', run'']
        · exact absurd parent blocked
      · refine .inl ⟨blocked, fault, ?_⟩
        rw [linkIn, Op.run_bind_ok front', Op.run_bind_error run]

namespace Out

theorem sameBounds (out : t.Out m obj m') : m.SameBounds m' := by
  cases out with
  | already _ => exact .refl m
  | @taken _ holder next l _ _ begun own =>
      have same := begun.sameBounds next
      have parent := own.parent_of_sibling.congr same
      have same' := same.trans (parent.sameBounds 0)
      exact same'.trans ((own.congr same').sameBounds 0)

/-- An object that was taken out was in the table. -/
theorem fits (out : t.Out m obj m') : t.Fits obj := by
  have inside : ∃ container, t.parent m obj = .ok container := by
    cases out with
    | already nowhere => exact ⟨_, nowhere⟩
    | taken held _ _ _ => exact ⟨_, held.inside⟩
  obtain ⟨_, linked⟩ := inside
  obtain ⟨_, found⟩ := (link_eq_ok.mp linked).1
  exact fits_of_entryAddr found

end Out

theorem insert_of_out (other : obj ≠ dest) (out : t.Out m obj m') :
    (t.insert obj dest).run m = (t.linkIn obj dest).run m' := by
  rw [insert, if_neg other, Op.run_bind_ok (remove_eq_ok.mpr out)]
  rfl

theorem insert_of_failed (other : obj ≠ dest) {fault : Fault}
    (failed : (t.remove obj).run m = (.error fault, m')) :
    (t.insert obj dest).run m = (.error fault, m') := by
  rw [insert, if_neg other, Op.run_bind_error failed]

/-- An object is taken out and not put into the new container, which is no object or cannot
be given a child. -/
inductive Stranded (t : ObjectTable) (m : Memory) (obj dest : Word) : Prop where
  | nowhere {container holder next : Word} {l : Link} {fault : Fault}
      (held : t.Held m obj container holder l) (behind : t.sibling m obj = .ok next)
      (begun : t.LinkWritable m holder l) (own : t.LinkWritable m obj .sibling)
      (unread : t.child m dest = .error fault) : Stranded t m obj dest
  | halfway {first : Word} {between : Memory} (out : t.Out m obj between)
      (own : t.LinkWritable m obj .sibling) (front : t.child m dest = .ok first)
      (stopped : ¬ t.LinkWritable m dest .child) : Stranded t m obj dest

/-- An object that was linked to a new container, but not the container to it, is linked
differently than before. -/
theorem halfway_changed {first : Word} (out : t.Out m obj m') (own : t.LinkWritable m obj .sibling)
    (front : t.child m' dest = .ok first) (stopped : ¬ t.LinkWritable m dest .child) :
    t.relink (t.relink m' obj .sibling first) obj .parent dest ≠ m := by
  intro same
  obtain ⟨_, found⟩ := (link_eq_ok.mp front).1
  have own' := own.congr out.sameBounds
  have parent := own'.parent_of_sibling.congr (own'.sameBounds first)
  have after : ∀ o k, t.link m o k = if o = obj ∧ k = .parent then .ok dest
      else if o = obj ∧ k = .sibling then .ok first else t.link m' o k := by
    intro o k
    rw [← own'.link_relink_eq (fits_of_link front),
      ← parent.link_relink_eq (fits_of_entryAddr found), same]
  have inside' : t.link m obj .parent = .ok dest := by simpa using after obj .parent
  have behind' : t.link m obj .sibling = .ok first := by simpa using after obj .sibling
  cases out with
  | already nowhere =>
      cases nowhere.symm.trans inside'
      exact absurd rfl (eq_of_entryAddr found).1
  | @taken container holder next l held behind begun _ =>
      obtain rfl : container = dest := Except.ok.inj (held.inside.symm.trans inside')
      obtain rfl : next = first := Except.ok.inj (behind.symm.trans behind')
      have linked := link_unlinked begun own (fits_of_link behind)
      have leads := held.leads
      cases held with
      | first _ _ _ => exact stopped begun
      | @later head _ _ _ front' other before =>
          -- The object would have to follow itself, and then to be the first child.
          have kept : t.link (t.unlinked m obj holder .sibling next) container .child =
              .ok head := by
            rw [linked]
            simp only [reduceCtorEq, and_false, if_false]
            exact front'
          obtain rfl : head = next := Except.ok.inj (kept.symm.trans front)
          refine other ?_
          by_cases itself : holder = obj
          · rw [itself] at leads
            exact Except.ok.inj (behind.symm.trans leads)
          · have set := after holder .sibling
            rw [linked] at set
            simp only [itself, false_and, if_false, and_self, if_true] at set
            exact Except.ok.inj (set.symm.trans leads)

/-- Putting an object into another one fails and leaves a change behind just when the object is
torn out or stranded. -/
theorem insert_torn_iff :
    (∃ fault m', (t.insert obj dest).run m = (.error fault, m') ∧ m' ≠ m) ↔
      obj ≠ dest ∧ (t.TornOut m obj ∨ t.Stranded m obj dest) := by
  constructor
  · rintro ⟨fault, m', run, changed⟩
    have other : obj ≠ dest := by
      intro itself
      rw [insert, if_pos itself] at run
      cases run
      exact changed rfl
    refine ⟨other, ?_⟩
    rcases removed : (t.remove obj).run m with ⟨fault' | _, between⟩
    · cases (insert_of_failed other removed).symm.trans run
      exact .inl (remove_torn_iff.mp ⟨_, _, removed, changed⟩)
    have out := remove_eq_ok.mp removed
    rw [insert_of_out other out] at run
    right
    obtain ⟨_, unread, failed⟩ | ⟨first, front, ⟨blocked, _, failed⟩ | ⟨own, stopped, _⟩ |
      ⟨_, done⟩⟩ := linkIn_cases between dest out.fits
    · cases failed.symm.trans run
      have unread' := link_error out.sameBounds.symm.size unread
      cases out with
      | already _ => exact absurd rfl changed
      | taken held behind begun own => exact .nowhere held behind begun own unread'
    · cases failed.symm.trans run
      have blocked' : ¬ t.LinkWritable m obj .sibling := fun own =>
        blocked (own.congr out.sameBounds)
      cases out with
      | already _ => exact absurd rfl changed
      | taken _ _ _ own => exact absurd own blocked'
    · have stopped' : ¬ t.LinkWritable m dest .child := fun last =>
        stopped (last.congr out.sameBounds)
      cases front' : t.child m dest with
      | error fault => cases front.symm.trans (link_error out.sameBounds.size front')
      | ok first' => exact .halfway out (own.congr out.sameBounds.symm) front' stopped'
    · cases done.symm.trans run
  · rintro ⟨other, torn | stranded⟩
    · obtain ⟨fault, m', run, changed⟩ := remove_torn_iff.mpr torn
      exact ⟨fault, m', insert_of_failed other run, changed⟩
    cases stranded with
    | @nowhere container holder next l fault held behind begun own unread =>
        have out : t.Out m obj _ := .taken held behind begun own
        have unread' := link_error out.sameBounds.size unread
        rw [insert_of_out other out]
        refine ⟨fault, _, Op.run_bind_error (congrArg (Prod.mk · _) unread'), fun same => ?_⟩
        have after := link_unlinked begun own (fits_of_link behind) obj .parent
        rw [same] at after
        simp only [and_self, reduceCtorEq, and_false, if_false, if_true] at after
        exact held.some (Except.ok.inj (held.inside.symm.trans after))
    | @halfway first between out own front stopped =>
        rw [insert_of_out other out]
        obtain ⟨_, unread, _⟩ | ⟨first, front, ⟨blocked, _⟩ | ⟨_, _, fault, run⟩ | ⟨last, _⟩⟩ :=
          linkIn_cases between dest out.fits
        · cases front.symm.trans (link_error out.sameBounds.symm.size unread)
        · exact absurd (own.congr out.sameBounds) blocked
        · exact ⟨fault, _, run, halfway_changed out own front stopped⟩
        · exact absurd (last.congr out.sameBounds.symm) stopped

/-- **Moves that fail.** A move fails and leaves a change behind exactly if the object is torn
out of its container, or taken out and stranded. So a move that fails leaves memory as it was
if the links of the object, and the child of the new container, lie in dynamic memory. -/
theorem failed_moves_iff (t : ObjectTable) (m : Memory) (obj dest : Word) :
    ((∃ fault m', (t.remove obj).run m = (.error fault, m') ∧ m' ≠ m) ↔ t.TornOut m obj) ∧
    ((∃ fault m', (t.insert obj dest).run m = (.error fault, m') ∧ m' ≠ m) ↔
      obj ≠ dest ∧ (t.TornOut m obj ∨ t.Stranded m obj dest)) ∧
    (t.LinkWritable m obj .sibling →
      (∀ fault m', (t.remove obj).run m = (.error fault, m') → m' = m) ∧
      (t.LinkWritable m dest .child →
        ∀ fault m', (t.insert obj dest).run m = (.error fault, m') → m' = m)) := by
  refine ⟨remove_torn_iff, insert_torn_iff, fun own => ?_⟩
  have whole : ¬ t.TornOut m obj := by
    rintro ⟨_, _, _, stopped, _⟩
    exact stopped own
  refine ⟨fun fault m' run => ?_, fun last fault m' run => ?_⟩
  · by_contra changed
    exact whole (remove_torn_iff.mp ⟨fault, m', run, changed⟩)
  · by_contra changed
    obtain ⟨_, torn | ⟨_, _, _, _, unread⟩ | ⟨_, _, _, stopped⟩⟩ :=
      insert_torn_iff.mp ⟨fault, m', run, changed⟩
    · exact whole torn
    · obtain ⟨value, read⟩ := last.readable
      cases read.symm.trans unread
    · exact stopped last

/-- A story of version 3 with three objects, of which the first contains the other two. -/
def nestBytes : List Byte :=
  [3, 0, 0, 0, 0, 0xA8, 0, 0xA8, 0, 0, 0, 0x40, 0, 0, 0, 0xA0] ++ List.replicate 116 0 ++
    [2] ++ List.replicate 6 0 ++ [1, 3] ++ List.replicate 7 0 ++ [1] ++ List.replicate 21 0

def nestStory : Memory :=
  { bytes := nestBytes.toArray, pristine := nestBytes.toArray, version := 3, staticBase := 160,
    highBase := 168 }

def nestTable : ObjectTable :=
  { version := 3, addr := 0x40 }

theorem nest_loaded : Memory.load nestBytes.toArray = .ok nestStory := by
  have size : nestBytes.toArray.size = 170 := by decide +kernel
  refine Memory.load_eq_ok ⟨by decide +kernel, by decide, by decide⟩
    ⟨by decide +kernel, by decide, ?_⟩ ⟨by decide +kernel, ?_⟩ <;> rw [size] <;> decide

/-- The third object cannot be put into object 0, and it is taken out of the first: it has no
parent any more, and the second object no sibling. -/
theorem failed_insert_detaches :
    Memory.load nestBytes.toArray = .ok nestStory ∧
    nestTable.parent nestStory 3 = .ok 1 ∧ nestTable.sibling nestStory 2 = .ok 3 ∧
    ∃ m', (nestTable.insert 3 0).run nestStory = (.error .objectZero, m') ∧ m' ≠ nestStory ∧
      nestTable.parent m' 3 = .ok 0 ∧ nestTable.sibling m' 2 = .ok 0 := by
  have inside : nestTable.parent nestStory 3 = .ok 1 := by decide +kernel
  have refused : ((nestTable.insert 3 0).run nestStory).1 = .error .objectZero := by
    decide +kernel
  have detached : nestTable.parent ((nestTable.insert 3 0).run nestStory).2 3 = .ok 0 := by
    decide +kernel
  have alone : nestTable.sibling ((nestTable.insert 3 0).run nestStory).2 2 = .ok 0 := by
    decide +kernel
  rcases run : (nestTable.insert 3 0).run nestStory with ⟨ended, m'⟩
  rw [run] at refused detached alone
  refine ⟨nest_loaded, inside, by decide +kernel, m', congrArg (Prod.mk · m') refused, ?_,
    detached, alone⟩
  rintro rfl
  cases inside.symm.trans detached

end ZMachine.ObjectTable
