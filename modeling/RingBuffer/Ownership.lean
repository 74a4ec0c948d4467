import RingBuffer.Frame
import RingBuffer.Lib.Ledger

/-! # Who owns which block

An object's ticket for its block is the triple it will pass back to the
allocator: block, element count, allocator. Through every special member the
tickets of a program stay a sound ledger.
-/

namespace Dkyb

open Stateful

variable {T A : Type}

/-- What the destructor would deallocate, and through which allocator. -/
def RingBuffer.ticket (rb : RingBuffer A) : Option (Nat × Nat × A) :=
  rb.buffer_.map fun block => (block, rb.capacity_, rb.allocator_)

theorem RingBuffer.ticket_of_storage {rb rb' : RingBuffer A} (h : rb.storage = rb'.storage) :
    rb.ticket = rb'.ticket := by
  obtain ⟨buffer, capacity, allocator⟩ : rb.buffer_ = rb'.buffer_ ∧
      rb.capacity_ = rb'.capacity_ ∧ rb.allocator_ = rb'.allocator_ := by
    simpa [RingBuffer.storage] using h
  simp only [RingBuffer.ticket, buffer, capacity, allocator]

/-! ## The books of one state -/

namespace State

variable (s : State T A)

@[simp] theorem deallocated_allocations :
    s.deallocated.mem.allocations = s.mem.allocations := by
  unfold deallocated
  cases s.this.buffer_ <;> rfl

theorem deallocated_deallocations : s.deallocated.mem.deallocations =
    s.this.ticket.toList ++ s.mem.deallocations := by
  simp only [deallocated, RingBuffer.ticket]
  cases s.this.buffer_ <;> rfl

/-- `clear()` and the deallocation that follows it everywhere. -/
theorem emptied_books :
    s.cleared.deallocated.mem.allocations = s.mem.allocations ∧
      s.cleared.deallocated.mem.deallocations = s.this.ticket.toList ++ s.mem.deallocations ∧
      s.cleared.deallocated.mem.next = s.mem.next ∧
      s.cleared.deallocated.mem.fuse = s.mem.fuse := by
  have frame := Frame.cleared s
  refine ⟨?_, ?_, ?_, ?_⟩
  · rw [deallocated_allocations, frame.allocations]
  · rw [deallocated_deallocations, frame.deallocations,
      RingBuffer.ticket_of_storage frame.storage]
  · rw [deallocated_next, frame.next]
  · rw [deallocated_fuse, frame.fuse]

end State

namespace Heap

/-- Which object holds which ticket. -/
def holding (h : Heap T A) (i : Nat) : Option (Nat × Nat × A) :=
  (h.objects i).bind RingBuffer.ticket

structure Owned (h : Heap T A) : Prop where
  sound : Ledger.Sound Prod.fst h.holding h.mem.allocations h.mem.deallocations
  below : ∀ t ∈ h.mem.allocations, t.1 < h.mem.next
  quiet : h.mem.fuse = none

theorem holding_of_some {h : Heap T A} {i : Nat} {rb : RingBuffer A} (found : h.objects i = some rb) :
    h.holding i = rb.ticket := by
  rw [holding, found]
  rfl

theorem holding_of_none {h : Heap T A} {i : Nat} (absent : h.objects i = none) :
    h.holding i = none := by
  rw [holding, absent]
  rfl

theorem holding_update (objects : Nat → Option (RingBuffer A)) (m : Memory T A) (i : Nat)
    (o : Option (RingBuffer A)) : (⟨Function.update objects i o, m⟩ : Heap T A).holding =
      Function.update (⟨objects, m⟩ : Heap T A).holding i (o.bind RingBuffer.ticket) := by
  funext k
  by_cases here : k = i
  · subst here
    simp only [holding, Function.update_self]
  · simp only [holding, Function.update_of_ne here]

theorem holding_put (h : Heap T A) (i : Nat) (s : State T A) :
    (h.put i s).holding = Function.update h.holding i s.this.ticket :=
  holding_update h.objects s.mem i (some s.this)

namespace Owned

variable {h : Heap T A} {i j : Nat} {rb other : RingBuffer A} {returned : List (Nat × Nat × A)}
  {traits : AllocatorTraits A}

theorem empty : (Heap.empty : Heap T A).Owned where
  sound := .empty
  below _ member := absurd member List.not_mem_nil
  quiet := rfl

theorem fresh (owned : h.Owned) : h.mem.next ∉ h.mem.allocations.map Prod.fst := by
  intro member
  obtain ⟨t, inside, same⟩ := List.mem_map.mp member
  have := owned.below t inside
  omega

/-- An operation on one object that keeps the storage and the books. -/
theorem framed (owned : h.Owned) (found : h.objects i = some rb) {s : State T A}
    (frame : Frame ⟨rb, h.mem⟩ s) : (h.put i s).Owned := by
  have unchanged : (h.put i s).holding = h.holding := by
    rw [holding_put, RingBuffer.ticket_of_storage frame.storage, ← holding_of_some found,
      Function.update_eq_self]
  exact {
    sound := by
      rw [unchanged]
      simpa only [put, frame.allocations, frame.deallocations] using owned.sound
    below := by simpa only [put, frame.allocations, frame.next] using owned.below
    quiet := frame.fuse.trans owned.quiet }

/-- An object without a block gets the block that was just allocated. -/
theorem allocated (sound : Ledger.Sound Prod.fst (Function.update h.holding i none)
      h.mem.allocations returned) (owned : h.Owned) {s : State T A} {t : Nat × Nat × A}
    (block : t.1 = h.mem.next) (ticket : s.this.ticket = some t)
    (allocations : s.mem.allocations = t :: h.mem.allocations)
    (deallocations : s.mem.deallocations = returned) (next : s.mem.next = h.mem.next + 1)
    (quiet : s.mem.fuse = none) : (h.put i s).Owned where
  sound := by
    rw [holding_put, ticket]
    have acquired := sound.acquire (Function.update_self i none h.holding)
      (by rw [block]; exact owned.fresh : t.1 ∉ h.mem.allocations.map Prod.fst)
    rw [Function.update_idem] at acquired
    simpa only [put, allocations, deallocations] using acquired
  below := by
    intro u member
    simp only [put, allocations, next] at member ⊢
    cases List.mem_cons.mp member with
    | inl same => rw [same, block]; exact Nat.lt_succ_self _
    | inr older => exact Nat.lt_succ_of_lt (owned.below u older)
  quiet := quiet

/-! ## One statement -/

theorem create (owned : h.Owned) (absent : h.objects i = none) {capacity : Nat}
    (pos : 0 < capacity) (allocator : A) :
    (h.construct i allocator (RingBuffer.create capacity allocator)).Owned := by
  have run := run_create (s := ⟨RingBuffer.blank allocator, h.mem⟩) owned.quiet pos allocator
  simp only [construct, run]
  have idle := owned.sound.give_back i
  rw [holding_of_none absent] at idle
  exact allocated idle owned rfl rfl rfl rfl rfl owned.quiet

theorem copyConstruct (owned : h.Owned) (absent : h.objects i = none) (other : RingBuffer A) :
    (h.construct i other.allocator_ (RingBuffer.copyConstruct traits other)).Owned := by
  have run := run_copyConstruct (s := ⟨RingBuffer.blank other.allocator_, h.mem⟩) owned.quiet traits
    other
  simp only [construct, run]
  have idle := owned.sound.give_back i
  rw [holding_of_none absent] at idle
  have frame := Frame.copied (((⟨RingBuffer.blank other.allocator_, h.mem⟩ : State T A).allocated
    (traits.selectOnContainerCopyConstruction other.allocator_) other.capacity_).mapThis fun _ =>
      { other with
        allocator_ := traits.selectOnContainerCopyConstruction other.allocator_
        buffer_ := some h.mem.next
        justOverwrote_ := false
        overwritePosition_ := 0 }) other other.count_
  exact allocated idle owned rfl (RingBuffer.ticket_of_storage frame.storage) frame.allocations
    frame.deallocations frame.next (frame.fuse.trans owned.quiet)

/-- A block changes hands. -/
theorem moved (sound : Ledger.Sound Prod.fst (Function.update h.holding i none)
      h.mem.allocations returned) (owned : h.Owned) (apart : i ≠ j)
    (found : h.objects j = some other) {s : State T A} (ticket : s.this.ticket = other.ticket)
    (allocations : s.mem.allocations = h.mem.allocations)
    (deallocations : s.mem.deallocations = returned) (next : s.mem.next = h.mem.next)
    (quiet : s.mem.fuse = none) :
    ((h.put i s).put j ⟨other.movedFrom traits, s.mem⟩).Owned where
  sound := by
    have handed := sound.hand_over apart (Function.update_self i none h.holding)
    rw [Function.update_idem, Function.update_of_ne apart.symm, holding_of_some found] at handed
    rw [holding_put, holding_put, ticket]
    simp only [put, allocations, deallocations]
    exact handed
  below := by
    intro t member
    simp only [put, allocations, next] at member ⊢
    exact owned.below t member
  quiet := quiet

theorem moveConstruct (owned : h.Owned) (absent : h.objects i = none)
    (found : h.objects j = some other) :
    ((h.put i ((⟨RingBuffer.blank other.allocator_, h.mem⟩ : State T A).moveConstructed other)).put j
      ⟨other.movedFrom traits, h.mem⟩).Owned := by
  have apart : i ≠ j := by
    rintro rfl
    rw [absent] at found
    cases found
  have idle := owned.sound.give_back i
  rw [holding_of_none absent] at idle
  exact moved idle owned apart found rfl rfl rfl rfl owned.quiet

theorem copyAssign (owned : h.Owned) (found : h.objects i = some rb) (other : RingBuffer A) :
    (h.put i ((⟨rb, h.mem⟩ : State T A).copyAssigned traits other)).Owned := by
  obtain ⟨allocations, deallocations, next, fuse⟩ := (⟨rb, h.mem⟩ : State T A).emptied_books
  have idle := owned.sound.give_back i
  rw [holding_of_some found, ← deallocations] at idle
  have frame := Frame.copied ((⟨rb, h.mem⟩ : State T A).retargeted traits other) other other.count_
  refine allocated idle owned next (RingBuffer.ticket_of_storage frame.storage) ?_
    frame.deallocations (frame.next.trans (congrArg (· + 1) next))
    (frame.fuse.trans (fuse.trans owned.quiet))
  rw [← allocations]
  exact frame.allocations

theorem moveAssign (owned : h.Owned) (apart : i ≠ j) (target : h.objects i = some rb)
    (found : h.objects j = some other) :
    ((h.put i ((⟨rb, h.mem⟩ : State T A).moveAssigned other)).put j
      ⟨other.movedFrom traits, ((⟨rb, h.mem⟩ : State T A).moveAssigned other).mem⟩).Owned := by
  obtain ⟨allocations, deallocations, next, fuse⟩ := (⟨rb, h.mem⟩ : State T A).emptied_books
  have idle := owned.sound.give_back i
  rw [holding_of_some target, ← deallocations] at idle
  exact moved idle owned apart found rfl allocations rfl next (fuse.trans owned.quiet)

theorem destroy (owned : h.Owned) (found : h.objects i = some rb) :
    (⟨Function.update h.objects i none, (⟨rb, h.mem⟩ : State T A).cleared.deallocated.mem⟩ :
      Heap T A).Owned := by
  obtain ⟨allocations, deallocations, next, fuse⟩ := (⟨rb, h.mem⟩ : State T A).emptied_books
  have idle := owned.sound.give_back i
  rw [holding_of_some found, ← deallocations] at idle
  exact {
    sound := by
      rw [holding_update, allocations]
      exact idle
    below := by
      rw [allocations, next]
      exact owned.below
    quiet := fuse.trans owned.quiet }

/-- Step lemma: one statement keeps the ledger sound. -/
theorem exec (owned : h.Owned) {statement : Statement T A} {h' : Heap T A}
    (positive : ∀ i c a, statement = .create i c a → 0 < c)
    (executes : Executes traits h statement h') : h'.Owned := by
  cases executes with
  | create i c a absent => exact owned.create absent (positive i c a rfl) a
  | copyConstruct i j other absent found => exact owned.copyConstruct absent other
  | moveConstruct i j other absent found => exact owned.moveConstruct absent found
  | copyAssign i j rb other apart target found => exact owned.copyAssign target other
  | copyAssignSelf i rb target => exact owned.framed target (.refl _)
  | moveAssign i j rb other apart target found => exact owned.moveAssign apart target found
  | moveAssignSelf i rb target =>
      have once : (h.put i ⟨rb, h.mem⟩).Owned := owned.framed target (.refl _)
      exact once.framed (Function.update_self ..) (.refl _)
  | call i call rb found =>
      exact owned.framed found (Frame.perform (s := ⟨rb, h.mem⟩) owned.quiet call)
  | destroy i rb found => exact owned.destroy found

/-- Run lemma. -/
theorem run (owned : h.Owned) {program : List (Statement T A)}
    (positive : ∀ i c a, .create i c a ∈ program → 0 < c) {h' : Heap T A}
    (ran : h.run traits program = some h') : h'.Owned := by
  induction program generalizing h with
  | nil =>
      cases ran
      exact owned
  | cons statement program ih =>
      simp only [Heap.run, List.foldlM_cons, Option.bind_eq_bind, Option.bind_eq_some_iff] at ran
      obtain ⟨next, stepped, rest⟩ := ran
      refine ih ?_ (fun i c a member => positive i c a (List.mem_cons_of_mem _ member)) rest
      refine owned.exec ?_ (executes_of_exec owned.quiet stepped)
      rintro i c a rfl
      exact positive i c a List.mem_cons_self

end Owned

end Heap

/-- After any program over any number of objects: no two share a block, every
    block an object holds is outstanding, every block was given back at most once
    and as it was handed out, and all of them were once no object is left. -/
theorem storage_ownership (traits : AllocatorTraits A) (program : List (Statement T A))
    (positive : ∀ i c a, .create i c a ∈ program → 0 < c) (h : Heap T A)
    (ran : Heap.empty.run traits program = some h) :
    (∀ i j rb rb' block, h.objects i = some rb → h.objects j = some rb' →
      rb.buffer_ = some block → rb'.buffer_ = some block → i = j) ∧
    (h.mem.allocations.map Prod.fst).Nodup ∧ (h.mem.deallocations.map Prod.fst).Nodup ∧
    (∀ t ∈ h.mem.deallocations, t ∈ h.mem.allocations) ∧
    (∀ t, (∃ i rb, h.objects i = some rb ∧ rb.ticket = some t) ↔
      t ∈ h.mem.allocations ∧ t ∉ h.mem.deallocations) ∧
    ((∀ i, h.objects i = none) → h.mem.allocations.Perm h.mem.deallocations) := by
  have sound := (Heap.Owned.empty.run positive ran).sound
  refine ⟨?_, sound.distinct, sound.once, sound.known, ?_, ?_⟩
  · intro i j rb rb' block foundI foundJ holdsI holdsJ
    refine sound.exclusive i j (block, rb.capacity_, rb.allocator_)
      (block, rb'.capacity_, rb'.allocator_) ?_ ?_ rfl
    · rw [Heap.holding_of_some foundI, RingBuffer.ticket, holdsI]
      rfl
    · rw [Heap.holding_of_some foundJ, RingBuffer.ticket, holdsJ]
      rfl
  · intro t
    constructor
    · rintro ⟨i, rb, found, ticket⟩
      exact sound.held i t ((Heap.holding_of_some found).trans ticket)
    · rintro ⟨member, outstanding⟩
      obtain ⟨i, holds⟩ := (sound.settled t member).resolve_left outstanding
      obtain ⟨rb, found, ticket⟩ := Option.bind_eq_some_iff.mp holds
      exact ⟨i, rb, found, ticket⟩
  · intro gone
    exact sound.perm_of_idle fun i => Heap.holding_of_none (gone i)

/-- Copy, move away, assign to the moved-from object, assign to itself, destroy. -/
theorem storage_ownership_two :
    let program : List (Statement Nat Unit) :=
      [.create 0 2 (), .call 0 (.update (.pushBack 5)), .copyConstruct 1 0, .moveConstruct 2 0,
        .copyAssign 0 1, .moveAssign 1 2, .copyAssign 1 1, .destroy 0, .destroy 1, .destroy 2]
    ∃ h, Heap.empty.run ⟨true, id, id⟩ program = some h ∧
      h.mem.allocations.Perm h.mem.deallocations := by
  intro program
  refine ⟨_, rfl, ?_⟩
  have positive : ∀ i c a, .create i c a ∈ program → 0 < c := by simp [program]
  refine (storage_ownership _ program positive _ rfl).2.2.2.2.2 fun i => ?_
  rcases i with _ | _ | _ | i <;> rfl

end Dkyb
