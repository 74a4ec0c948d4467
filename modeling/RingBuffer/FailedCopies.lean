import RingBuffer.IndexSafety
import RingBuffer.Lifetime
import RingBuffer.Ownership

/-! # What failed copies leave behind

A constructor that throws after its allocation leaves the block and the elements
it has built to nobody: the destructor will not run. A copy assignment that
throws leaves an object whose destructor will run, on a block it no longer owns
or on elements that were never built.
-/

namespace Dkyb

open Stateful Transitions

variable {T A : Type}

/-! ## Constructors -/

/-- Every block allocated between the two was deallocated, and no slot in which
    an element was constructed holds one. -/
def LeavesNothing (m m' : Memory T A) : Prop := ∃ events, m'.trace = events ++ m.trace ∧
  (∀ block n a, .allocate block n a ∈ events → .deallocate block n a ∈ events) ∧
  ∀ p live, .construct p live ∈ events → (m'.slots p).live = false

namespace LeavesNothing

variable {m m' : Memory T A}

theorem of_same (same : m'.trace = m.trace) : LeavesNothing m m' :=
  ⟨[], same, fun _ _ _ => nofun, fun _ _ => nofun⟩

/-- Not when one block more was handed out and none given back. -/
theorem not_leaked (h : LeavesNothing m m') {t : Nat × Nat × A}
    (allocations : m'.allocations = t :: m.allocations)
    (deallocations : m'.deallocations = m.deallocations) : False := by
  obtain ⟨events, trace, returned, -⟩ := h
  have issued : events.filterMap Event.allocated = [t] := by
    rw [Memory.allocations, trace, List.filterMap_append] at allocations
    exact List.append_cancel_right allocations
  have kept : events.filterMap Event.deallocated = [] := by
    rw [Memory.deallocations, trace, List.filterMap_append] at deallocations
    exact List.append_left_eq_self.mp deallocations
  obtain ⟨e, member, same⟩ := List.mem_filterMap.mp (issued ▸ List.mem_singleton_self t)
  cases e with
  | allocate block n a =>
      have back : (block, n, a) ∈ events.filterMap Event.deallocated :=
        List.mem_filterMap.mpr ⟨_, returned block n a member, rfl⟩
      rw [kept] at back
      cases back
  | _ => cases same

end LeavesNothing

namespace State

variable (s : State T A) (other : RingBuffer A) (j : Nat)

theorem interrupted_allocations :
    (s.interrupted other j).mem.allocations = s.mem.allocations :=
  (Frame.copied s other j).allocations

theorem interrupted_deallocations :
    (s.interrupted other j).mem.deallocations = s.mem.deallocations :=
  (Frame.copied s other j).deallocations

end State

section Constructors

variable (s : State T A)

theorem create_leavesNothing_iff (capacity : Nat) (allocator : A) :
    (∀ e s', (RingBuffer.create capacity allocator).run s = .error e s' →
      LeavesNothing s.mem s'.mem) ↔ capacity ≠ 0 ∨ s.mem.fuse = some 0 := by
  by_cases burnt : s.mem.fuse = some 0
  · refine iff_of_true (fun e s' run => ?_) (.inr burnt)
    have armed := State.armed_of_fuse burnt
    rw [← armed, run_create_zero] at run
    cases run
    exact .of_same rfl
  · by_cases positive : capacity = 0
    · subst positive
      refine iff_of_false (fun clean => ?_) (by simp [burnt])
      have left := clean _ _ (run_create_refused burnt allocator)
      exact left.not_leaked (t := (s.mem.next, 0, allocator)) rfl rfl
    · refine iff_of_true (fun e s' run => ?_) (.inl positive)
      obtain ⟨s', returned⟩ := run_create_ready burnt positive allocator
      rw [returned] at run
      cases run

theorem copyConstruct_leavesNothing_iff (traits : AllocatorTraits A) (other : RingBuffer A) :
    (∀ e s', (RingBuffer.copyConstruct traits other).run s = .error e s' →
      LeavesNothing s.mem s'.mem) ↔ ∀ j, s.mem.fuse = some (j + 1) → other.count_ ≤ j := by
  rcases copyConstruct_cases s traits other with
    ⟨fuse, run⟩ | ⟨j, missing, fuse, run⟩ | ⟨enough, _, run⟩
  · refine iff_of_true (fun e s' run' => ?_) fun j same => ?_
    · rw [run] at run'
      cases run'
      exact .of_same rfl
    · rw [fuse] at same
      cases same
  · refine iff_of_false (fun clean => ?_) fun all => ?_
    · have left := clean _ _ run
      exact left.not_leaked ((s.duplicated traits other).interrupted_allocations other j)
        ((s.duplicated traits other).interrupted_deallocations other j)
    · exact Nat.not_le.mpr missing (all j fuse)
  · refine iff_of_true (fun e s' run' => ?_) fun j same => Nat.le_of_lt_succ (enough _ same)
    rw [run] at run'
    cases run'

end Constructors

/-- In every state: the capacity constructor leaves nothing behind exactly when it
    does not get as far as refusing a capacity of 0, the copy constructor exactly
    when no copy of an element throws. -/
theorem failed_constructor_leaves_nothing_iff (traits : AllocatorTraits A) (s : State T A) :
    (∀ capacity allocator,
      (∀ e s', (RingBuffer.create capacity allocator).run s = .error e s' →
        LeavesNothing s.mem s'.mem) ↔ capacity ≠ 0 ∨ s.mem.fuse = some 0) ∧
      ∀ other,
        (∀ e s', (RingBuffer.copyConstruct traits other).run s = .error e s' →
          LeavesNothing s.mem s'.mem) ↔ ∀ j, s.mem.fuse = some (j + 1) → other.count_ ≤ j :=
  ⟨create_leavesNothing_iff s, copyConstruct_leavesNothing_iff s traits⟩

/-- A capacity of 0 leaks a block. A copy of two elements whose second one throws
    leaks a block with the first one in it. -/
theorem failed_constructor_leaves_nothing_fails :
    let s := (State.created 2 () : State Nat Unit).after [.pushBack 5, .pushBack 6]
    let source : State Nat Unit := ⟨RingBuffer.blank (), s.mem⟩
    (∃ s', (RingBuffer.create 0 ()).run source =
        .error (.invalidArgument "Ring buffer capacity must be greater than 0") s' ∧
      s'.mem.allocations = (1, 0, ()) :: s.mem.allocations ∧ s'.mem.deallocations = [] ∧
      ¬ LeavesNothing source.mem s'.mem) ∧
    ∃ s', (RingBuffer.copyConstruct ⟨false, id, id⟩ s.this).run (source.armed (some 2)) =
        .error .element s' ∧
      s'.mem.allocations = (1, 2, ()) :: s.mem.allocations ∧ s'.mem.deallocations = [] ∧
      (s'.mem.slots ⟨some 1, 0⟩).live = true ∧ ¬ LeavesNothing source.mem s'.mem := by
  refine ⟨⟨_, rfl, rfl, rfl, ?_⟩, ⟨_, rfl, rfl, rfl, rfl, ?_⟩⟩
  · exact fun left => left.not_leaked (t := (1, 0, ())) rfl rfl
  · exact fun left => left.not_leaked (t := (1, 2, ())) rfl rfl

/-! ## Assignment -/

/-- The object holds a block it can give back as it was handed out, and its live
    slots are the ones it counts, or it holds no block and counts nothing. -/
structure ValidTarget (s : State T A) : Prop where
  block : ∀ block, s.this.buffer_ = some block →
    (∃ allocator, (block, s.this.capacity_, allocator) ∈ s.mem.allocations) ∧
      ∀ t ∈ s.mem.deallocations, t.1 ≠ block
  occupied : s.this.buffer_.isSome = true → OccupiedLive s
  idle : s.this.buffer_ = none → s.this.count_ = 0

/-- The destructor destroys live elements only, and gives back no block but one
    that was handed out with that count and not given back before. -/
def FinishesSafely (s : State T A) : Prop :=
  ∃ events, (final RingBuffer.finish s).mem.trace = events ++ s.mem.trace ∧
    (∀ p live, .destroy p live ∈ events → live = true) ∧
    ∀ block n a, .deallocate block n a ∈ events →
      (∃ a', (block, n, a') ∈ s.mem.allocations) ∧ ∀ t ∈ s.mem.deallocations, t.1 ≠ block

/-- Over live slots, the loop in `clear()` destroys live elements only. -/
theorem State.vacated_events (s : State T A) {n : Nat} (bound : n ≤ s.this.capacity_)
    (live : ∀ i < n, (s.mem.slots (s.occupiedPtr i)).live = true) :
    ∃ events, (s.vacated n).mem.trace = events ++ s.mem.trace ∧
      (∀ p live, .destroy p live ∈ events → live = true) ∧
      ∀ block m a, .deallocate block m a ∉ events := by
  induction n with
  | zero => exact ⟨[], rfl, fun _ _ member => absurd member List.not_mem_nil,
      fun _ _ _ member => absurd member List.not_mem_nil⟩
  | succ n ih =>
      obtain ⟨events, trace, destroyed, kept⟩ := ih (Nat.le_of_succ_le bound)
        fun i below => live i (Nat.lt_succ_of_lt below)
      have last : ((s.vacated n).mem.slots (s.occupiedPtr n)).live = true := by
        rcases s.vacated_slots n (s.occupiedPtr n) with ⟨⟨i, below, same⟩, -⟩ | ⟨-, untouched⟩
        · have again := congrArg Ptr.index same
          have := Cyclic.position_injective (Nat.lt_of_succ_le bound) (by omega) again
          omega
        · rw [untouched]
          exact live n (Nat.lt_succ_self n)
      have here : (s.vacated n).occupiedPtr n = s.occupiedPtr n := by
        simp only [occupiedPtr, vacated_this]
      refine ⟨.destroy (s.occupiedPtr n) true ::
        .subscript s.this.buffer_ ((s.this.head_ + n) % s.this.capacity_) s.this.capacity_ ::
        .modulo s.this.capacity_ :: events, ?_, fun p live member => ?_, fun block m a member => ?_⟩
      · simp only [vacated, vacated_this, here, last, trace, List.cons_append]
      · simp only [List.mem_cons, Event.destroy.injEq, reduceCtorEq, false_or] at member
        rcases member with ⟨-, same⟩ | earlier
        · exact same
        · exact destroyed p live earlier
      · simp only [List.mem_cons, reduceCtorEq, false_or] at member
        exact kept block m a member

theorem ValidTarget.finishes {s : State T A} (valid : ValidTarget s) (indexed : s.this.Indexed) :
    FinishesSafely s := by
  have occupied : ∀ i < s.this.count_, (s.mem.slots (s.occupiedPtr i)).live = true := by
    intro i inside
    have nonempty := Nat.ne_zero_of_lt inside
    exact (valid.occupied (indexed.block nonempty) _).mpr ⟨i, inside, rfl⟩
  have bound : s.this.count_ ≤ s.this.capacity_ := by
    rcases indexed.cursors with ⟨_, empty, _⟩ | counted
    · rw [empty]
      exact Nat.zero_le _
    · exact counted.count
  obtain ⟨events, trace, destroyed, kept⟩ := s.vacated_events bound occupied
  have same : s.cleared.this = s.this.reset := congrArg RingBuffer.reset (s.vacated_this _)
  rw [FinishesSafely, final_of_run (run_finish s)]
  unfold State.deallocated
  rw [same]
  cases held : s.this.reset.buffer_ with
  | none => exact ⟨events, trace, destroyed, fun block n a member => absurd member (kept block n a)⟩
  | some block =>
      refine ⟨.deallocate block s.this.capacity_ s.this.allocator_ :: events, ?_,
        fun p live member => ?_, fun block' n a member => ?_⟩
      · exact congrArg (Event.deallocate block s.this.capacity_ s.this.allocator_ :: ·) trace
      · rcases List.mem_cons.mp member with other | earlier
        · cases other
        · exact destroyed p live earlier
      · rcases List.mem_cons.mp member with this | earlier
        · cases this
          exact valid.block block held
        · exact absurd earlier (kept block' n a)

namespace State

variable (s : State T A) (traits : AllocatorTraits A) (other : RingBuffer A)

/-- The rounds of the element loop bring the first slots of the block to life. -/
theorem copied_live (n k : Nat) : ((s.copied other n).cell k).live = true ↔
    k < n ∨ (s.cell k).live = true := by
  induction n with
  | zero => simp [copied]
  | succ n ih =>
      unfold cell at ih ⊢
      simp only [copied, copied_this] at ih ⊢
      by_cases last : k = n
      · subst last
        simp
      · rw [Function.update_of_ne (by simpa using last), ih, Nat.lt_succ_iff_lt_or_eq]
        simp only [last, or_false]

theorem retargeted_cell (k : Nat) : (s.retargeted traits other).cell k = .raw := by
  have fresh := s.cleared.deallocated.mem.grow_slots ⟨some s.cleared.deallocated.mem.next, k⟩
  rw [if_pos rfl] at fresh
  exact fresh

theorem interrupted_live (j k : Nat) :
    (((s.retargeted traits other).interrupted other j).cell k).live = true ↔ k < j := by
  have copied := (s.retargeted traits other).copied_live other j k
  rw [retargeted_cell] at copied
  simpa [cell] using copied

/-- Without a new block the old one is still there and was given back. -/
theorem stranded_valid_iff :
    ValidTarget ((s.stranded traits other).armed none) ↔ s.this.buffer_ = none := by
  have buffer : (s.stranded traits other).this.buffer_ = s.this.buffer_ := by
    simp only [stranded, mapThis_this, deallocated_this, cleared, vacated_this, RingBuffer.reset]
  have count : (s.stranded traits other).this.count_ = 0 := by
    simp only [stranded, mapThis_this, deallocated_this, cleared, vacated_this, RingBuffer.reset]
  have returned : (s.stranded traits other).mem.deallocations =
      s.this.ticket.toList ++ s.mem.deallocations := s.emptied_books.2.1
  cases held : s.this.buffer_ with
  | none =>
      refine iff_of_true ⟨fun block holds => ?_, fun holds => ?_, fun _ => count⟩ rfl
      · rw [armed_this, buffer, held] at holds
        cases holds
      · rw [armed_this, buffer, held] at holds
        cases holds
  | some block =>
      refine iff_of_false (fun valid => ?_) (Option.some_ne_none block)
      have kept := (valid.block block (buffer.trans held)).2
      refine kept (block, s.this.capacity_, s.this.allocator_) ?_ rfl
      have given : (block, s.this.capacity_, s.this.allocator_) ∈
          s.this.ticket.toList ++ s.mem.deallocations := by
        simp [RingBuffer.ticket, held]
      rwa [← returned] at given

end State

/-- Fewer elements were built than the target counts. -/
theorem not_valid_interrupted {s : State T A} {rb other : RingBuffer A} (here : At rb s)
    (target : rb.Indexed) (source : other.Indexed) (traits : AllocatorTraits A) {j : Nat}
    (missing : j < other.count_) :
    ¬ ValidTarget ((s.retargeted traits other).interrupted other j) := by
  intro valid
  have copy : CopyOf other (s.retargeted traits other) := .retargeted here target traits
  have occupied : OccupiedLive ((s.retargeted traits other).interrupted other j) := by
    apply valid.occupied
    rw [State.interrupted_this]
    exact copy.block
  have bound := (source.counted (Nat.ne_zero_of_lt missing)).count
  have below : ∀ i < other.count_, (other.head_ + i) % other.capacity_ < j := by
    intro i inside
    rw [← s.interrupted_live traits other, occupied, State.interrupted_this, copy.head, copy.count,
      copy.capacity]
    exact ⟨i, inside, rfl⟩
  have := Cyclic.count_le_of_positions_lt bound below
  omega

theorem copyAssign_valid_iff {s : State T A} {rb other : RingBuffer A} (here : At rb s)
    (target : rb.Indexed) (source : other.Indexed) (traits : AllocatorTraits A) :
    (∀ e s', (RingBuffer.copyAssign traits false other).run s = .error e s' → ValidTarget s') ↔
      (s.mem.fuse = some 0 → rb.buffer_ = none) ∧
        ∀ k, s.mem.fuse = some (k + 1) → other.count_ ≤ k := by
  rcases copyAssign_cases s traits other with
    ⟨fuse, run⟩ | ⟨j, missing, fuse, run⟩ | ⟨enough, _, run⟩
  · have valid := s.stranded_valid_iff traits other
    rw [here.this] at valid
    constructor
    · intro all
      refine ⟨fun _ => valid.mp (all _ _ run), fun k same => ?_⟩
      rw [fuse] at same
      cases same
    · rintro ⟨unowned, -⟩ e s' run'
      rw [run] at run'
      cases run'
      exact valid.mpr (unowned fuse)
  · refine iff_of_false (fun all => ?_) fun both => Nat.not_le.mpr missing (both.2 j fuse)
    exact not_valid_interrupted here target source traits missing (all _ _ run)
  · refine iff_of_true (fun e s' run' => ?_) ⟨fun burnt => ?_, fun k same => ?_⟩
    · rw [run] at run'
      cases run'
    · exact absurd (enough 0 burnt) (Nat.not_lt_zero _)
    · exact Nat.le_of_lt_succ (enough _ same)

theorem finishes_of_failed_copyAssign {s s' : State T A} {rb other : RingBuffer A} (here : At rb s)
    (target : rb.Indexed) (source : other.Indexed) (traits : AllocatorTraits A) {e : Exn}
    (run : (RingBuffer.copyAssign traits false other).run s = .error e s') (valid : ValidTarget s') :
    FinishesSafely s' := by
  obtain ⟨rb', left, addressable⟩ := copyAssign_ends traits here target source
  rw [final_of_error run] at left
  have indexed := addressable.indexed
  rw [← left.this] at indexed
  exact valid.finishes indexed

/-- Between any two objects of a program, wherever it fails: a copy assignment
    leaves a valid target exactly when no copy of an element throws, and the
    allocation only does for a target that had no block to give back. The
    destructor of a valid target does no harm. -/
theorem failed_copyAssign_valid_iff (traits : AllocatorTraits A) {w : World T A}
    (run : Reaches (World.step traits) World.Allowed World.start w) {i j : Nat} (apart : i ≠ j)
    {rb other : RingBuffer A} (target : w.1.objects i = some rb) (source : w.1.objects j = some other)
    (fuse : Option Nat) :
    ((∀ e s', (RingBuffer.copyAssign traits (i == j) other).run ⟨rb, (w.1.armed fuse).mem⟩ =
      .error e s' → ValidTarget s') ↔
      (fuse = some 0 → rb.buffer_ = none) ∧ ∀ k, fuse = some (k + 1) → other.count_ ≤ k) ∧
    ∀ e s', (RingBuffer.copyAssign traits (i == j) other).run ⟨rb, (w.1.armed fuse).mem⟩ =
      .error e s' → ValidTarget s' → FinishesSafely s' := by
  have safe := World.Safe.reached run
  have here : At rb (⟨rb, (w.1.armed fuse).mem⟩ : State T A) := ⟨rfl, safe.inRange⟩
  rw [beq_eq_false_iff_ne.mpr apart]
  have targets := (safe.objects i rb target).indexed
  have sources := (safe.objects j other source).indexed
  exact ⟨copyAssign_valid_iff here targets sources traits,
    fun _ _ => finishes_of_failed_copyAssign here targets sources traits⟩

/-- A target that was moved from gets no block and is as valid as before. -/
theorem failed_copyAssign_valid_two : ∃ (w : World Nat Unit) (rb other : RingBuffer Unit),
    w.1.objects 0 = some rb ∧ w.1.objects 1 = some other ∧
      ∀ e s', (RingBuffer.copyAssign ⟨false, id, id⟩ (0 == 1) other).run
        ⟨rb, (w.1.armed (some 0)).mem⟩ = .error e s' → ValidTarget s' := by
  let program : List (Attempt Nat Unit) :=
    [⟨none, .statement (.create 0 2 ())⟩, ⟨none, .use 0 (.modify (.insert (.pushBack (.value 5))))⟩,
      ⟨none, .statement (.moveConstruct 1 0)⟩]
  have ran : (exec (World.step ⟨false, id, id⟩) World.Allowed World.start program).map
      (fun w => ((w.1.objects 0).map RingBuffer.buffer_, (w.1.objects 1).map RingBuffer.count_)) =
      some (some none, some 1) := by decide +kernel
  obtain ⟨w, ran, facts⟩ := Option.map_eq_some_iff.mp ran
  obtain ⟨moved, taken⟩ := Prod.mk.inj facts
  obtain ⟨rb, target, unowned⟩ := Option.map_eq_some_iff.mp moved
  obtain ⟨other, source, -⟩ := Option.map_eq_some_iff.mp taken
  refine ⟨w, rb, other, target, source, ?_⟩
  exact (failed_copyAssign_valid_iff _ (Reaches.of_exec ran) (by decide) target source _).1.mpr
    ⟨fun _ => unowned, nofun⟩

/-- Two objects of capacity 2 that hold two elements each. When the allocation
    throws, the target still has the block it gave back and gives it back again
    at its end. When the second element throws, the target counts it, and
    destroys it at its end. -/
theorem failed_copyAssign_valid_fails :
    let s := (State.created 2 () : State Nat Unit).after [.pushBack 5, .pushBack 6]
    let t := (final (RingBuffer.create 2 ()) ⟨RingBuffer.blank (), s.mem⟩).after
      [.pushBack 7, .pushBack 8]
    let assignment : Op Nat Unit Unit := RingBuffer.copyAssign ⟨false, id, id⟩ false s.this
    (reply assignment (t.armed (some 0)) = .error .badAlloc ∧
      ¬ ValidTarget (final assignment (t.armed (some 0))) ∧
      (final RingBuffer.finish (final assignment (t.armed (some 0)))).mem.deallocations =
        [(1, 2, ()), (1, 2, ())]) ∧
    reply assignment (t.armed (some 2)) = .error .element ∧
      ¬ ValidTarget (final assignment (t.armed (some 2))) ∧
      .destroy ⟨some 2, 1⟩ false ∈
        (final RingBuffer.finish (final assignment (t.armed (some 2)))).mem.trace := by
  refine ⟨⟨rfl, fun valid => ?_, by decide +kernel⟩, rfl, fun valid => ?_, by decide +kernel⟩
  · exact (valid.block 1 rfl).2 (1, 2, ()) (List.mem_singleton_self _) rfl
  · have live := (valid.occupied rfl 1).mpr ⟨1, by decide, rfl⟩
    cases live

end Dkyb
