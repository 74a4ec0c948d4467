import RingBuffer.Moving

/-! # Exchanging two buffers

What `std::swap` does with two buffers: one move construction, two move assignments
and a destruction. The blocks and the cursors change places and no element is
touched, but each object keeps its own overwrite flag.
-/

namespace Dkyb

open Stateful

variable {T A : Type}

/-- The block, allocator and cursors of `other` in an object that keeps its own
    overwrite flag and position. -/
def RingBuffer.dressed (other own : RingBuffer A) : RingBuffer A :=
  { other with
    justOverwrote_ := own.justOverwrote_
    overwritePosition_ := own.overwritePosition_ }

/-- Exchange `i` and `j` through the new object `k`. -/
def Statement.swap (i j k : Nat) : List (Statement T A) :=
  [.moveConstruct k i, .moveAssign i j, .moveAssign j k, .destroy k]

namespace Heap

variable {traits : AllocatorTraits A} {h : Heap T A} {i j k : Nat} {rb other : RingBuffer A}

theorem destroyed_movedFrom (own : RingBuffer A) (mem : Memory T A) :
    (⟨own.movedFrom traits, mem⟩ : State T A).cleared.deallocated.mem = mem := rfl

/-- The heap after an exchange. -/
def swapped (h : Heap T A) (i j : Nat) (rb other : RingBuffer A) : Heap T A :=
  ⟨Function.update (Function.update h.objects i (some (other.dressed rb))) j
    (some (rb.dressed other)), h.mem⟩

theorem ne_of_absent (absent : h.objects k = none) (found : h.objects i = some rb) : k ≠ i := by
  rintro rfl
  rw [absent] at found
  cases found

theorem run_swap (distinct : i ≠ j) (absent : h.objects k = none) (first : h.objects i = some rb)
    (second : h.objects j = some other) :
    h.run traits (Statement.swap i j k) = some (h.swapped i j rb other) := by
  have notFirst := ne_of_absent absent first
  have notSecond := ne_of_absent absent second
  let third : RingBuffer A := { rb with justOverwrote_ := false, overwritePosition_ := 0 }
  let h₁ := (h.put k ⟨third, h.mem⟩).put i ⟨rb.movedFrom traits, h.mem⟩
  let h₂ := (h₁.put i ⟨other.dressed rb, h.mem⟩).put j ⟨other.movedFrom traits, h.mem⟩
  let h₃ := (h₂.put j ⟨rb.dressed other, h.mem⟩).put k ⟨third.movedFrom traits, h.mem⟩
  have one : h.exec traits (.moveConstruct k i) = some h₁ :=
    exec_moveConstruct.mpr ⟨rb, absent, first, rfl⟩
  have two : h₁.exec traits (.moveAssign i j) = some h₂ := by
    apply (exec_moveAssign distinct).mpr
    refine ⟨rb.movedFrom traits, other, Function.update_self .., ?_, rfl⟩
    simpa [h₁, put, Function.update_of_ne distinct.symm,
      Function.update_of_ne notSecond.symm] using second
  have three : h₂.exec traits (.moveAssign j k) = some h₃ := by
    apply (exec_moveAssign notSecond.symm).mpr
    refine ⟨other.movedFrom traits, third, Function.update_self .., ?_, rfl⟩
    simp [h₂, h₁, put, Function.update_of_ne notFirst, Function.update_of_ne notSecond]
  have four : h₃.exec traits (.destroy k) = some (h.swapped i j rb other) := by
    refine exec_destroy.mpr ⟨third.movedFrom traits, Function.update_self .., ?_⟩
    rw [destroyed_movedFrom, swapped]
    congr 1
    funext p
    simp only [h₃, h₂, h₁, put, Function.update_apply]
    grind
  simp only [run, Statement.swap, List.foldlM_cons, List.foldlM_nil, one, two, three, four,
    Option.bind_eq_bind, Option.bind_some, Option.pure_def]

/-- The exchange of any two objects: the blocks and the cursors change places, each
    object keeps its own overwrite flag and position, the memory and all other objects
    stay as they are, and a second exchange brings back the first state. Every
    observation of one is then the other's, at both, exactly when `back()` goes to the
    same slot as before or to one that holds the same element. -/
theorem swap_exchanges (traits : AllocatorTraits A) (h : Heap T A) {i j k : Nat}
    {rb other : RingBuffer A} (distinct : i ≠ j) (absent : h.objects k = none)
    (first : h.objects i = some rb) (second : h.objects j = some other) :
    ∃ h', h.run traits (Statement.swap i j k) = some h' ∧ h'.mem = h.mem ∧
      h'.objects i = some (other.dressed rb) ∧ h'.objects j = some (rb.dressed other) ∧
      (∀ p, p ≠ i → p ≠ j → h'.objects p = h.objects p) ∧
      h'.run traits (Statement.swap i j k) = some h ∧
      (Preserves ⟨rb, h.mem⟩ ⟨rb.dressed other, h'.mem⟩ ↔
        BackKept ⟨rb, h.mem⟩ (State.backAssigned rb other)) ∧
      (Preserves ⟨other, h.mem⟩ ⟨other.dressed rb, h'.mem⟩ ↔
        BackKept ⟨other, h.mem⟩ (State.backAssigned other rb)) := by
  have at_i : (h.swapped i j rb other).objects i = some (other.dressed rb) := by
    simp [swapped, Function.update_of_ne distinct]
  have at_j : (h.swapped i j rb other).objects j = some (rb.dressed other) :=
    Function.update_self ..
  have at_k : (h.swapped i j rb other).objects k = none := by
    simp [swapped, Function.update_of_ne (ne_of_absent absent first),
      Function.update_of_ne (ne_of_absent absent second), absent]
  have again : (h.swapped i j rb other).run traits (Statement.swap i j k) = some h := by
    have objects : ((h.swapped i j rb other).swapped i j (other.dressed rb)
        (rb.dressed other)).objects = h.objects := by
      funext p
      simp only [swapped, Function.update_apply]
      split
      · subst p
        exact second.symm
      · split
        · subst p
          exact first.symm
        · rfl
    rw [run_swap distinct at_k at_i at_j]
    exact congrArg (fun objects => some (⟨objects, h.mem⟩ : Heap T A)) objects
  refine ⟨h.swapped i j rb other, run_swap distinct absent first second, rfl, at_i, at_j, ?_, again,
    ?_, ?_⟩
  · intro p notFirst notSecond
    simp only [swapped, Function.update_of_ne notSecond, Function.update_of_ne notFirst]
  · have took : TookOver (⟨rb, h.mem⟩ : State T A) ⟨rb.dressed other, h.mem⟩ :=
      ⟨rfl, fun _ => rfl⟩
    exact took.preserves_iff
  · exact TookOver.preserves_iff ⟨rfl, fun _ => rfl⟩

/-- Both hold two elements, and object 0 overwrote one: object 1's elements come to
    it, but its `back()` goes to the slot it overwrote. -/
theorem swap_exchanges_two : ∃ (h h' : Heap Nat Unit) (rb other : RingBuffer Unit),
    h.objects 1 = some other ∧ h.run .standard (Statement.swap 0 1 2) = some h' ∧
      h'.objects 0 = some (other.dressed rb) ∧
      ¬ Preserves ⟨other, h.mem⟩ ⟨other.dressed rb, h'.mem⟩ := by
  let program : List (Statement Nat Unit) :=
    [.create 0 2 (), .create 1 2 (), .call 0 (.update (.pushBack 1)),
      .call 0 (.update (.pushBack 2)), .call 0 (.update (.pushBack 3)),
      .call 1 (.update (.pushBack 5)), .call 1 (.update (.pushBack 6))]
  have ran : ((Heap.empty : Heap Nat Unit).run .standard program).bind (fun h =>
      (h.objects 0).bind fun rb => (h.objects 1).map fun other => (h.objects 2).isNone &&
        !decide (BackKept (⟨other, h.mem⟩ : State Nat Unit) (State.backAssigned other rb))) =
        some true := by decide +kernel
  obtain ⟨h, -, found⟩ := Option.bind_eq_some_iff.mp ran
  obtain ⟨rb, first, found⟩ := Option.bind_eq_some_iff.mp found
  obtain ⟨other, second, facts⟩ := Option.map_eq_some_iff.mp found
  rw [Bool.and_eq_true, Option.isNone_iff_eq_none, Bool.not_eq_true', decide_eq_false_iff_not] at facts
  obtain ⟨h', swapped, -, target, -, -, -, -, kept⟩ :=
    swap_exchanges .standard h (by decide : 0 ≠ 1) facts.1 first second
  exact ⟨h, h', rb, other, second, swapped, target, mt kept.mp facts.2⟩

end Heap

end Dkyb
