import RingBuffer.Bursts

/-! # The audio buffer

The program of `AudioBufferExample::run_simulation`. Samples are pushed and popped in
chunks, and the capacity is a number of chunks, so the buffer does with the samples
what a buffer of that number of places does with the chunks. What the samples are,
the gain, the statistics and the printing are left out.
-/

namespace Dkyb

open Stateful

variable {T A : Type}

namespace AudioBufferExample

structure Simulation (T A : Type) where
  buffer : State T A
  /-- How many chunks were generated. -/
  generated : Nat
  /-- What the pops of each processed chunk returned. -/
  processed : List (List (Except Exn (Reply T)))

def created (bufferSize : Nat) (allocator : A) : Simulation T A :=
  ⟨State.created bufferSize allocator, 0, []⟩

section Members

variable (chunkSize : Nat)

/-- `sample n i` is sample `i` of chunk `n`. -/
def generateAudioSamples (sample : Nat → Nat → T) (sim : Simulation T A) : Simulation T A :=
  { sim with
    buffer := sim.buffer.after
      ((List.range chunkSize).map fun i => .pushBack (sample sim.generated i))
    generated := sim.generated + 1 }

def processAudioSamples (sim : Simulation T A) : Simulation T A :=
  if sim.buffer.this.empty then
    sim
  else
    let samplesToProcess := min chunkSize sim.buffer.this.size
    { sim with
      buffer := sim.buffer.after (List.replicate samplesToProcess .popFront)
      processed := sim.processed ++ [sim.buffer.replies (List.replicate samplesToProcess .popFront)] }

inductive Load where
  | generate
  | process
  deriving DecidableEq, Repr

def perform (sample : Nat → Nat → T) (sim : Simulation T A) : Load → Simulation T A
  | .generate => generateAudioSamples chunkSize sample sim
  | .process => processAudioSamples chunkSize sim

def performAll (sample : Nat → Nat → T) (sim : Simulation T A) (loads : List Load) :
    Simulation T A :=
  loads.foldl (perform chunkSize sample) sim

def generationFactor (step : Nat) : Nat :=
  if step % 7 = 0 then 0 else if step % 5 = 0 then 2 else 1

def processingFactor (step : Nat) : Nat :=
  if step % 4 = 0 then 0 else if step % 3 = 0 then 2 else 1

def simulationSteps : Nat := 20

def simulationLoads : List Load :=
  (List.range simulationSteps).flatMap fun step =>
    List.replicate (generationFactor step) .generate ++
      List.replicate (processingFactor step) .process

/-- `run_simulation`, for any chunk size and any capacity. -/
def runSimulation (bufferSize : Nat) (sample : Nat → Nat → T) (allocator : A) : Simulation T A :=
  performAll chunkSize sample (created bufferSize allocator) simulationLoads

end Members

/-- What the pops of a chunk return, given what a pop of the chunk as one element
    does. -/
def spread (k : Nat) (sample : Nat → Nat → T) :
    Except Exn (Reply Nat) → List (Except Exn (Reply T))
  | .ok (.content chunk) =>
      (List.range k).map fun i => .ok (.content (chunk.map fun n => sample n i))
  | .ok .done => List.replicate k (.ok .done)
  | .error e => [.error e]

/-- `big` does with samples what `small` does with chunks. -/
structure Mirrored (k m : Nat) (sample : Nat → Nat → T) (small : Simulation Nat Unit)
    (big : Simulation T A) : Prop where
  buffer : Scaled k m sample small.buffer big.buffer
  generated : big.generated = small.generated
  processed : big.processed = small.processed.map fun out => out.flatMap (spread k sample)

namespace Mirrored

variable {k m : Nat} {sample : Nat → Nat → T} {small : Simulation Nat Unit} {big : Simulation T A}

theorem created (posk : 0 < k) (posm : 0 < m) (a : A) (sample : Nat → Nat → T) :
    Mirrored k m sample (AudioBufferExample.created m ())
      (AudioBufferExample.created (m * k) a : Simulation T A) where
  buffer := .created posk posm () a
  generated := rfl
  processed := rfl

theorem perform (h : Mirrored k m sample small big) (posk : 0 < k) (load : Load) :
    Mirrored k m sample (AudioBufferExample.perform 1 (fun n _ => n) small load)
      (AudioBufferExample.perform k sample big load) := by
  cases load with
  | generate =>
      have pushed := h.buffer.pushes small.generated
      refine ⟨?_, congrArg (· + 1) h.generated, h.processed⟩
      simpa only [AudioBufferExample.perform, generateAudioSamples, h.generated] using pushed
  | process =>
      simp only [AudioBufferExample.perform, processAudioSamples]
      by_cases empty : small.buffer.this.count_ = 0
      · have same : big.buffer.this.count_ = 0 := by rw [h.buffer.count, empty, Nat.zero_mul]
        simpa only [RingBuffer.empty, empty, same, beq_self_eq_true, if_true] using h
      · have nonempty : big.buffer.this.count_ ≠ 0 := by
          rw [h.buffer.count]
          exact Nat.mul_ne_zero empty (by omega)
        obtain ⟨popped, out, outs⟩ := h.buffer.pops empty
        have one : min 1 small.buffer.this.count_ = 1 := by omega
        have all : min k big.buffer.this.count_ = k := by
          rw [h.buffer.count]
          exact Nat.min_eq_left (Nat.le_mul_of_pos_left k (by omega))
        simp only [RingBuffer.empty, beq_eq_false_iff_ne.mpr empty, beq_eq_false_iff_ne.mpr nonempty,
          Bool.false_eq_true, if_false, RingBuffer.size, one, all, out, outs]
        refine ⟨popped, h.generated, ?_⟩
        rw [h.processed, List.map_append]
        simp [spread]

theorem performAll (h : Mirrored k m sample small big) (posk : 0 < k) (loads : List Load) :
    Mirrored k m sample (AudioBufferExample.performAll 1 (fun n _ => n) small loads)
      (AudioBufferExample.performAll k sample big loads) := by
  induction loads generalizing small big with
  | nil => exact h
  | cons load loads ih => exact ih (h.perform posk load)

end Mirrored

/-- Any schedule of chunks to generate and to process, any samples: on a capacity of
    `m` chunks the samples fare as the chunks themselves do as the elements of a buffer
    of capacity `m`, those that are lost, swapped or never written included. -/
theorem chunks_fare_as_elements {k m : Nat} (posk : 0 < k) (posm : 0 < m) (a : A)
    (sample : Nat → Nat → T) (loads : List Load) :
    let chunks := performAll 1 (fun n _ => n) (created m ()) loads
    let samples := performAll k sample (created (m * k) a) loads
    samples.buffer.this.size = chunks.buffer.this.size * k ∧
      samples.processed = chunks.processed.map fun out => out.flatMap (spread k sample) := by
  intro chunks samples
  have mirrored := (Mirrored.created posk posm a sample).performAll posk loads
  exact ⟨mirrored.buffer.count, mirrored.processed⟩

/-- Capacity of two chunks: the third chunk overwrites the first, the fourth one lands
    on the third, and the last chunk processed was never written. -/
theorem chunks_fare_as_elements_three :
    (performAll 3 (fun n i => 10 * n + i) (created 6 ())
      [.generate, .generate, .generate, .process, .generate, .process, .process]).processed =
      [[.ok (.content (some 10)), .ok (.content (some 11)), .ok (.content (some 12))],
        [.ok (.content (some 30)), .ok (.content (some 31)), .ok (.content (some 32))],
        [.ok (.content none), .ok (.content none), .ok (.content none)]] :=
  (chunks_fare_as_elements (by decide : 0 < 3) (by decide : 0 < 2) ()
    (fun n i => 10 * n + i) _).2.trans (by decide)

/-- On two chunks, `BUFFER_SIZE`, the simulation loses chunks 3, 5, 9 and 12, processes
    8 before 7, and twice processes slots that hold nothing. -/
example : (runSimulation 1 2 (fun n _ => n) ()).processed =
    [some 0, some 1, some 2, some 4, some 6, none, some 8, some 7, some 10, some 11, none,
      some 13, some 14, some 15, some 16, some 17, some 18, some 19].map
        fun chunk => [.ok (.content chunk)] := by decide +kernel

/-! ## When no chunk is lost -/

/-- How many chunks wait, as long as none is lost. -/
def backlog (waiting : Nat) : Load → Nat
  | .generate => waiting + 1
  | .process => waiting - 1

/-- No chunk is generated while `m` of them wait. -/
def Paced (m : Nat) : Nat → List Load → Prop :=
  Lockstep.Guarded backlog fun waiting load => load = .generate → waiting < m

instance (m waiting : Nat) (loads : List Load) : Decidable (Paced m waiting loads) :=
  Lockstep.decidableGuarded _ _ waiting loads

/-- What is processed if every chunk is, in the order they were generated. -/
def allInOrder (k : Nat) (sample : Nat → Nat → T) (chunks : Nat) :
    List (List (Except Exn (Reply T))) :=
  (List.range chunks).map fun n => (List.range k).map fun i => .ok (.content (some (sample n i)))

/-- The buffer holds the chunks behind those that were processed. -/
structure InOrder (m : Nat) (sim : Simulation Nat Unit) (waiting : Nat) : Prop where
  holds : Holds m sim.buffer (List.range' sim.processed.length waiting)
  follows : ∃ flag, sim.buffer.this.Follows m ⟨waiting, 0, flag⟩
  processed : sim.processed = allInOrder 1 (fun n _ => n) sim.processed.length
  generated : sim.generated = sim.processed.length + waiting

/-- A chunk was lost. -/
structure Behind (m : Nat) (sim : Simulation Nat Unit) : Prop where
  quiet : sim.buffer.mem.fuse = none
  lost : ∃ d, sim.buffer.this.Follows m d ∧ sim.processed.length + d.held < sim.generated

section Chunks

variable {m waiting : Nat} {sim : Simulation Nat Unit}

/-- `sim` after a load, when a chunk is one number. -/
def Simulation.next (sim : Simulation Nat Unit) (load : Load) : Simulation Nat Unit :=
  perform 1 (fun n _ => n) sim load

theorem next_generate : sim.next .generate =
    ⟨final (Update.pushBack sim.generated).perform sim.buffer, sim.generated + 1,
      sim.processed⟩ := rfl

theorem next_process_empty (empty : sim.buffer.this.count_ = 0) : sim.next .process = sim := by
  simp only [Simulation.next, perform, processAudioSamples, RingBuffer.empty, empty,
    beq_self_eq_true, if_true]

theorem next_process (nonempty : sim.buffer.this.count_ ≠ 0) : sim.next .process =
    ⟨final (Update.popFront (T := Nat)).perform sim.buffer, sim.generated,
      sim.processed ++ [[reply (Update.popFront (T := Nat)).perform sim.buffer]]⟩ := by
  have one : min 1 sim.buffer.this.count_ = 1 := by omega
  simp only [Simulation.next, perform, processAudioSamples, RingBuffer.empty,
    beq_eq_false_iff_ne.mpr nonempty, Bool.false_eq_true, if_false, RingBuffer.size, one]
  rfl

theorem allInOrder_succ (k : Nat) (sample : Nat → Nat → T) (n : Nat) :
    allInOrder k sample (n + 1) =
      allInOrder k sample n ++ [(List.range k).map fun i => .ok (.content (some (sample n i)))] := by
  rw [allInOrder, List.range_succ, List.map_append]
  rfl

theorem InOrder.generate (h : InOrder m sim waiting) (room : waiting < m) :
    InOrder m (sim.next .generate) (waiting + 1) := by
  obtain ⟨flag, follows⟩ := h.follows
  have fits : FitsAt sim.buffer (.pushBack sim.generated) :=
    (fitsAt_iff follows _).mpr fun _ => Nat.dvd_zero m
  have pushed := (h.holds.perform fits).2
  have moved := follows.moves (Update.pushBack sim.generated)
  rw [← State.update_this h.holds.quiet] at moved
  rw [next_generate]
  refine ⟨?_, ⟨false, ?_⟩, h.processed, ?_⟩
  · rw [Update.command, DropOldest.step, DropOldest.push_room (by simpa using room)] at pushed
    rw [List.range'_1_concat, ← h.generated]
    exact pushed
  · simpa only [Update.command, DropOldest.Drops.step, Nat.ne_of_lt room, if_false] using moved
  · rw [h.generated, Nat.add_assoc]

theorem InOrder.process (h : InOrder m sim waiting) :
    InOrder m (sim.next .process) (waiting - 1) := by
  have count := h.holds.count
  rw [List.length_range'] at count
  cases waiting with
  | zero =>
      rw [next_process_empty count]
      exact h
  | succ waiting =>
      obtain ⟨flag, follows⟩ := h.follows
      have performed := h.holds.perform (fitsAt_of_not_insert sim.buffer .popFront rfl)
      rw [List.range'_succ] at performed
      obtain ⟨answer, popped⟩ := performed
      have moved := follows.moves (Update.popFront (T := Nat))
      rw [← State.update_this h.holds.quiet] at moved
      rw [next_process (by omega), answer]
      refine ⟨?_, ⟨false, moved⟩, ?_, ?_⟩
      · rw [List.length_append, List.length_singleton]
        exact popped
      · rw [List.length_append, List.length_singleton, allInOrder_succ, ← h.processed]
        rfl
      · rw [h.generated, List.length_append, List.length_singleton]
        omega

/-- A chunk that finds the buffer full overwrites one that waits. -/
theorem InOrder.overflow (h : InOrder m sim waiting) (full : waiting = m) :
    Behind m (sim.next .generate) := by
  obtain ⟨flag, follows⟩ := h.follows
  have moved := follows.moves (Update.pushBack sim.generated)
  rw [← State.update_this h.holds.quiet] at moved
  rw [next_generate]
  refine ⟨(Frame.update h.holds.quiet _).fuse.trans h.holds.quiet, _, moved, ?_⟩
  simp only [Update.command, DropOldest.Drops.step, full, if_true, h.generated]
  omega

theorem Behind.next (h : Behind m sim) (load : Load) : Behind m (sim.next load) := by
  obtain ⟨d, follows, lost⟩ := h.lost
  cases load with
  | generate =>
      have moved := follows.moves (Update.pushBack sim.generated)
      rw [← State.update_this h.quiet] at moved
      rw [next_generate]
      refine ⟨(Frame.update h.quiet _).fuse.trans h.quiet, _, moved, ?_⟩
      simp only [Update.command, DropOldest.Drops.step]
      split
      · exact Nat.lt_succ_of_lt lost
      · exact Nat.succ_lt_succ lost
  | process =>
      by_cases empty : sim.buffer.this.count_ = 0
      · rw [next_process_empty empty]
        exact h
      · have moved := follows.moves (Update.popFront (T := Nat))
        rw [← State.update_this h.quiet] at moved
        rw [next_process empty]
        refine ⟨(Frame.update h.quiet _).fuse.trans h.quiet, _, moved, ?_⟩
        rw [follows.held] at empty
        simp only [Update.command, DropOldest.Drops.step, empty, if_false, List.length_append,
          List.length_singleton]
        omega

/-- Run lemma. -/
theorem Behind.nextAll (h : Behind m sim) (loads : List Load) :
    Behind m (loads.foldl Simulation.next sim) := by
  induction loads generalizing sim with
  | nil => exact h
  | cons load loads ih => exact ih (h.next load)

theorem InOrder.nextAll (h : InOrder m sim waiting) (below : waiting ≤ m) (loads : List Load) :
    Paced m waiting loads ∧
        InOrder m (loads.foldl Simulation.next sim) (loads.foldl backlog waiting) ∨
      ¬ Paced m waiting loads ∧ Behind m (loads.foldl Simulation.next sim) := by
  induction loads generalizing sim waiting with
  | nil => exact .inl ⟨trivial, h⟩
  | cons load loads ih =>
      cases load with
      | process =>
          rcases ih h.process (by omega) with ⟨paced, after⟩ | ⟨unpaced, after⟩
          · exact .inl ⟨⟨nofun, paced⟩, after⟩
          · exact .inr ⟨fun paced => unpaced paced.2, after⟩
      | generate =>
          by_cases room : waiting < m
          · rcases ih (h.generate room) room with ⟨paced, after⟩ | ⟨unpaced, after⟩
            · exact .inl ⟨⟨fun _ => room, paced⟩, after⟩
            · exact .inr ⟨fun paced => unpaced paced.2, after⟩
          · refine .inr ⟨fun paced => room (paced.1 rfl), ?_⟩
            exact (h.overflow (by omega)).nextAll loads

/-- Processing alone catches up. -/
theorem InOrder.drained (h : InOrder m sim waiting) (n : Nat) :
    InOrder m ((List.replicate n Load.process).foldl Simulation.next sim) (waiting - n) := by
  induction n generalizing sim waiting with
  | zero => exact h
  | succ n ih =>
      have rest := ih h.process
      rwa [show waiting - 1 - n = waiting - (n + 1) by omega] at rest

theorem backlog_le (waiting : Nat) (loads : List Load) :
    loads.foldl backlog waiting ≤ waiting + loads.length := by
  induction loads generalizing waiting with
  | nil => exact Nat.le_refl waiting
  | cons load loads ih =>
      have rest := ih (backlog waiting load)
      have one : backlog waiting load ≤ waiting + 1 := by
        cases load <;> simp only [backlog] <;> omega
      simp only [List.foldl_cons, List.length_cons]
      omega

theorem InOrder.created (pos : 0 < m) :
    InOrder m (AudioBufferExample.created m () : Simulation Nat Unit) 0 where
  holds := Holds.created pos ()
  follows := ⟨false, follows_created pos ()⟩
  processed := rfl
  generated := rfl

end Chunks

theorem performAll_generated (k : Nat) (sample : Nat → Nat → T) (sim : Simulation T A)
    (loads : List Load) :
    (performAll k sample sim loads).generated = sim.generated + loads.count .generate := by
  induction loads generalizing sim with
  | nil => rfl
  | cons load loads ih =>
      have rest := ih (perform k sample sim load)
      rw [performAll, List.foldl_cons, ← performAll, rest, List.count_cons]
      cases load with
      | generate => simp [perform, generateAudioSamples]; omega
      | process =>
          simp only [perform, processAudioSamples]
          split <;> simp

theorem allInOrder_length (k : Nat) (sample : Nat → Nat → T) (n : Nat) :
    (allInOrder k sample n).length = n := by
  rw [allInOrder, List.length_map, List.length_range]

theorem spread_allInOrder (k : Nat) (sample : Nat → Nat → T) (n : Nat) :
    ((allInOrder 1 (fun n _ => n) n).map fun out => out.flatMap (spread k sample)) =
      allInOrder k sample n := by
  simp [allInOrder, spread]

/-- Any schedule, any samples: once the processing has caught up, what was processed is
    what was generated, every chunk and in order, exactly when no chunk was generated
    while the buffer was full. -/
theorem processed_in_order_iff {k m : Nat} (posk : 0 < k) (posm : 0 < m) (a : A)
    (sample : Nat → Nat → T) (loads : List Load) :
    (performAll k sample (created (m * k) a)
      (loads ++ List.replicate loads.length .process)).processed =
        allInOrder k sample (loads.count .generate) ↔ Paced m 0 loads := by
  have mirrored := (Mirrored.created posk posm a sample).performAll posk
    (loads ++ List.replicate loads.length .process)
  have counted := performAll_generated 1 (fun n _ => n) (created m ())
    (loads ++ List.replicate loads.length .process)
  have split : performAll 1 (fun n _ => n) (created m ())
      (loads ++ List.replicate loads.length .process) =
      (List.replicate loads.length Load.process).foldl Simulation.next
        (loads.foldl Simulation.next (created m ())) := List.foldl_append
  rw [mirrored.processed]
  generalize performAll 1 (fun n _ => n) (created m ())
    (loads ++ List.replicate loads.length .process) = chunks at counted split
  have total : chunks.generated = loads.count .generate := by
    rw [counted, created, Nat.zero_add, List.count_append, List.count_replicate]
    rfl
  rcases (InOrder.created posm).nextAll (Nat.zero_le m) loads with
    ⟨paced, after⟩ | ⟨unpaced, after⟩
  · have drained := after.drained loads.length
    have waiting := backlog_le 0 loads
    rw [← split, show loads.foldl backlog 0 - loads.length = 0 by omega] at drained
    have all : chunks.processed.length = loads.count .generate := total ▸ drained.generated.symm
    rw [drained.processed, all, spread_allInOrder]
    exact iff_of_true rfl paced
  · have lost := (after.nextAll (List.replicate loads.length .process)).lost
    rw [← split] at lost
    obtain ⟨d, -, fewer⟩ := lost
    refine iff_of_false (fun same => ?_) unpaced
    have lengths := congrArg List.length same
    rw [List.length_map, allInOrder_length] at lengths
    omega

/-- Capacity of two chunks of three samples. -/
theorem processed_in_order_three :
    (performAll 3 (fun n i => 10 * n + i) (created 6 ())
      ([.generate, .generate, .process, .generate] ++ List.replicate 4 .process)).processed =
        allInOrder 3 (fun n i => 10 * n + i) 3 :=
  (processed_in_order_iff (by decide : 0 < 3) (by decide : 0 < 2) () _
    [.generate, .generate, .process, .generate]).mpr (by decide)

/-- `BUFFER_SIZE` is two chunks, and `run_simulation` needs three. -/
example : ¬ Paced 2 0 simulationLoads ∧ Paced 3 0 simulationLoads := by decide

end AudioBufferExample

end Dkyb
