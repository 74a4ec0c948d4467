import RingBuffer.Object
import RingBuffer.Lib.Cyclic
import RingBuffer.Lib.Stateful
import RingBuffer.Members
import RingBuffer.Runs
import RingBuffer.Lib.DropOldest
import RingBuffer.Lib.Lockstep
import RingBuffer.Representation
import RingBuffer.Refinement
import RingBuffer.SlidingWindow
import RingBuffer.Lifetime
import RingBuffer.Frame
import RingBuffer.Copying
import RingBuffer.Lib.Ledger
import RingBuffer.Ownership
import RingBuffer.Lib.Tally
import RingBuffer.Lib.Transitions
import RingBuffer.ThreadSafe
import RingBuffer.ThreadSafe.Steps
import RingBuffer.ThreadSafe.Fifo
import RingBuffer.ThreadSafe.Timeouts
import RingBuffer.ThreadSafe.WakeUps
import RingBuffer.LastElement
import RingBuffer.Lib.Bisimulation
import RingBuffer.Clearing
import RingBuffer.Moving
import RingBuffer.Lib.Contracts
import RingBuffer.Guarantees
import RingBuffer.FailedInserts
import RingBuffer.Aliasing
import RingBuffer.Throwing
import RingBuffer.IndexSafety
import RingBuffer.FailedCopies
import RingBuffer.Lib.Words
import RingBuffer.WordSize
import RingBuffer.Lib.Signed
import RingBuffer.ThreadSafe.Journal
import RingBuffer.ThreadSafe.Linearization
import RingBuffer.ThreadSafe.Progress
import RingBuffer.ThreadSafe.Programs
import RingBuffer.ThreadSafe.ProducerConsumer
import RingBuffer.ThreadSafe.PriorityProcessing
import RingBuffer.Lib.Coverage
import RingBuffer.ThreadSafe.Arrivals
import RingBuffer.Drift
import RingBuffer.CircularLogger
import RingBuffer.ThrowingRuns
import RingBuffer.Bursts
import RingBuffer.AudioBuffer
import RingBuffer.Swapping
import RingBuffer.Lib.Potential
import RingBuffer.Cost
import RingBuffer.Iterating
import RingBuffer.ThreadSafe.Exceptions
import RingBuffer.ThreadSafe.Completion
import RingBuffer.ThreadSafe.Schedules
