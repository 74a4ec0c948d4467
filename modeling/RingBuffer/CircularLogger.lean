import RingBuffer.SlidingWindow

/-! # The circular logger

`CircularLogger` of the logging example: a ring buffer of log entries that is only
pushed to and cleared, a console and a log file. What a time stamp looks like in
print is a parameter, as is whether the log file opens.
-/

namespace Dkyb

open Stateful DropOldest

variable {A : Type}

namespace LogEntry

inductive Level where
  | debug
  | info
  | warning
  | error
  | critical
  deriving DecidableEq, Repr

end LogEntry

structure LogEntry where
  timestamp : Nat
  level : LogEntry.Level
  message : String
  source : String
  deriving DecidableEq, Repr

namespace LogEntry

def levelToString : Level → String
  | .debug => "DEBUG"
  | .info => "INFO"
  | .warning => "WARNING"
  | .error => "ERROR"
  | .critical => "CRITICAL"

def toString (putTime : Nat → String) (entry : LogEntry) : String :=
  let line := putTime entry.timestamp ++ " [" ++ levelToString entry.level ++ "]"
  let line := if entry.source.isEmpty then line else line ++ " [" ++ entry.source ++ "]"
  line ++ " " ++ entry.message

end LogEntry

/-- The data members, with what was printed and what the log file holds by now. -/
structure CircularLogger (A : Type) where
  logBuffer_ : State LogEntry A
  enabled_ : Bool
  logFile_ : String
  writeToFile_ : Bool
  /-- The lines on `std::cout`. -/
  console : List String
  /-- The lines of the file `log_file_`. -/
  file : List String

namespace CircularLogger

abbrev LogOp (A : Type) := EStateM Exn (CircularLogger A)

def levelColor : LogEntry.Level → String
  | .debug => "\x1b[36m"
  | .info => "\x1b[32m"
  | .warning => "\x1b[33m"
  | .error => "\x1b[31m"
  | .critical => "\x1b[35m"

def resetColor : String := "\x1b[0m"

/-- `CircularLogger(buffer_size, log_file, write_to_file)`. -/
def created (bufferSize : Nat) (logFile : String) (writeToFile : Bool) (allocator : A)
    (file : List String) : CircularLogger A :=
  ⟨State.created bufferSize allocator, true, logFile, writeToFile, [], file⟩

/-- An operation on `log_buffer_`. -/
def inBuffer {α : Type} (op : Op LogEntry A α) : LogOp A α := fun lg =>
  match op.run lg.logBuffer_ with
  | .ok x s => .ok x { lg with logBuffer_ := s }
  | .error e s => .error e { lg with logBuffer_ := s }

def print (line : String) : LogOp A Unit :=
  modify fun lg => { lg with console := lg.console ++ [line] }

def append (line : String) : LogOp A Unit :=
  modify fun lg => { lg with file := lg.file ++ [line] }

section Members

variable (putTime : Nat → String)

/-- `opens` says whether the log file can be opened. -/
def log (opens : Bool) (entry : LogEntry) : LogOp A Unit := do
  let lg ← get
  if lg.enabled_ then
    inBuffer (RingBuffer.pushBack (.value entry))
    print (levelColor entry.level ++ entry.toString putTime ++ resetColor)
    if lg.writeToFile_ && !lg.logFile_.isEmpty && opens then
      append (entry.toString putTime)

def clear : LogOp A Unit := do
  inBuffer RingBuffer.clear
  print "All log entries cleared."

def setEnabled (enabled : Bool) : LogOp A Unit := do
  modify fun lg => { lg with enabled_ := enabled }
  print ("Logging " ++ if enabled then "enabled" else "disabled")

def printStatus : LogOp A Unit := do
  let lg ← get
  let rb := lg.logBuffer_.this
  print "\n=== Logger Status ==="
  print s!"Buffer Size: {rb.size}/{rb.capacity}"
  print ("Buffer Full: " ++ if rb.full then "Yes" else "No")
  print ("Buffer Empty: " ++ if rb.empty then "Yes" else "No")
  print s!"Available Slots: {rb.available}"
  print ("File Output: " ++ if lg.writeToFile_ then lg.logFile_ else "Disabled")
  print "====================="

/-- The loops of `dump_logs` and `dump_logs_by_level`: print the entries that `shows`
    lets through, numbered. `none` when `fuel` runs out or the value of an entry is
    not known. -/
def printEntries (shows : LogEntry → Bool) :
    Nat → RingBuffer.Iterator → RingBuffer.Iterator → Nat → LogOp A (Option Nat)
  | 0, _, _, _ => return none
  | fuel + 1, it, last, count => do
      if it.equal last then
        return some count
      match ← inBuffer (do read (← it.dereference)) with
      | none => return none
      | some entry =>
          if shows entry then
            print ("[" ++ ToString.toString count ++ "] " ++ entry.toString putTime)
            printEntries shows fuel it.increment last (count + 1)
          else
            printEntries shows fuel it.increment last count

def dumpLogs (fuel : Nat) : LogOp A (Option Unit) := do
  print "\n=== Current Log Entries ==="
  if (← get).logBuffer_.this.empty then
    print "No log entries available."
    return some ()
  let first ← inBuffer RingBuffer.begin
  let last ← inBuffer RingBuffer.end_
  match ← printEntries putTime (fun _ => true) fuel first last 0 with
  | none => return none
  | some _ =>
      print "=========================="
      return some ()

def dumpLogsByLevel (fuel : Nat) (level : LogEntry.Level) : LogOp A (Option Unit) := do
  print ("\n=== Logs at Level: " ++ LogEntry.levelToString level ++ " ===")
  let first ← inBuffer RingBuffer.begin
  let last ← inBuffer RingBuffer.end_
  match ← printEntries putTime (fun entry => entry.level == level) fuel first last 0 with
  | none => return none
  | some count =>
      if count == 0 then
        print "No entries found at this level."
      print "============================"
      return some ()

def getEntry (query : Query) : LogOp A (Option String) := do
  if (← get).logBuffer_.this.empty then
    return some "No entries available"
  let content ← inBuffer query.ask
  return content.map (LogEntry.toString putTime)

def getOldestEntry : LogOp A (Option String) := getEntry putTime .front

def getNewestEntry : LogOp A (Option String) := getEntry putTime .back

end Members

inductive Request where
  | log (opens : Bool) (entry : LogEntry)
  | clear
  | setEnabled (enabled : Bool)
  | printStatus
  | dumpLogs
  | dumpLogsByLevel (level : LogEntry.Level)
  | getOldestEntry
  | getNewestEntry
  deriving DecidableEq, Repr

inductive Response where
  | done
  | text (line : String)
  deriving DecidableEq, Repr

def Request.perform (putTime : Nat → String) (fuel : Nat) : Request → LogOp A (Option Response)
  | .log opens entry => do CircularLogger.log putTime opens entry; return some .done
  | .clear => do CircularLogger.clear; return some .done
  | .setEnabled enabled => do CircularLogger.setEnabled enabled; return some .done
  | .printStatus => do CircularLogger.printStatus; return some .done
  | .dumpLogs => return (← CircularLogger.dumpLogs putTime fuel).map fun _ => .done
  | .dumpLogsByLevel level =>
      return (← CircularLogger.dumpLogsByLevel putTime fuel level).map fun _ => .done
  | .getOldestEntry => return (← CircularLogger.getOldestEntry putTime).map .text
  | .getNewestEntry => return (← CircularLogger.getNewestEntry putTime).map .text

end CircularLogger

/-! ## A logger that never forgets -/

/-- What a logger with unbounded memory knows: whether it is enabled, and all entries
    since the last `clear`. -/
structure Logged where
  enabled : Bool
  kept : List LogEntry
  deriving DecidableEq, Repr

namespace Logged

open CircularLogger

variable (putTime : Nat → String) (c : Nat) (logFile : String) (writes : Bool)

def numbered : Nat → List LogEntry → List String
  | _, [] => []
  | n, entry :: entries =>
      ("[" ++ ToString.toString n ++ "] " ++ entry.toString putTime) :: numbered (n + 1) entries

/-- The entries that a buffer of capacity `c` is to show. -/
def shown (j : Logged) : List LogEntry := window c j.kept

def step (j : Logged) : Request → Logged
  | .log _ entry => if j.enabled then { j with kept := j.kept ++ [entry] } else j
  | .clear => { j with kept := [] }
  | .setEnabled enabled => { j with enabled := enabled }
  | _ => j

/-- What a request prints. -/
def lines (j : Logged) : Request → List String
  | .log _ entry =>
      if j.enabled then [levelColor entry.level ++ entry.toString putTime ++ resetColor] else []
  | .clear => ["All log entries cleared."]
  | .setEnabled enabled => ["Logging " ++ if enabled then "enabled" else "disabled"]
  | .printStatus =>
      ["\n=== Logger Status ===", s!"Buffer Size: {(j.shown c).length}/{c}",
        "Buffer Full: " ++ if (j.shown c).length = c then "Yes" else "No",
        "Buffer Empty: " ++ if j.shown c = [] then "Yes" else "No",
        s!"Available Slots: {c - (j.shown c).length}",
        "File Output: " ++ if writes then logFile else "Disabled", "====================="]
  | .dumpLogs => "\n=== Current Log Entries ===" ::
      if j.shown c = [] then ["No log entries available."]
      else numbered putTime 0 (j.shown c) ++ ["=========================="]
  | .dumpLogsByLevel level =>
      let found := (j.shown c).filter fun entry => entry.level == level
      ("\n=== Logs at Level: " ++ LogEntry.levelToString level ++ " ===") ::
        numbered putTime 0 found ++
          (if found = [] then ["No entries found at this level."] else []) ++
          ["============================"]
  | .getOldestEntry | .getNewestEntry => []

/-- What a request appends to the log file. -/
def written (j : Logged) : Request → List String
  | .log opens entry =>
      if j.enabled && writes && !logFile.isEmpty && opens then [entry.toString putTime] else []
  | _ => []

def response (j : Logged) : Request → Response
  | .getOldestEntry =>
      .text (((j.shown c).head?.map (LogEntry.toString putTime)).getD "No entries available")
  | .getNewestEntry =>
      .text (((j.shown c).getLast?.map (LogEntry.toString putTime)).getD "No entries available")
  | _ => .done

end Logged

/-! ## The two agree -/

namespace CircularLogger

section Runs

variable {putTime : Nat → String} {c fuel : Nat} {lg lg' : CircularLogger A} {q : List LogEntry}
  {lines more : List String} {α : Type}

theorem run_inBuffer {op : Op LogEntry A α} {x : α} {s : State LogEntry A}
    (run : op.run lg.logBuffer_ = .ok x s) :
    (inBuffer op).run lg = .ok x { lg with logBuffer_ := s } := by
  simp only [EStateM.run] at run
  simp only [inBuffer, EStateM.run, run]

@[simp] theorem run_begin (lg : CircularLogger A) :
    (inBuffer RingBuffer.begin).run lg = .ok ⟨0, lg.logBuffer_.this.size⟩ lg := rfl

@[simp] theorem run_end (lg : CircularLogger A) : (inBuffer RingBuffer.end_).run lg =
    .ok ⟨lg.logBuffer_.this.count_, lg.logBuffer_.this.size⟩ lg := rfl

/-- A push of a value never throws when copying it does not. -/
theorem run_pushBack {s : State LogEntry A} (quiet : s.mem.fuse = none) (entry : LogEntry) :
    (RingBuffer.pushBack (.value entry)).run s =
      .ok () (final (Update.pushBack entry).perform s) := by
  cases full : s.this.full_ with
  | false =>
      have run := run_pushBack_room quiet entry full
      simp only [Update.perform, final, EStateM.run_bind, run, EStateM.run_pure]
  | true =>
      have run := run_pushBack_full quiet entry full
      simp only [Update.perform, final, EStateM.run_bind, run, EStateM.run_pure]

@[simp] theorem run_print (line : String) (lg : CircularLogger A) :
    (print line).run lg = .ok () { lg with console := lg.console ++ [line] } := rfl

@[simp] theorem run_append (line : String) (lg : CircularLogger A) :
    (append line).run lg = .ok () { lg with file := lg.file ++ [line] } := rfl

/-- Nothing happened but that these lines were printed. -/
structure Printed (lg lg' : CircularLogger A) (lines : List String) : Prop where
  console : lg'.console = lg.console ++ lines
  file : lg'.file = lg.file
  enabled : lg'.enabled_ = lg.enabled_
  logFile : lg'.logFile_ = lg.logFile_
  writeToFile : lg'.writeToFile_ = lg.writeToFile_
  this : lg'.logBuffer_.this = lg.logBuffer_.this
  slots : lg'.logBuffer_.mem.slots = lg.logBuffer_.mem.slots
  fuse : lg'.logBuffer_.mem.fuse = lg.logBuffer_.mem.fuse

namespace Printed

theorem line (lg : CircularLogger A) (line : String) :
    Printed lg { lg with console := lg.console ++ [line] } [line] := by
  constructor <;> rfl

theorem nothing (lg : CircularLogger A) : Printed lg lg [] := by
  constructor <;> simp

theorem trans {lg'' : CircularLogger A} (first : Printed lg lg' lines)
    (second : Printed lg' lg'' more) : Printed lg lg'' (lines ++ more) where
  console := by rw [second.console, first.console, List.append_assoc]
  file := second.file.trans first.file
  enabled := second.enabled.trans first.enabled
  logFile := second.logFile.trans first.logFile
  writeToFile := second.writeToFile.trans first.writeToFile
  this := second.this.trans first.this
  slots := second.slots.trans first.slots
  fuse := second.fuse.trans first.fuse

/-- Reading through a reference prints nothing. -/
theorem asked {query : Query} {content : Option LogEntry} {s : State LogEntry A}
    (run : query.ask.run lg.logBuffer_ = .ok content s) :
    Printed lg { lg with logBuffer_ := s } [] := by
  have keeps := ask_keeps query lg.logBuffer_
  rw [run] at keeps
  obtain ⟨this, slots, fuse⟩ := keeps
  exact ⟨(List.append_nil _).symm, rfl, rfl, rfl, rfl, this, slots, fuse⟩

end Printed

/-- The loop prints what it is to show of the entries from position `i` on. -/
theorem run_printEntries (putTime : Nat → String) (shows : LogEntry → Bool) (n m : Nat)
    (h : Holds c lg.logBuffer_ q) : ∀ fuel i count, i ≤ q.length → q.length - i < fuel →
    ∃ lg', (printEntries putTime shows fuel ⟨i, n⟩ ⟨q.length, m⟩ count).run lg =
        .ok (some (count + ((q.drop i).filter shows).length)) lg' ∧
      Printed lg lg' (Logged.numbered putTime count ((q.drop i).filter shows)) := by
  intro fuel
  induction fuel generalizing lg with
  | zero => intro i _ _ impossible; exact absurd impossible (Nat.not_lt_zero _)
  | succ fuel ih =>
      intro i count inside enough
      by_cases last : i = q.length
      · subst last
        refine ⟨lg, ?_, ?_⟩
        · simp [printEntries, RingBuffer.Iterator.equal]
        · simpa [Logged.numbered] using Printed.nothing lg
      · have notEqual : RingBuffer.Iterator.equal ⟨i, n⟩ ⟨q.length, m⟩ = false := by
          simpa [RingBuffer.Iterator.equal] using last
        have hi : i < q.length := by omega
        obtain ⟨s, asked, h'⟩ := h.asks_index hi
        have quiet := Printed.asked asked
        have dereferenced : (inBuffer (do read (← (RingBuffer.Iterator.mk i n).dereference))).run lg =
            .ok (some q[i]) { lg with logBuffer_ := s } := run_inBuffer asked
        simp only [printEntries, notEqual, Bool.false_eq_true, if_false, EStateM.run_bind,
          dereferenced, RingBuffer.Iterator.increment]
        cases shown : shows q[i] with
        | true =>
            have rest : (q.drop i).filter shows = q[i] :: (q.drop (i + 1)).filter shows := by
              rw [List.drop_eq_getElem_cons hi, List.filter_cons_of_pos shown]
            obtain ⟨lg', run, printed⟩ := @ih { lg with
              logBuffer_ := s
              console := lg.console ++ ["[" ++ toString count ++ "] " ++ q[i].toString putTime] }
              h' (i + 1) (count + 1) (by omega) (by omega)
            rw [rest]
            refine ⟨lg', ?_, ?_⟩
            · simp only [if_true, EStateM.run_bind, run_print, run, List.length_cons, Nat.add_assoc,
                Nat.add_comm 1]
            · have first := Printed.line { lg with logBuffer_ := s }
                ("[" ++ toString count ++ "] " ++ q[i].toString putTime)
              exact (quiet.trans first).trans printed
        | false =>
            have rest : (q.drop i).filter shows = (q.drop (i + 1)).filter shows := by
              rw [List.drop_eq_getElem_cons hi, List.filter_cons_of_neg (by simp [shown])]
            obtain ⟨lg', run, printed⟩ := @ih { lg with logBuffer_ := s } h' (i + 1) count
              (by omega) (by omega)
            rw [rest]
            refine ⟨lg', ?_, quiet.trans printed⟩
            simp only [Bool.false_eq_true, if_false, run]

/-- A logger and what it should know. -/
structure Keeps (c : Nat) (logFile : String) (writes : Bool) (lg : CircularLogger A) (j : Logged) :
    Prop where
  recent : Recent c lg.logBuffer_ j.kept
  enabled : lg.enabled_ = j.enabled
  logFile : lg.logFile_ = logFile
  writeToFile : lg.writeToFile_ = writes

variable {logFile : String} {writes : Bool} {j : Logged}

namespace Keeps

theorem printed (h : Keeps c logFile writes lg j) (printed : Printed lg lg' lines) :
    Keeps c logFile writes lg' j where
  recent := h.recent.of_same printed.this printed.slots printed.fuse
  enabled := printed.enabled.trans h.enabled
  logFile := printed.logFile.trans h.logFile
  writeToFile := printed.writeToFile.trans h.writeToFile

theorem empty_iff (h : Keeps c logFile writes lg j) :
    lg.logBuffer_.this.empty = true ↔ j.shown c = [] := by
  rw [RingBuffer.empty, beq_iff_eq, h.recent.holds.count, List.length_eq_zero_iff]
  rfl

/-- Both dumps run the loop over the whole buffer. -/
theorem run_loop (h : Keeps c logFile writes lg j) (enough : c < fuel) (putTime : Nat → String)
    (shows : LogEntry → Bool) :
    ∃ lg', (printEntries putTime shows fuel ⟨0, lg.logBuffer_.this.size⟩
        ⟨lg.logBuffer_.this.count_, lg.logBuffer_.this.size⟩ 0).run lg =
        .ok (some ((j.shown c).filter shows).length) lg' ∧
      Printed lg lg' (Logged.numbered putTime 0 ((j.shown c).filter shows)) := by
  have holds : Holds c lg.logBuffer_ (j.shown c) := h.recent.holds
  have bound := holds.counted.count
  rw [holds.count] at bound
  have loop := run_printEntries putTime shows lg.logBuffer_.this.size lg.logBuffer_.this.size holds
    fuel 0 0 (Nat.zero_le _) (by omega)
  rwa [List.drop_zero, Nat.zero_add, ← holds.count] at loop

theorem log (h : Keeps c logFile writes lg j) (putTime : Nat → String) (opens : Bool)
    (entry : LogEntry) :
    ∃ lg', (CircularLogger.log putTime opens entry).run lg = .ok () lg' ∧
      lg'.console = lg.console ++ j.lines putTime c logFile writes (.log opens entry) ∧
      lg'.file = lg.file ++ j.written putTime logFile writes (.log opens entry) ∧
      Keeps c logFile writes lg' (j.step (.log opens entry)) := by
  have running : lg.enabled_ = j.enabled := h.enabled
  cases enabled : j.enabled with
  | false =>
      rw [enabled] at running
      refine ⟨lg, ?_, ?_, ?_, ?_⟩
      · simp [CircularLogger.log, running]
      · simp [Logged.lines, enabled]
      · simp [Logged.written, enabled]
      · simpa [Logged.step, enabled] using h
  | true =>
      rw [enabled] at running
      have pushed := run_inBuffer (run_pushBack h.recent.holds.quiet entry)
      have recent := h.recent.push (rfl : (Update.pushBack entry).inserted = some entry)
      have opened : (lg.writeToFile_ && !lg.logFile_.isEmpty && opens) =
          (writes && !logFile.isEmpty && opens) := by rw [h.writeToFile, h.logFile]
      refine ⟨{ lg with
        logBuffer_ := final (Update.pushBack entry).perform lg.logBuffer_
        console := lg.console ++ [levelColor entry.level ++ entry.toString putTime ++ resetColor]
        file := lg.file ++ j.written putTime logFile writes (.log opens entry) }, ?_, ?_, rfl, ?_⟩
      · simp only [CircularLogger.log, EStateM.run_bind, EStateM.run_get, running, if_true, pushed,
          run_print, opened, Logged.written, enabled, Bool.true_and]
        cases writes && !logFile.isEmpty && opens with
        | false => simp only [Bool.false_eq_true, if_false, EStateM.run_pure, List.append_nil]
        | true => rfl
      · simp only [Logged.lines, enabled, if_true]
      · have step : j.step (.log opens entry) = { j with kept := j.kept ++ [entry] } := by
          simp only [Logged.step, enabled, if_true]
        rw [step]
        exact ⟨recent, h.enabled, h.logFile, h.writeToFile⟩

theorem clear (h : Keeps c logFile writes lg j) :
    ∃ lg', CircularLogger.clear.run lg = .ok () lg' ∧
      lg'.console = lg.console ++ ["All log entries cleared."] ∧ lg'.file = lg.file ∧
      Keeps c logFile writes lg' { j with kept := [] } := by
  have cleared := run_inBuffer (run_clear lg.logBuffer_)
  refine ⟨{ lg with
    logBuffer_ := lg.logBuffer_.cleared
    console := lg.console ++ ["All log entries cleared."] }, ?_, rfl, rfl, ?_⟩
  · simp only [CircularLogger.clear, EStateM.run_bind, cleared, run_print]
  · exact ⟨h.recent.clear, h.enabled, h.logFile, h.writeToFile⟩

theorem printStatus (h : Keeps c logFile writes lg j) (putTime : Nat → String) :
    ∃ lg', CircularLogger.printStatus.run lg = .ok () lg' ∧
      Printed lg lg' (j.lines putTime c logFile writes .printStatus) := by
  have observed := h.recent.holds.observes
  have size : lg.logBuffer_.this.size = (j.shown c).length := observed.size
  have available : lg.logBuffer_.this.available = c - (j.shown c).length := observed.available
  have full : (lg.logBuffer_.this.full = true) = ((j.shown c).length = c) := propext observed.full
  have empty : (lg.logBuffer_.this.empty = true) = (j.shown c = []) := propext h.empty_iff
  have capacity : lg.logBuffer_.this.capacity = c := h.recent.holds.counted.capacity
  refine ⟨_, rfl, ?_⟩
  simp only [Logged.lines, size, available, full, empty, capacity, h.logFile, h.writeToFile]
  constructor <;> first | rfl | simp [h.logFile, h.writeToFile]

theorem dumpLogs (h : Keeps c logFile writes lg j) (enough : c < fuel) (putTime : Nat → String) :
    ∃ lg', (CircularLogger.dumpLogs putTime fuel).run lg = .ok (some ()) lg' ∧
      Printed lg lg' (j.lines putTime c logFile writes .dumpLogs) := by
  have header := Printed.line lg "\n=== Current Log Entries ==="
  by_cases none : j.shown c = []
  · have empty := h.empty_iff.mpr none
    have footer := header.trans (Printed.line _ "No log entries available.")
    refine ⟨_, ?_, by simpa [Logged.lines, none] using footer⟩
    simp [CircularLogger.dumpLogs, empty]
  · have nonempty : lg.logBuffer_.this.empty = false :=
      Bool.eq_false_iff.mpr fun empty => none (h.empty_iff.mp empty)
    obtain ⟨lg', run, printed⟩ := (h.printed header).run_loop enough putTime fun _ => true
    have footer := (header.trans printed).trans (Printed.line lg' "==========================")
    refine ⟨_, ?_, by simpa [Logged.lines, none] using footer⟩
    simp [CircularLogger.dumpLogs, nonempty, run]

theorem dumpLogsByLevel (h : Keeps c logFile writes lg j) (enough : c < fuel)
    (putTime : Nat → String) (level : LogEntry.Level) :
    ∃ lg', (CircularLogger.dumpLogsByLevel putTime fuel level).run lg = .ok (some ()) lg' ∧
      Printed lg lg' (j.lines putTime c logFile writes (.dumpLogsByLevel level)) := by
  have header := Printed.line lg ("\n=== Logs at Level: " ++ LogEntry.levelToString level ++ " ===")
  obtain ⟨lg', run, printed⟩ := (h.printed header).run_loop enough putTime
    fun entry => entry.level == level
  by_cases none : ((j.shown c).filter fun entry => entry.level == level) = []
  · have footer := ((header.trans printed).trans
      (Printed.line lg' "No entries found at this level.")).trans
        (Printed.line _ "============================")
    refine ⟨_, ?_, by simpa [Logged.lines, none] using footer⟩
    simp [CircularLogger.dumpLogsByLevel, run, none]
  · have footer := (header.trans printed).trans (Printed.line lg' "============================")
    refine ⟨_, ?_, by simpa [Logged.lines, none] using footer⟩
    simp [CircularLogger.dumpLogsByLevel, run, none]

/-- `get_oldest_entry` and `get_newest_entry`, for the entry the query returns. -/
theorem getEntry (h : Keeps c logFile writes lg j) (putTime : Nat → String) (query : Query)
    {found : Option LogEntry}
    (finds : ∀ entry, found = some entry → reply query.ask lg.logBuffer_ = .ok (some entry))
    (some_iff : found = none ↔ j.shown c = []) :
    ∃ lg', (CircularLogger.getEntry putTime query).run lg =
        .ok (some ((found.map (LogEntry.toString putTime)).getD "No entries available")) lg' ∧
      Printed lg lg' [] := by
  cases found with
  | none =>
      have empty := h.empty_iff.mpr (some_iff.mp rfl)
      refine ⟨lg, ?_, .nothing lg⟩
      simp [CircularLogger.getEntry, empty]
  | some entry =>
      have nonempty : lg.logBuffer_.this.empty = false :=
        Bool.eq_false_iff.mpr fun empty => nomatch some_iff.mpr (h.empty_iff.mp empty)
      have asked := finds entry rfl
      unfold reply at asked
      cases run : query.ask.run lg.logBuffer_ with
      | error e s =>
          rw [run] at asked
          cases asked
      | ok content s =>
          rw [run] at asked
          cases asked
          refine ⟨_, ?_, Printed.asked run⟩
          simp [CircularLogger.getEntry, nonempty, run_inBuffer run]

/-- The newest entry is the last one shown. -/
theorem asks_back (h : Keeps c logFile writes lg j) {entry : LogEntry}
    (last : (j.shown c).getLast? = some entry) :
    reply Query.back.ask lg.logBuffer_ = .ok (some entry) := by
  obtain ⟨q, split⟩ := List.getLast?_eq_some_iff.mp last
  have some : j.kept ≠ [] := by
    intro none
    rw [Logged.shown, none, window_nil] at last
    cases last
  have holds : Holds c lg.logBuffer_ (j.shown c) := h.recent.holds
  rw [split] at holds
  exact holds.asks_back (h.recent.tracks some)

/-- Step lemma. -/
theorem perform (h : Keeps c logFile writes lg j) (enough : c < fuel) (putTime : Nat → String)
    (request : Request) :
    ∃ lg', (request.perform putTime fuel).run lg = .ok (some (j.response putTime c request)) lg' ∧
      lg'.console = lg.console ++ j.lines putTime c logFile writes request ∧
      lg'.file = lg.file ++ j.written putTime logFile writes request ∧
      Keeps c logFile writes lg' (j.step request) := by
  cases request with
  | log opens entry =>
      obtain ⟨lg', run, console, file, keeps⟩ := h.log putTime opens entry
      refine ⟨lg', ?_, console, file, keeps⟩
      simp only [Request.perform, EStateM.run_bind, run, EStateM.run_pure, Logged.response]
  | clear =>
      obtain ⟨lg', run, console, file, keeps⟩ := h.clear
      refine ⟨lg', ?_, console, by simpa [Logged.written] using file, keeps⟩
      simp only [Request.perform, EStateM.run_bind, run, EStateM.run_pure, Logged.response]
  | setEnabled enabled =>
      refine ⟨_, rfl, rfl, ?_, ⟨h.recent, rfl, h.logFile, h.writeToFile⟩⟩
      simp [Logged.written]
  | printStatus =>
      obtain ⟨lg', run, printed⟩ := h.printStatus putTime
      refine ⟨lg', ?_, printed.console, by simpa [Logged.written] using printed.file,
        h.printed printed⟩
      simp only [Request.perform, EStateM.run_bind, run, EStateM.run_pure, Logged.response]
  | dumpLogs =>
      obtain ⟨lg', run, printed⟩ := h.dumpLogs enough putTime
      refine ⟨lg', ?_, printed.console, by simpa [Logged.written] using printed.file,
        h.printed printed⟩
      simp only [Request.perform, EStateM.run_bind, run, EStateM.run_pure, Logged.response,
        Option.map_some]
  | dumpLogsByLevel level =>
      obtain ⟨lg', run, printed⟩ := h.dumpLogsByLevel enough putTime level
      refine ⟨lg', ?_, printed.console, by simpa [Logged.written] using printed.file,
        h.printed printed⟩
      simp only [Request.perform, EStateM.run_bind, run, EStateM.run_pure, Logged.response,
        Option.map_some]
  | getOldestEntry =>
      obtain ⟨lg', run, printed⟩ := h.getEntry putTime .front
        h.recent.holds.observes.front List.head?_eq_none_iff
      refine ⟨lg', ?_, printed.console, by simpa [Logged.written] using printed.file,
        h.printed printed⟩
      simp only [Request.perform, CircularLogger.getOldestEntry, EStateM.run_bind, run,
        EStateM.run_pure, Logged.response, Option.map_some]
      rfl
  | getNewestEntry =>
      obtain ⟨lg', run, printed⟩ := h.getEntry putTime .back
        (fun entry last => h.asks_back last) List.getLast?_eq_none_iff
      refine ⟨lg', ?_, printed.console, by simpa [Logged.written] using printed.file,
        h.printed printed⟩
      simp only [Request.perform, CircularLogger.getNewestEntry, EStateM.run_bind, run,
        EStateM.run_pure, Logged.response, Option.map_some]

end Keeps

/-- A request returns, prints and writes what the logger that never forgets would. -/
def Serves (putTime : Nat → String) (fuel c : Nat) (logFile : String) (writes : Bool)
    (lg : CircularLogger A) (j : Logged) (request : Request) : Prop :=
  reply (request.perform putTime fuel) lg = .ok (some (j.response putTime c request)) ∧
    (final (request.perform putTime fuel) lg).console =
      lg.console ++ j.lines putTime c logFile writes request ∧
    (final (request.perform putTime fuel) lg).file =
      lg.file ++ j.written putTime logFile writes request

/-- Any requests on a new logger, in any order: none of them throws or gets stuck, and
    what is shown is always the last `c` entries logged while enabled since the last
    `clear`, by every way to look at them. -/
theorem logger_refines (pos : 0 < c) (a : A) (putTime : Nat → String) (enough : c < fuel)
    (logFile : String) (writes : Bool) (file : List String) (requests : List Request) :
    Lockstep.Agrees (fun lg request => final (request.perform putTime fuel) lg) Logged.step
      (Serves putTime fuel c logFile writes) (created c logFile writes a file) ⟨true, []⟩
      requests := by
  apply Lockstep.agrees_of_simulation (R := Keeps c logFile writes)
  · intro lg j request h
    obtain ⟨lg', run, -, -, keeps⟩ := h.perform enough putTime request
    rwa [final_of_run run]
  · intro lg j request h
    obtain ⟨lg', run, console, written, -⟩ := h.perform enough putTime request
    rw [Serves, reply_of_run run, final_of_run run]
    exact ⟨rfl, console, written⟩
  · exact ⟨Recent.created pos a, rfl, rfl, rfl⟩

/-- Capacity 2: of three entries the second one is the oldest shown. -/
theorem logger_refines_two :
    let putTime := fun _ : Nat => "12:00"
    let lg := [Request.log true ⟨1, .info, "one", "Main"⟩, .log true ⟨2, .error, "two", "Main"⟩,
      .log true ⟨3, .debug, "three", ""⟩].foldl
        (fun lg request => final (request.perform putTime 3) lg) (created 2 "" false () [])
    reply (Request.getOldestEntry.perform putTime 3) lg =
      .ok (some (.text "12:00 [ERROR] [Main] two")) :=
  (logger_refines (by decide) () (fun _ => "12:00") (by decide : 2 < 3) "" false []
    [.log true ⟨1, .info, "one", "Main"⟩, .log true ⟨2, .error, "two", "Main"⟩,
      .log true ⟨3, .debug, "three", ""⟩, .getOldestEntry]).2.2.2.1.1

end Runs

end CircularLogger

end Dkyb
