import RTLola.Io.OutputHandler

/-!
# The progress thread: two threads on one standard error

Model of the thread `Statistics::new` spawns (`rtlola/src/basics/io_handler.rs:279-299`), with
`print_progress_info` and `clear_progress_info` (`io_handler.rs:314-337`), running beside the
handler of the main thread.

* A primary handler with verbosity `Progress` gets `Statistics`, and with it a thread that
  sleeps 1 ms and then loops: `print_progress_info` with the next character of the spinner, a
  sleep of 100 ms, `clear_progress_info`. The sleeps are not steps: the two threads interleave
  in any order, which is all the sleeps guarantee.
* The threads share `StatisticsData` through the `Arc`: the handler increments `num_events`, the
  thread loads it. The accesses to the one atomic are coherent and each write to standard error
  holds the lock of `Stderr`, so what the threads do is what some interleaving does: the model is
  the interleaving semantics (`Sys.exec` over a schedule of `Action`s), and the thread reads the
  counter from `statistics` of the handler.
* A step of the thread is one of: loading the counter and computing the line, where a division by
  zero panics and ends the thread, not the program (`.panicked`), and the default panic hook
  prints its message (`.panicMessage`, "thread '<unnamed>' panicked at 'attempt to divide by
  zero'" and the source location) to standard error; the `writeln!` of the line; the `write!` of
  `clear_progress_info`. Loading and computing are one step: the main thread cannot change the
  thread's local values in between.
* A step of the main thread is a `Call` on the handler (`step`); a panic there ends the program
  (`none`). Both threads write to standard error: `Sys.stderr` is what it receives, each write
  with the thread that made it. The codes `cursor::Up(1)` and `clear::CurrentLine` of `termion`
  (not part of the sources) are `.clear`. The handler's writes are `ErrWrite`s, so the clear and
  the last progress line that `Statistics::terminate` writes on the main thread are marked as
  such. A panic of the main thread ends the model (`none`), with whatever its hook prints.
* `SystemTime::now()` is the nanoseconds elapsed since `start`, given with each step of the
  thread; a clock that goes back (the `unwrap` of `duration_since`) is left out.

Results:
* `exec_refines_run`: whatever the interleaving, the handler and what it writes are those of the
  sequential run of the main thread's calls, the program panics exactly when that run does, and
  the handler's writes reach standard error complete and in order.
* `progress_counts_monotone`: the counts of events the progress thread's lines show never
  decrease, are never `0`, and never exceed the events counted so far.
* `progress_lines_bounded`: every progress line, the last line of `Statistics::terminate`
  included, shows a positive count at most the events counted so far, and the line `terminate`
  writes at the end shows exactly that number.
* `progress_panics_before_first_event`: a thread that wakes up before the first event is counted
  panics; its only write is the panic hook's message, and it never shows a line or a clear.
* `progress_lives_after_first_event`: a thread that wakes up after the first event, at steps
  that each come after some time has passed, never panics while the counter does not wrap.
* `stderr_progress_only`: when `Progress` is less verbose than every kind of message, standard
  error reads line, clear, line, clear, …, possibly ended by the panic hook's message, in every
  interleaving of calls without `terminate`: each clear erases the line of the progress thread,
  never a message of the handler.
-/

namespace RTLola.Io

/-- The characters of the spinner of `Statistics::new`. -/
def spinner : List Char := "⠁⠁⠉⠙⠚⠒⠂⠂⠒⠲⠴⠤⠄⠄⠤⠠⠠⠤⠦⠖⠒⠐⠐⠒⠓⠋⠉⠈⠈ ".toList

/-- The character `spinner.next()` returns the `k`-th time: the iterator is `chars().cycle()`. -/
def spinChar (k : Nat) : Char := spinner.getD (k % spinner.length) ' '

/-- Where the progress thread is in its loop. -/
inductive Pc where
  /-- About to call `print_progress_info` for the `k`-th time. -/
  | print (k : Nat)
  /-- Computed its `k`-th line, for the count `numEvents` it loaded, and is about to write it. -/
  | write (k numEvents : Nat) (line : String)
  /-- Wrote its `k`-th line; sleeps, then calls `clear_progress_info`. -/
  | clear (k : Nat)
  /-- Panicked in `print_progress_info`. -/
  | panicked
  /-- There is no progress thread: the handler has no statistics. -/
  | absent
  deriving DecidableEq, Repr

/-- A write to standard error, with the thread that made it. -/
inductive Entry where
  /-- A write of the handler, on the main thread. -/
  | handler (w : ErrWrite)
  /-- A line of the progress thread, with the count of events it shows. -/
  | progress (numEvents : Nat) (line : String)
  /-- What `clear_progress_info` writes on the progress thread: up one line, clear the line. -/
  | clear
  /-- What the panic hook prints when the progress thread panics. -/
  | panicMessage
  deriving DecidableEq, Repr

/-- The handler and what it wrote, standard error, and the progress thread. -/
structure Sys where
  handler : OutputHandler
  written : Written
  stderr : List Entry
  pc : Pc
  deriving DecidableEq, Repr

/-- A step of one of the threads: a call of the main thread on the handler, or a step of the
progress thread, at `elapsedTotal` nanoseconds since `start`. -/
inductive Action where
  | main (c : Call)
  | progress (elapsedTotal : Nat)
  deriving DecidableEq, Repr

/-- The call of a step of the main thread. -/
def Action.call? : Action → Option Call
  | .main c => some c
  | .progress _ => none

/-- The start: `OutputHandler::new`, which spawns the progress thread with the statistics. -/
def Sys.start (v : Verbosity) (ch : OutputChannel) (primary : Bool) : Sys :=
  ⟨OutputHandler.new v ch primary, ⟨[], [], []⟩, [],
    if primary ∧ v = .progress then .print 0 else .absent⟩

/-- A step of the progress thread. At `.print k` the thread has statistics: the last case is
only reached from `.panicked` and `.absent`. -/
def Sys.progressStep (S : Sys) (elapsedTotal : Nat) : Sys :=
  match S.pc, S.handler.statistics with
  | .print k, some d =>
    match d.printProgressInfo elapsedTotal (spinChar k) with
    | some line => { S with pc := .write k d.numEvents.toNat line }
    | none => { S with pc := .panicked, stderr := S.stderr ++ [.panicMessage] }
  | .write k n line, _ => { S with pc := .clear k, stderr := S.stderr ++ [.progress n line] }
  | .clear k, _ => { S with pc := .print (k + 1), stderr := S.stderr ++ [.clear] }
  | _, _ => S

section Exec

variable (rank : Verbosity → Nat)

/-- A call of the main thread: what the handler appends to standard error goes to `stderr`. -/
def Sys.mainStep (S : Sys) (c : Call) : Option Sys :=
  (step rank (S.handler, S.written) c).map fun hw =>
    { S with
      handler := hw.1
      written := hw.2
      stderr := S.stderr ++ (hw.2.stderr.drop S.written.stderr.length).map .handler }

/-- A step of one of the threads; `none` when the main thread panics. -/
def Sys.next (S : Sys) : Action → Option Sys
  | .main c => S.mainStep rank c
  | .progress e => some (S.progressStep e)

/-- The two threads along a schedule of steps. -/
def Sys.exec (S : Sys) (as : List Action) : Option Sys :=
  as.foldlM (Sys.next rank) S

end Exec

/-! ## Observations -/

/-- A write of the handler. -/
def Entry.handler? : Entry → Option ErrWrite
  | .handler w => some w
  | _ => none

/-- The count of events a progress line shows. -/
def Entry.shown? : Entry → Option Nat
  | .progress n _ => some n
  | _ => none

/-- A progress line, of the thread or of `Statistics::terminate`, with the count it shows. -/
def Entry.line? : Entry → Option Nat
  | .progress n _ => some n
  | .handler (.progress n _) => some n
  | _ => none

/-- Whether the progress thread (or the panic hook on it) made the write. -/
def Entry.isProgress : Entry → Bool
  | .handler _ => false
  | _ => true

/-- The value of `num_events`, `0` without statistics. -/
def OutputHandler.numEvents (h : OutputHandler) : Nat :=
  match h.statistics with
  | some d => d.numEvents.toNat
  | none => 0

/-- The count the thread loaded for the line it is about to write. -/
def Pc.pending : Pc → List Nat
  | .write _ n _ => [n]
  | _ => []

/-- Whether the next write of the thread, if any, is a line. -/
def Pc.expectsLine : Pc → Bool
  | .clear _ => false
  | _ => true

/-- Reads writes of the progress thread as line, clear, line, clear, …: what comes next (`true`
for a line), or `none` when that order is broken. -/
def lineClear : Bool → List Entry → Option Bool
  | b, [] => some b
  | true, .progress _ _ :: es => lineClear false es
  | false, .clear :: es => lineClear true es
  | _, _ => none

theorem lineClear_append (b : Bool) (es es' : List Entry) :
    lineClear b (es ++ es') = (lineClear b es).bind (lineClear · es') := by
  induction es generalizing b with
  | nil => simp [lineClear]
  | cons e es ih => cases b <;> cases e <;> simp [lineClear, ih]

/-! ## What one step does -/

section Steps

variable {rank : Verbosity → Nat} {S S' : Sys}

@[simp] theorem progressStep_handler (e : Nat) : (S.progressStep e).handler = S.handler := by
  unfold Sys.progressStep
  split
  · split <;> rfl
  all_goals rfl

@[simp] theorem progressStep_written (e : Nat) : (S.progressStep e).written = S.written := by
  unfold Sys.progressStep
  split
  · split <;> rfl
  all_goals rfl

/-- A step of the progress thread writes nothing of the handler to standard error. -/
theorem progressStep_stderr (e : Nat) :
    ∃ es, (S.progressStep e).stderr = S.stderr ++ es ∧ ∀ x ∈ es, x.isProgress := by
  unfold Sys.progressStep
  split
  · split
    · exact ⟨[], by simp, by simp⟩
    · exact ⟨[_], rfl, by simp [Entry.isProgress]⟩
  · exact ⟨[_], rfl, by simp [Entry.isProgress]⟩
  · exact ⟨[_], rfl, by simp [Entry.isProgress]⟩
  · exact ⟨[], by simp, by simp⟩

/-- What a call of the main thread does: the step of the handler, its writes to standard error
appended to `stderr`. -/
theorem mainStep_eq_some {c : Call} (hs : S.mainStep rank c = some S') :
    ∃ d, step rank (S.handler, S.written) c = some (S'.handler, S'.written) ∧
      S'.written.stderr = S.written.stderr ++ d ∧ S'.stderr = S.stderr ++ d.map .handler ∧
      S'.pc = S.pc := by
  obtain ⟨⟨h, w⟩, hstep, rfl⟩ := Option.map_eq_some'.mp hs
  obtain ⟨d, hd⟩ := step_stderr_extends hstep
  exact ⟨d, hstep, hd.symm, by simp [← hd], rfl⟩

theorem mainStep_project (c : Call) :
    (S.mainStep rank c).map (fun S => (S.handler, S.written)) =
      step rank (S.handler, S.written) c := by
  simp only [Sys.mainStep, Option.map_map]
  cases step rank (S.handler, S.written) c <;> rfl

theorem toNat_add_one_uint64 (n : UInt64) : (n + 1).toNat = (n.toNat + 1) % 2 ^ 64 := by
  simp only [UInt64.toNat, UInt64.add_def, BitVec.toNat_add]
  rfl

/-- An event moves the counter up by at most one while it cannot wrap. -/
theorem OutputHandler.numEvents_newEvent (h : OutputHandler) (hlt : h.numEvents + 1 < 2 ^ 64) :
    h.numEvents ≤ h.newEvent.numEvents ∧ h.newEvent.numEvents ≤ h.numEvents + 1 := by
  rcases h with ⟨v, ch, f, _ | ⟨n, t⟩⟩
  · exact ⟨le_rfl, Nat.zero_le _⟩
  · simp only [OutputHandler.numEvents, OutputHandler.newEvent, Option.map_some',
      StatisticsData.newEvent] at hlt ⊢
    rw [toNat_add_one_uint64, Nat.mod_eq_of_lt hlt]
    omega

/-- A call of the main thread moves the counter by at most one, upward while it cannot wrap. -/
theorem mainStep_numEvents {c : Call} (hs : S.mainStep rank c = some S')
    (hlt : S.handler.numEvents + (if c.counted then 1 else 0) < 2 ^ 64) :
    S.handler.numEvents ≤ S'.handler.numEvents ∧
      S'.handler.numEvents ≤ S.handler.numEvents + if c.counted then 1 else 0 := by
  obtain ⟨d, hstep, -⟩ := mainStep_eq_some hs
  rw [step_handler hstep]
  cases hc : c.counted <;> simp only [hc, if_true, Bool.false_eq_true, if_false] at hlt ⊢
  · exact ⟨le_rfl, le_rfl⟩
  · exact S.handler.numEvents_newEvent hlt

theorem printProgressInfo_no_events {s : StatisticsData} (e : Nat) (c : Char)
    (h : s.numEvents.toNat = 0) : s.printProgressInfo e c = none := by
  simp [StatisticsData.printProgressInfo, h]

theorem printProgressInfo_isSome {s : StatisticsData} {e : Nat} (c : Char) (he : 0 < e)
    (hn : 0 < s.numEvents.toNat) : (s.printProgressInfo e c).isSome := by
  simp [StatisticsData.printProgressInfo, Nat.pos_iff_ne_zero.mp he, Nat.pos_iff_ne_zero.mp hn]

/-- A live thread stays alive through a step that comes after an event and after time passed. -/
theorem progressStep_alive {e : Nat} (he : 0 < e) (hn : 0 < S.handler.numEvents)
    (hpc : S.pc ≠ .panicked ∧ S.pc ≠ .absent) :
    (S.progressStep e).pc ≠ .panicked ∧ (S.progressStep e).pc ≠ .absent := by
  obtain ⟨h, w, err, pc⟩ := S
  cases pc with
  | print k =>
    cases hst : h.statistics with
    | none => simp [OutputHandler.numEvents, hst] at hn
    | some d =>
      have hd : 0 < d.numEvents.toNat := by simpa [OutputHandler.numEvents, hst] using hn
      obtain ⟨line, hl⟩ :=
        Option.isSome_iff_exists.mp (printProgressInfo_isSome (spinChar k) he hd)
      simp [Sys.progressStep, hst, hl]
  | write k n line | clear k => simp [Sys.progressStep]
  | panicked | absent => simp at hpc

/-- The counts the progress lines show, and the one the thread is about to write. -/
def Sys.shown (S : Sys) : List Nat := S.stderr.filterMap Entry.shown? ++ S.pc.pending

/-- The counts shown never decrease, are positive, and are at most `num_events`. -/
def Sys.ShownInv (S : Sys) : Prop :=
  S.shown.Pairwise (· ≤ ·) ∧ ∀ n ∈ S.shown, 0 < n ∧ n ≤ S.handler.numEvents

theorem mainStep_shown {c : Call} (hs : S.mainStep rank c = some S') : S'.shown = S.shown := by
  obtain ⟨d, -, -, herr, hpc⟩ := mainStep_eq_some hs
  simp [Sys.shown, herr, hpc, List.filterMap_append, List.filterMap_map, Function.comp_def,
    Entry.shown?]

theorem progressStep_shown (e : Nat) (hpc : ∀ k, S.pc ≠ .print k) :
    (S.progressStep e).shown = S.shown := by
  obtain ⟨h, w, err, pc⟩ := S
  cases pc with
  | print k => exact absurd rfl (hpc k)
  | write k n line | clear k | panicked | absent =>
    simp [Sys.progressStep, Sys.shown, Pc.pending, List.filterMap_append, Entry.shown?]

/-- A call of the main thread keeps `ShownInv` while the counter cannot wrap. -/
theorem mainStep_shownInv {c : Call} (hs : S.mainStep rank c = some S')
    (hlt : S.handler.numEvents + (if c.counted then 1 else 0) < 2 ^ 64) (hinv : S.ShownInv) :
    S'.ShownInv := by
  obtain ⟨hle, -⟩ := mainStep_numEvents hs hlt
  refine ⟨mainStep_shown hs ▸ hinv.1, fun n hn => ?_⟩
  obtain ⟨hpos, hn⟩ := hinv.2 n (mainStep_shown hs ▸ hn)
  exact ⟨hpos, hn.trans hle⟩

/-- Every progress line, written or pending, shows a positive count at most `num_events`. -/
def Sys.LinesInv (S : Sys) : Prop :=
  ∀ n ∈ S.stderr.filterMap Entry.line? ++ S.pc.pending, 0 < n ∧ n ≤ S.handler.numEvents

/-- A call of the main thread keeps `LinesInv`: the line of `terminate` shows `num_events`. -/
theorem mainStep_linesInv {c : Call} (hs : S.mainStep rank c = some S')
    (hlt : S.handler.numEvents + (if c.counted then 1 else 0) < 2 ^ 64) (hinv : S.LinesInv) :
    S'.LinesInv := by
  obtain ⟨d, hstep, hw, herr, hpc⟩ := mainStep_eq_some hs
  obtain ⟨d', hw', hd'⟩ := step_stderr_lines hstep
  obtain rfl : d = d' := List.append_cancel_left (hw.symm.trans hw')
  obtain ⟨hle, -⟩ := mainStep_numEvents hs hlt
  intro n hn
  rw [herr, hpc, List.filterMap_append, List.mem_append, List.mem_append] at hn
  rcases hn with (hn | hn) | hn
  · obtain ⟨h0, hn⟩ := hinv n (List.mem_append_left _ hn)
    exact ⟨h0, hn.trans hle⟩
  · obtain ⟨x, hx, hxn⟩ := List.mem_filterMap.mp hn
    obtain ⟨w, hw, rfl⟩ := List.mem_map.mp hx
    cases w with
    | progress m line =>
      obtain ⟨s, hst, rfl, h0⟩ := hd' m line hw
      simp only [Entry.line?, Option.some_inj] at hxn
      subst hxn
      have hs : S.handler.numEvents = s.numEvents.toNat := by simp [OutputHandler.numEvents, hst]
      exact ⟨h0, hs ▸ hle⟩
    | _ => simp [Entry.line?] at hxn
  · obtain ⟨h0, hn⟩ := hinv n (List.mem_append_right _ hn)
    exact ⟨h0, hn.trans hle⟩

/-- A step of the progress thread keeps `LinesInv`: a line shows the count it loaded. -/
theorem progressStep_linesInv (e : Nat) (hinv : S.LinesInv) : (S.progressStep e).LinesInv := by
  obtain ⟨h, w, err, pc⟩ := S
  unfold Sys.LinesInv at hinv ⊢
  cases pc with
  | print k =>
    cases hst : h.statistics with
    | none => simpa [Sys.progressStep, hst] using hinv
    | some d =>
      cases hl : d.printProgressInfo e (spinChar k) with
      | none =>
        simpa [Sys.progressStep, hst, hl, List.filterMap_append, Entry.line?, Pc.pending]
          using hinv
      | some line =>
        have hn : d.numEvents.toNat = h.numEvents := by simp [OutputHandler.numEvents, hst]
        simp only [Sys.progressStep, hst, hl, Pc.pending, List.append_nil] at hinv ⊢
        intro n hn'
        rcases List.mem_append.mp hn' with hn' | hn'
        · exact hinv n hn'
        · rw [List.mem_singleton] at hn'
          subst hn'
          exact ⟨printProgressInfo_pos hl, hn.le⟩
  | write k n line =>
    simpa [Sys.progressStep, List.filterMap_append, Entry.line?, Pc.pending] using hinv
  | clear k | panicked | absent =>
    simpa [Sys.progressStep, List.filterMap_append, Entry.line?, Pc.pending] using hinv

/-- A step of the progress thread keeps `ShownInv`: a line shows the count it loaded. -/
theorem progressStep_shownInv (e : Nat) (hinv : S.ShownInv) : (S.progressStep e).ShownInv := by
  by_cases hpc : ∀ k, S.pc ≠ .print k
  · unfold Sys.ShownInv
    rwa [progressStep_shown e hpc, progressStep_handler]
  obtain ⟨k, hk⟩ : ∃ k, S.pc = .print k := by simpa using hpc
  obtain ⟨h, w, err, pc⟩ := S
  cases hk
  obtain ⟨hsorted, hbound⟩ := hinv
  cases hst : h.statistics with
  | none => simp only [Sys.progressStep, hst]; exact ⟨hsorted, hbound⟩
  | some d =>
    cases hl : d.printProgressInfo e (spinChar k) with
    | none =>
      simpa [Sys.progressStep, hst, hl, Sys.ShownInv, Sys.shown, Pc.pending, List.filterMap_append,
        Entry.shown?] using And.intro hsorted hbound
    | some line =>
      have hn : d.numEvents.toNat = h.numEvents := by simp [OutputHandler.numEvents, hst]
      simp only [Sys.progressStep, hst, hl, Sys.ShownInv, Sys.shown, Pc.pending]
        at hsorted hbound ⊢
      rw [List.append_nil] at hsorted hbound
      refine ⟨List.pairwise_append.mpr ⟨hsorted, List.pairwise_singleton _ _, ?_⟩, ?_⟩
      · simp only [List.mem_singleton]
        rintro a ha b rfl
        exact hn ▸ (hbound a ha).2
      · simp only [List.mem_append, List.mem_singleton]
        rintro n (hn' | rfl)
        exacts [hbound n hn', ⟨printProgressInfo_pos hl, hn.le⟩]

/-- Standard error reads line, clear, line, … in step with the thread, and once the thread has
panicked it ends with the panic hook's message after such a sequence. -/
def Sys.LineClearInv (S : Sys) : Prop :=
  (S.pc ≠ .panicked ∧ lineClear true S.stderr = some S.pc.expectsLine) ∨
    (S.pc = .panicked ∧ ∃ es, S.stderr = es ++ [.panicMessage] ∧ lineClear true es = some true)

/-- A step of the progress thread keeps `LineClearInv`. -/
theorem progressStep_lineClearInv (e : Nat) (hinv : S.LineClearInv) :
    (S.progressStep e).LineClearInv := by
  obtain ⟨h, w, err, pc⟩ := S
  cases pc with
  | print k =>
    have hl : lineClear true err = some true := by
      rcases hinv with ⟨-, hl⟩ | ⟨hp, -⟩
      exacts [hl, absurd hp (by simp)]
    cases hst : h.statistics with
    | none => simpa [Sys.progressStep, hst] using hinv
    | some d =>
      cases hl' : d.printProgressInfo e (spinChar k) with
      | some line => exact .inl ⟨by simp [Sys.progressStep, hst, hl'],
          by simpa [Sys.progressStep, hst, hl', Pc.expectsLine] using hl⟩
      | none => exact .inr ⟨by simp [Sys.progressStep, hst, hl'], err,
          by simp [Sys.progressStep, hst, hl'], hl⟩
  | write k n line | clear k =>
    rcases hinv with ⟨-, hl⟩ | ⟨hp, -⟩
    · simp only [Pc.expectsLine] at hl
      exact .inl ⟨by simp [Sys.progressStep],
        by simp [Sys.progressStep, lineClear_append, hl, lineClear, Pc.expectsLine]⟩
    · simp at hp
  | panicked | absent => simpa [Sys.progressStep] using hinv

/-- A call of the main thread writes no line or clear of the progress thread and leaves it where
it is. -/
theorem mainStep_progress {c : Call} (hs : S.mainStep rank c = some S') :
    S'.stderr.filter Entry.isProgress = S.stderr.filter Entry.isProgress ∧ S'.pc = S.pc := by
  obtain ⟨d, -, -, herr, hpc⟩ := mainStep_eq_some hs
  have hnil : (d.map Entry.handler).filter Entry.isProgress = [] := by
    simp [List.filter_map, Function.comp_def, Entry.isProgress]
  rw [herr, List.filter_append, hnil, List.append_nil]
  exact ⟨rfl, hpc⟩

theorem progressStep_panicked (e : Nat) (hpc : S.pc = .panicked) : S.progressStep e = S := by
  obtain ⟨h, w, err, pc⟩ := S
  cases hpc
  rfl

/-- A call that counts no event leaves the handler, the thread and its writes as they are. -/
theorem mainStep_uncounted {c : Call} (hc : c.counted = false) (hs : S.mainStep rank c = some S') :
    S'.handler = S.handler ∧ S'.pc = S.pc ∧
      S'.stderr.filter Entry.isProgress = S.stderr.filter Entry.isProgress := by
  obtain ⟨d, hstep, -⟩ := mainStep_eq_some hs
  obtain ⟨herr, hpc⟩ := mainStep_progress hs
  refine ⟨?_, hpc, herr⟩
  rw [step_handler hstep, hc]
  rfl

/-- A panicked thread stays panicked and writes nothing more. -/
theorem next_panicked {a : Action} (hpc : S.pc = .panicked) (hs : S.next rank a = some S') :
    S'.pc = .panicked ∧ S'.stderr.filter Entry.isProgress = S.stderr.filter Entry.isProgress := by
  cases a with
  | main c =>
    obtain ⟨herr, hpc'⟩ := mainStep_progress hs
    exact ⟨hpc'.trans hpc, herr⟩
  | progress e =>
    cases hs
    rw [progressStep_panicked e hpc]
    exact ⟨hpc, rfl⟩

/-- With verbosity `Progress` below every kind of message, no call prints. -/
theorem printed_progress_nil
    (hrank : ∀ kind ∈ [Verbosity.warningsOnly, .triggers, .outputs, .debug],
      rank .progress < rank kind) (c : Call) : printed rank .progress c = [] := by
  simp only [List.mem_cons, List.mem_singleton, List.not_mem_nil, or_false, forall_eq_or_imp,
    forall_eq] at hrank
  obtain ⟨h₁, h₂, h₃, h₄⟩ := hrank
  cases c <;> simp [printed, Call.emitted, Nat.not_le.mpr h₁, Nat.not_le.mpr h₂,
    Nat.not_le.mpr h₃, Nat.not_le.mpr h₄]

/-- With verbosity `Progress` below every kind of message, a step other than `terminate` keeps
`LineClearInv`: the handler writes nothing. -/
theorem next_lineClearInv
    (hrank : ∀ kind ∈ [Verbosity.warningsOnly, .triggers, .outputs, .debug],
      rank .progress < rank kind) {a : Action}
    (ha : ∀ c, a = .main c → ∀ e, c ≠ .terminate e)
    (hv : S.handler.verbosity = .progress) (hinv : S.LineClearInv)
    (hs : S.next rank a = some S') :
    S'.handler.verbosity = .progress ∧ S'.LineClearInv := by
  cases a with
  | main c =>
    obtain ⟨d, hstep, hw, herr, hpc⟩ := mainStep_eq_some hs
    have hquiet : S'.written = S.written :=
      step_written_of_printed (hv ▸ printed_progress_nil hrank c) (ha c rfl) hstep
    have hd : d = [] := by simpa [hquiet] using hw
    refine ⟨(step_frame hstep).1.trans hv, ?_⟩
    rw [hd, List.map_nil, List.append_nil] at herr
    unfold Sys.LineClearInv
    rwa [herr, hpc]
  | progress e =>
    cases hs
    exact ⟨by rw [progressStep_handler]; exact hv, progressStep_lineClearInv e hinv⟩

end Steps

/-! ## Invariants along every schedule -/

section Runs

variable {rank : Verbosity → Nat} {S S' : Sys}

theorem exec_cons (S : Sys) (a : Action) (as : List Action) :
    S.exec rank (a :: as) = (S.next rank a).bind (·.exec rank as) := rfl

/-- A property that every step of a schedule keeps holds at its end. -/
theorem exec_induct (P : Sys → Prop) :
    ∀ {as : List Action} {S S' : Sys},
      (∀ a ∈ as, ∀ S S', P S → S.next rank a = some S' → P S') →
      P S → S.exec rank as = some S' → P S'
  | [], _, _, _, hP, hS => by cases hS; exact hP
  | a :: as, S, S', hstep, hP, hS => by
    obtain ⟨S₁, h₁, hS⟩ := Option.bind_eq_some.mp hS
    exact exec_induct P (fun b hb => hstep b (List.mem_cons_of_mem a hb))
      (hstep a (List.mem_cons_self a as) S S₁ hP h₁) hS

/-- The main thread's view of a schedule is the sequential run of its calls. -/
theorem exec_project : ∀ (as : List Action) (S : Sys),
    (S.exec rank as).map (fun S => (S.handler, S.written)) =
      run rank (S.handler, S.written) (as.filterMap Action.call?)
  | [], _ => rfl
  | .main c :: as, S => by
    show ((S.mainStep rank c).bind (·.exec rank as)).map _ =
      run rank _ (c :: as.filterMap Action.call?)
    rw [run_cons, ← mainStep_project]
    cases S.mainStep rank c with
    | none => rfl
    | some S₁ => exact exec_project as S₁
  | .progress e :: as, S => by
    show ((some (S.progressStep e)).bind (·.exec rank as)).map _ =
      run rank _ (as.filterMap Action.call?)
    rw [Option.some_bind, exec_project as, progressStep_handler, progressStep_written]

/-- Standard error holds the handler's writes, in order, among those of the progress thread. -/
theorem next_handlerErr {a : Action} (hs : S.next rank a = some S')
    (hinv : S.stderr.filterMap Entry.handler? = S.written.stderr) :
    S'.stderr.filterMap Entry.handler? = S'.written.stderr := by
  cases a with
  | main c =>
    obtain ⟨d, -, hw, herr, -⟩ := mainStep_eq_some hs
    rw [herr, hw, List.filterMap_append, hinv, List.filterMap_map]
    simp [Function.comp_def, Entry.handler?]
  | progress e =>
    cases hs
    obtain ⟨es, hes, hp⟩ := progressStep_stderr (S := S) e
    have hnone : es.filterMap Entry.handler? = [] := List.filterMap_eq_nil_iff.mpr fun x hx => by
      have := hp x hx
      cases x <;> simp_all [Entry.isProgress, Entry.handler?]
    rw [hes, progressStep_written, List.filterMap_append, hinv, hnone, List.append_nil]

/-- **The progress thread does not interfere with the handler**: whatever the interleaving, the
handler and what it writes are those of the sequential run of the main thread's calls, the program
panics exactly when that run panics, and the writes of the handler reach standard error complete
and in order. -/
theorem exec_refines_run (v : Verbosity) (ch : OutputChannel) (primary : Bool)
    (as : List Action) :
    ((Sys.start v ch primary).exec rank as).map (fun S => (S.handler, S.written)) =
        run rank (OutputHandler.new v ch primary, ⟨[], [], []⟩) (as.filterMap Action.call?) ∧
      ∀ S, (Sys.start v ch primary).exec rank as = some S →
        S.stderr.filterMap Entry.handler? = S.written.stderr :=
  ⟨exec_project as _, fun _ hS =>
    exec_induct (fun S => S.stderr.filterMap Entry.handler? = S.written.stderr)
      (fun _ _ _ _ h hs => next_handlerErr hs h) rfl hS⟩

theorem exec_append (S : Sys) (xs ys : List Action) :
    S.exec rank (xs ++ ys) = (S.exec rank xs).bind (·.exec rank ys) := by
  simp [Sys.exec, List.foldlM_append]

/-- The induction of `exec_induct` for properties that a call keeps while the counter cannot
wrap: along a schedule that counts fewer events than the counter has room for, a property every
step keeps holds at the end, and the counter grows by at most the events counted. -/
theorem exec_induct_counted (P : Sys → Prop) : ∀ {as : List Action},
    (∀ c, .main c ∈ as → ∀ S S', P S →
      S.handler.numEvents + (if c.counted then 1 else 0) < 2 ^ 64 →
        S.mainStep rank c = some S' → P S') →
    (∀ e, .progress e ∈ as → ∀ S, P S → P (S.progressStep e)) →
    ∀ {S S' : Sys}, P S →
      S.handler.numEvents + (as.filterMap Action.call?).countP Call.counted < 2 ^ 64 →
      S.exec rank as = some S' →
        P S' ∧ S'.handler.numEvents ≤
          S.handler.numEvents + (as.filterMap Action.call?).countP Call.counted
  | [], _, _, _, _, hP, _, hS => by cases hS; exact ⟨hP, Nat.le_add_right _ _⟩
  | .main c :: as, hmain, hprog, S, S', hP, hlt, hS => by
    obtain ⟨S₁, h₁, hS⟩ := Option.bind_eq_some.mp hS
    have hcalls : (Action.main c :: as).filterMap Action.call? = c :: as.filterMap Action.call? :=
      rfl
    rw [hcalls, List.countP_cons] at hlt ⊢
    obtain ⟨-, hge⟩ := mainStep_numEvents h₁ (by omega)
    obtain ⟨hP', hcount⟩ := exec_induct_counted P
      (fun c' hc' => hmain c' (List.mem_cons_of_mem _ hc'))
      (fun e he => hprog e (List.mem_cons_of_mem _ he))
      (hmain c (List.mem_cons_self _ _) S S₁ hP (by omega) h₁) (by omega) hS
    exact ⟨hP', by omega⟩
  | .progress e :: as, hmain, hprog, S, S', hP, hlt, hS => by
    rw [exec_cons, Sys.next, Option.some_bind] at hS
    have h := exec_induct_counted P (fun c hc => hmain c (List.mem_cons_of_mem _ hc))
      (fun e' he' => hprog e' (List.mem_cons_of_mem _ he'))
      (hprog e (List.mem_cons_self _ _) S hP) (by rwa [progressStep_handler]) hS
    rwa [progressStep_handler] at h

theorem start_numEvents (v : Verbosity) (ch : OutputChannel) (primary : Bool) :
    (Sys.start v ch primary).handler.numEvents = 0 := by
  simp only [Sys.start, OutputHandler.new, OutputHandler.numEvents]
  split_ifs <;> rfl

theorem start_shown (v : Verbosity) (ch : OutputChannel) (primary : Bool) :
    (Sys.start v ch primary).shown = [] := by
  simp only [Sys.start, Sys.shown]
  split_ifs <;> rfl

/-- **The counts of events the progress lines show never go back**: in every interleaving in
which fewer than `2 ^ 64` events are counted, the counts on the progress lines, in the order they
reach standard error, never decrease, are never `0`, and are at most the number of events the
main thread counted. -/
theorem progress_counts_monotone (v : Verbosity) (ch : OutputChannel) (primary : Bool)
    (as : List Action) (hlt : (as.filterMap Action.call?).countP Call.counted < 2 ^ 64)
    {S : Sys} (hS : (Sys.start v ch primary).exec rank as = some S) :
    (S.stderr.filterMap Entry.shown?).Pairwise (· ≤ ·) ∧
      ∀ n ∈ S.stderr.filterMap Entry.shown?,
        0 < n ∧ n ≤ (as.filterMap Action.call?).countP Call.counted := by
  have hinit : (Sys.start v ch primary).ShownInv := by
    refine ⟨?_, ?_⟩ <;> simp [start_shown]
  obtain ⟨⟨hsorted, hbound⟩, hcount⟩ := exec_induct_counted Sys.ShownInv
    (fun _ _ _ _ hinv hlt hs => mainStep_shownInv hs hlt hinv)
    (fun e _ _ hinv => progressStep_shownInv e hinv) hinit (by rw [start_numEvents]; omega) hS
  rw [start_numEvents, Nat.zero_add] at hcount
  refine ⟨hsorted.sublist (List.sublist_append_left _ _), fun n hn => ?_⟩
  obtain ⟨hpos, hle⟩ := hbound n (List.mem_append_left _ hn)
  exact ⟨hpos, hle.trans hcount⟩

theorem iterate_add_one_toNat (k : Nat) : ((· + 1)^[k] (0 : UInt64)).toNat = k % 2 ^ 64 := by
  induction k with
  | zero => rfl
  | succ k ih => rw [Function.iterate_succ_apply', toNat_add_one_uint64, ih, Nat.mod_add_mod]

/-- From the start of a primary `Progress` handler, `num_events` is the number of events the main
thread counted, while there are fewer than `2 ^ 64`. -/
theorem exec_start_numEvents (ch : OutputChannel) (as : List Action)
    (hlt : (as.filterMap Action.call?).countP Call.counted < 2 ^ 64) {S : Sys}
    (hS : (Sys.start .progress ch true).exec rank as = some S) :
    S.handler.numEvents = (as.filterMap Action.call?).countP Call.counted := by
  have hrun := @exec_project rank as (Sys.start .progress ch true)
  rw [hS, Option.map_some'] at hrun
  rw [run_handler hrun.symm, OutputHandler.iterate_newEvent]
  simp only [Sys.start, OutputHandler.new, OutputHandler.numEvents, StatisticsData.new,
    StatisticsData.iterate_newEvent, iterate_add_one_toNat, and_self, if_true, Option.map_some']
  exact Nat.mod_eq_of_lt hlt

/-- A primary `Progress` handler keeps its statistics along every schedule. -/
theorem exec_start_statistics (ch : OutputChannel) (as : List Action) {S : Sys}
    (hS : (Sys.start .progress ch true).exec rank as = some S) :
    ∃ s, S.handler.statistics = some s := by
  have hrun := @exec_project rank as (Sys.start .progress ch true)
  rw [hS, Option.map_some'] at hrun
  rw [run_handler hrun.symm, OutputHandler.iterate_newEvent]
  exact ⟨_, rfl⟩

/-- **Every progress line shows a true count, and the last one is exact**: in every interleaving
from a primary `Progress` handler in which fewer than `2 ^ 64` events are counted, every progress
line on standard error, of the thread or the last one of `Statistics::terminate`, shows a positive
count at most the number of events counted; and when the schedule ends with `terminate`, the
last write to standard error is its line, which shows exactly that number. -/
theorem progress_lines_bounded (ch : OutputChannel) (as : List Action) (e : Nat)
    (hlt : (as.filterMap Action.call?).countP Call.counted < 2 ^ 64) :
    (∀ S, (Sys.start .progress ch true).exec rank as = some S →
      ∀ n ∈ S.stderr.filterMap Entry.line?,
        0 < n ∧ n ≤ (as.filterMap Action.call?).countP Call.counted) ∧
    ∀ S, (Sys.start .progress ch true).exec rank (as ++ [.main (.terminate e)]) = some S →
      ∃ line, S.stderr.getLast? =
        some (.handler (.progress ((as.filterMap Action.call?).countP Call.counted) line)) := by
  refine ⟨fun S hS n hn => ?_, fun S hS => ?_⟩
  · obtain ⟨hinv, hcount⟩ := exec_induct_counted Sys.LinesInv
      (fun _ _ _ _ hinv hlt hs => mainStep_linesInv hs hlt hinv)
      (fun e _ _ hinv => progressStep_linesInv e hinv)
      (by simp [Sys.LinesInv, Sys.start, Pc.pending]) (by rw [start_numEvents]; omega) hS
    rw [start_numEvents, Nat.zero_add] at hcount
    obtain ⟨h0, hle⟩ := hinv n (List.mem_append_left _ hn)
    exact ⟨h0, hle.trans hcount⟩
  · obtain ⟨S₁, h₁, hS⟩ := Option.bind_eq_some.mp ((exec_append _ _ _).symm.trans hS)
    obtain ⟨S₂, h₂, hS⟩ := Option.bind_eq_some.mp hS
    cases hS
    obtain ⟨s, hst⟩ := exec_start_statistics ch as h₁
    obtain ⟨d, hstep, hw, herr, -⟩ := mainStep_eq_some h₂
    obtain ⟨w', ht, hw'⟩ := Option.map_eq_some'.mp hstep
    obtain ⟨line, -, hline⟩ := terminate_eq_some hst ht
    obtain ⟨-, rfl⟩ := Prod.mk.inj hw'
    obtain rfl : d = [.clear, .progress s.numEvents.toNat line] :=
      List.append_cancel_left (hw.symm.trans hline)
    have hn : S₁.handler.numEvents = s.numEvents.toNat := by
      simp [OutputHandler.numEvents, hst]
    refine ⟨line, ?_⟩
    rw [herr, ← hn, exec_start_numEvents ch as hlt h₁]
    simp

/-- **A progress thread that wakes before the first event panics**: if the main thread makes only
calls that count no event before the first step of the progress thread, that step divides by
`num_events = 0`, the panic hook prints its message, and whatever comes after, that message is
the thread's only write: it never shows a progress line or a clear of its own. -/
theorem progress_panics_before_first_event (ch : OutputChannel) (pre : List Call)
    (hpre : pre.countP Call.counted = 0) (e : Nat) (post : List Action) {S : Sys}
    (hS : (Sys.start .progress ch true).exec rank (pre.map .main ++ .progress e :: post) =
      some S) :
    S.pc = .panicked ∧ S.stderr.filter Entry.isProgress = [.panicMessage] := by
  obtain ⟨S₁, h₁, hS⟩ := Option.bind_eq_some.mp ((exec_append _ _ _).symm.trans hS)
  obtain ⟨hst, hpc, herr⟩ := exec_induct (S := Sys.start .progress ch true)
    (fun S => S.handler.statistics = some .new ∧ S.pc = .print 0 ∧
      S.stderr.filter Entry.isProgress = [])
    (fun a ha S S' hP hs => by
      obtain ⟨c, hc, rfl⟩ := List.mem_map.mp ha
      obtain ⟨hh, hpc, herr⟩ :=
        mainStep_uncounted (by simpa using List.countP_eq_zero.mp hpre c hc) hs
      exact ⟨hh ▸ hP.1, hpc ▸ hP.2.1, herr ▸ hP.2.2⟩)
    ⟨rfl, rfl, rfl⟩ h₁
  -- the first step of the thread loads `num_events = 0`
  have hpanic : S₁.progressStep e =
      { S₁ with pc := .panicked, stderr := S₁.stderr ++ [.panicMessage] } := by
    obtain ⟨h, w, err, pc⟩ := S₁
    cases hpc
    simp only at hst
    have h0 : StatisticsData.new.numEvents.toNat = 0 := rfl
    simp [Sys.progressStep, hst, printProgressInfo_no_events e _ h0]
  rw [exec_cons, Sys.next, Option.some_bind, hpanic] at hS
  exact exec_induct (S := { S₁ with pc := .panicked, stderr := S₁.stderr ++ [.panicMessage] })
    (fun S => S.pc = .panicked ∧ S.stderr.filter Entry.isProgress = [.panicMessage])
    (fun _ _ _ _ hP hs => (next_panicked hP.1 hs).imp_right (·.trans hP.2))
    ⟨rfl, by simp [List.filter_append, herr, Entry.isProgress]⟩ hS

/-- **A progress thread that wakes after the first event never panics**: if the main thread
counts an event before the first step of the progress thread, every step of the thread comes after
some time has passed, and fewer than `2 ^ 64` events are counted, the thread is alive at the end of
every interleaving. With `progress_panics_before_first_event`, the thread dies exactly when it
wakes before the first event. -/
theorem progress_lives_after_first_event (ch : OutputChannel) (pre : List Call)
    (hpre : 0 < pre.countP Call.counted) (post : List Action)
    (hpost : ∀ e, Action.progress e ∈ post → 0 < e)
    (hlt : (pre ++ post.filterMap Action.call?).countP Call.counted < 2 ^ 64) {S : Sys}
    (hS : (Sys.start .progress ch true).exec rank (pre.map .main ++ post) = some S) :
    S.pc ≠ .panicked := by
  have hcalls : (pre.map Action.main).filterMap Action.call? = pre := by
    simp [List.filterMap_map, Function.comp_def, Action.call?]
  obtain ⟨S₁, h₁, hS⟩ := Option.bind_eq_some.mp ((exec_append _ _ _).symm.trans hS)
  rw [List.countP_append] at hlt
  have hn : S₁.handler.numEvents = pre.countP Call.counted := by
    rw [exec_start_numEvents ch _ (by rw [hcalls]; omega) h₁, hcalls]
  have hpc : S₁.pc = .print 0 := exec_induct (S := Sys.start .progress ch true)
    (fun S => S.pc = .print 0)
    (fun a ha S S' hP hs => by
      obtain ⟨c, -, rfl⟩ := List.mem_map.mp ha
      exact (mainStep_progress hs).2.trans hP)
    rfl h₁
  refine (exec_induct_counted
    (fun S => (S.pc ≠ .panicked ∧ S.pc ≠ .absent) ∧ 0 < S.handler.numEvents)
    (fun c _ S S' hP hlt' hs => ?_) (fun e he S hP => ?_)
    ⟨by simp [hpc], by omega⟩ (by omega) hS).1.1.1
  · obtain ⟨hle, -⟩ := mainStep_numEvents hs hlt'
    exact ⟨(mainStep_progress hs).2 ▸ hP.1, by omega⟩
  · exact ⟨progressStep_alive (hpost e he) hP.2 hP.1, by rw [progressStep_handler]; exact hP.2⟩

/-- **The progress thread only clears its own lines** when `Progress` is less verbose than every
kind of message: in every interleaving of calls without `terminate`, the handler writes nothing to
standard error, which reads line, clear, line, clear, …, possibly ended by the panic hook's
message, so each clear erases the line the progress thread wrote just before it. -/
theorem stderr_progress_only (ch : OutputChannel) (as : List Action)
    (hrank : ∀ kind ∈ [Verbosity.warningsOnly, .triggers, .outputs, .debug],
      rank .progress < rank kind)
    (hterm : ∀ c ∈ as.filterMap Action.call?, ∀ e, c ≠ .terminate e) {S : Sys}
    (hS : (Sys.start .progress ch true).exec rank as = some S) :
    ∃ es, lineClear true es ≠ none ∧ (S.stderr = es ∨ S.stderr = es ++ [.panicMessage]) := by
  have hinv := exec_induct (S := Sys.start .progress ch true)
    (fun S => S.handler.verbosity = .progress ∧ S.LineClearInv)
    (fun a ha S S' hP hs => next_lineClearInv hrank
      (fun c hc => hterm c (List.mem_filterMap.mpr ⟨a, ha, by subst hc; rfl⟩)) hP.1 hP.2 hs)
    ⟨rfl, .inl ⟨by simp [Sys.start], rfl⟩⟩ hS
  rcases hinv.2 with ⟨-, hl⟩ | ⟨-, es, hes, hl⟩
  · exact ⟨S.stderr, by simp [hl], .inl rfl⟩
  · exact ⟨es, by simp [hl], .inr hes⟩

end Runs

/-! ## A sample interleaving -/

/-- A warning, an event, a trigger, and the progress thread printing and clearing twice. -/
def sampleSchedule : List Action :=
  [.main (.runtimeWarning "w"), .main .newEvent, .progress 1000000, .main (.trigger "t"),
    .progress 1000000, .progress 1000000, .progress 2000000, .progress 2000000]

theorem progress_counts_monotone_sample :
    (sampleSchedule.filterMap Action.call?).countP Call.counted < 2 ^ 64 ∧
      ∃ S, (Sys.start .progress .stdErr true).exec sampleRank sampleSchedule = some S ∧
        (S.stderr.filterMap Entry.shown?).Pairwise (· ≤ ·) ∧
        ∀ n ∈ S.stderr.filterMap Entry.shown?,
          0 < n ∧ n ≤ (sampleSchedule.filterMap Action.call?).countP Call.counted :=
  ⟨by decide, _, rfl,
    @progress_counts_monotone sampleRank .progress .stdErr true sampleSchedule (by decide) _ rfl⟩

theorem progress_panics_before_first_event_sample :
    [Call.runtimeWarning "w"].countP Call.counted = 0 ∧
      ∃ S, (Sys.start .progress .stdErr true).exec sampleRank
          ([Call.runtimeWarning "w"].map .main ++ .progress 1000000 :: sampleSchedule) = some S ∧
        S.pc = .panicked ∧ S.stderr.filter Entry.isProgress = [.panicMessage] :=
  ⟨by decide, _, rfl,
    @progress_panics_before_first_event sampleRank .stdErr [.runtimeWarning "w"] (by decide)
      1000000 sampleSchedule _ rfl⟩

theorem progress_lives_after_first_event_sample :
    0 < [Call.newEvent].countP Call.counted ∧
      (∀ e, Action.progress e ∈ sampleSchedule → 0 < e) ∧
      ([Call.newEvent] ++ sampleSchedule.filterMap Action.call?).countP Call.counted < 2 ^ 64 ∧
      ∃ S, (Sys.start .progress .stdErr true).exec sampleRank
          ([Call.newEvent].map .main ++ sampleSchedule) = some S ∧ S.pc ≠ .panicked :=
  have hpost : ∀ e, Action.progress e ∈ sampleSchedule → 0 < e := by
    simp [sampleSchedule]
  ⟨by decide, hpost, by decide, _, rfl,
    @progress_lives_after_first_event sampleRank .stdErr [.newEvent] (by decide) sampleSchedule
      hpost (by decide) _ rfl⟩

theorem progress_lines_bounded_sample :
    (sampleSchedule.filterMap Action.call?).countP Call.counted < 2 ^ 64 ∧
      ∃ S, (Sys.start .progress .stdErr true).exec sampleRank
          (sampleSchedule ++ [.main (.terminate 3000000)]) = some S ∧
        ∃ line, S.stderr.getLast? = some (.handler
          (.progress ((sampleSchedule.filterMap Action.call?).countP Call.counted) line)) :=
  ⟨by decide, _, rfl,
    (@progress_lines_bounded sampleRank .stdErr sampleSchedule 3000000 (by decide)).2 _ rfl⟩

theorem stderr_progress_only_sample :
    (∀ kind ∈ [Verbosity.warningsOnly, .triggers, .outputs, .debug],
      sampleRank .progress < sampleRank kind) ∧
      (∀ c ∈ sampleSchedule.filterMap Action.call?, ∀ e, c ≠ .terminate e) ∧
      ∃ S, (Sys.start .progress .stdErr true).exec sampleRank sampleSchedule = some S ∧
        ∃ es, lineClear true es ≠ none ∧ (S.stderr = es ∨ S.stderr = es ++ [.panicMessage]) :=
  have hterm : ∀ c ∈ sampleSchedule.filterMap Action.call?, ∀ e, c ≠ .terminate e := by
    simp [sampleSchedule, Action.call?]
  ⟨by decide, hterm, _, rfl,
    @stderr_progress_only sampleRank .stdErr sampleSchedule (by decide) hterm _ rfl⟩

end RTLola.Io
