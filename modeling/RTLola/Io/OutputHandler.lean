import Mathlib.Data.UInt
import Mathlib.Data.List.Count

/-!
# The output handler: what is printed, and what the statistics count

Model of `OutputHandler` and `Statistics` (`rtlola/src/basics/io_handler.rs:175-338`): `new`,
`runtime_warning`, `trigger`, `debug`, `output`, `emit`, `print`, `new_event`, `terminate`, and
of `Statistics::trigger`, `new_event`, `terminate`, `print_progress_info` and
`clear_progress_info`.

* `Verbosity` and `EvalConfig` belong to `basics`, which is not part of the sources. The variants
  of `Verbosity` are the ones `Config::new` names (`evaluator/src/lib.rs:139-147`); the order in
  which they are declared, and so the derived `<=` that `emit` compares with, is not known:
  every result holds for any `rank` of the variants.
* The handler is a state machine. Its state is the handler with the counters of its
  `StatisticsData`, which the handler shares through an `Arc` (`num_events`, `num_triggers`: the
  `AtomicU64`s, whose `fetch_add` wraps); `start` is left out. The effect of a step is the list of
  writes to each output (`Written`); writes that fail are ignored, as `print` ignores them. A
  write to standard error says what it is (`ErrWrite`): a message of `print`, a line of
  `print_progress_info` with the count of events it shows, or the codes of `clear_progress_info`
  (`cursor::Up(1)` and `clear::CurrentLine` of `termion`, not part of the sources).
* `print` on a `File` channel unwraps `self.file`, which `new` sets to `None` and nothing sets
  again: that is a panic (`none`). `file` is whether the `Option<File>` holds a file.
* `print_progress_info` is given the nanoseconds elapsed since `start`. `Statistics::terminate`
  writes the clear, then the line; when the line panics the run ends (`none`) and the clear is
  not recorded. The progress thread of `Statistics::new` is modelled in `RTLola.Io.Progress`.

Results:
* `run_statistics`: along every run from `new`, `num_triggers` stays `0` and `num_events`
  counts the events and the triggers: `Statistics::trigger` increments `num_events`.
* `run_stdout`: on the `StdOut` channel a run prints exactly the messages whose kind is at most
  as verbose as the configured verbosity, in order, each with a newline.
* `run_file_channel`: on a `File` channel every run that prints a message panics; the calls
  before the first message that passes the filter succeed, and that message panics.
* `terminate_no_events`: `terminate` of a handler with statistics panics while no event has been
  counted (`elapsed_total / num_events`).
* `run_isSome`: on `StdOut` or `StdErr`, a run of calls without `terminate` never panics.
-/

namespace RTLola.Io

/-- `Verbosity` of `basics`, with the variants `Config::new` names. -/
inductive Verbosity where
  | debug | outputs | triggers | warningsOnly | progress | silent
  deriving DecidableEq, Repr

/-- `OutputChannel`. -/
inductive OutputChannel where
  | stdOut
  | stdErr
  | file (path : String)
  deriving DecidableEq, Repr

/-- The counters of `StatisticsData`. -/
structure StatisticsData where
  numEvents : UInt64
  numTriggers : UInt64
  deriving DecidableEq, Repr

/-- `OutputHandler`. -/
structure OutputHandler where
  verbosity : Verbosity
  channel : OutputChannel
  file : Bool
  statistics : Option StatisticsData
  deriving DecidableEq, Repr

/-- A write to standard error: a message of `print`, a line of `print_progress_info` with the
count of events it shows, or what `clear_progress_info` writes (up one line, clear the line). -/
inductive ErrWrite where
  | message (s : String)
  | progress (numEvents : Nat) (line : String)
  | clear
  deriving DecidableEq, Repr

/-- The writes of the handler to each output. -/
structure Written where
  stdout : List String
  stderr : List ErrWrite
  file : List String
  deriving DecidableEq, Repr

/-- `StatisticsData::new`. -/
def StatisticsData.new : StatisticsData := ⟨0, 0⟩

/-- `Statistics::new_event`: `num_events.fetch_add(1)`. -/
def StatisticsData.newEvent (s : StatisticsData) : StatisticsData :=
  { s with numEvents := s.numEvents + 1 }

/-- `Statistics::trigger`: also `num_events.fetch_add(1)`. -/
def StatisticsData.trigger (s : StatisticsData) : StatisticsData :=
  { s with numEvents := s.numEvents + 1 }

/-- `Statistics::print_progress_info`, given the nanoseconds `elapsedTotal` since `start`: the
line it writes, or the panic of a division by zero. -/
def StatisticsData.printProgressInfo (s : StatisticsData) (elapsedTotal : Nat) (spinChar : Char) :
    Option String :=
  let numEvents := s.numEvents.toNat
  if elapsedTotal = 0 then none
  else
    let eventsPerSecond := numEvents * 1000000000 / elapsedTotal
    if numEvents = 0 then none
    else
      let nanosPerEvent := elapsedTotal / numEvents
      some (spinChar.toString ++ " " ++ toString numEvents ++ " events, " ++
        toString eventsPerSecond ++ " events per second, " ++ toString nanosPerEvent ++
        " nsec per event" ++ "\n")

/-- `OutputHandler::new`, given `config.verbosity` and `config.output_channel`. -/
def OutputHandler.new (verbosity : Verbosity) (channel : OutputChannel) (primary : Bool) :
    OutputHandler :=
  { verbosity, channel, file := false,
    statistics := if primary ∧ verbosity = .progress then some .new else none }

/-- `OutputHandler::print`. -/
def OutputHandler.print (h : OutputHandler) (w : Written) (msg : String) : Option Written :=
  match h.channel with
  | .stdOut => some { w with stdout := w.stdout ++ [msg ++ "\n"] }
  | .stdErr => some { w with stderr := w.stderr ++ [.message (msg ++ "\n")] }
  | .file _ => if h.file then some { w with file := w.file ++ [msg] } else none

section Emit

variable (rank : Verbosity → Nat)

/-- `OutputHandler::emit`: print `msg` when `kind <= self.verbosity`. -/
def OutputHandler.emit (h : OutputHandler) (w : Written) (kind : Verbosity) (msg : String) :
    Option Written :=
  if rank kind ≤ rank h.verbosity then h.print w msg else some w

/-- `OutputHandler::runtime_warning`. -/
def OutputHandler.runtimeWarning (h : OutputHandler) (w : Written) (msg : String) :
    Option Written :=
  h.emit rank w .warningsOnly msg

/-- `OutputHandler::debug`. -/
def OutputHandler.debug (h : OutputHandler) (w : Written) (msg : String) : Option Written :=
  h.emit rank w .debug msg

/-- `OutputHandler::output`. -/
def OutputHandler.output (h : OutputHandler) (w : Written) (msg : String) : Option Written :=
  h.emit rank w .outputs msg

/-- `OutputHandler::trigger`: emit, then count in the statistics. -/
def OutputHandler.trigger (h : OutputHandler) (w : Written) (msg : String) :
    Option (OutputHandler × Written) := do
  let w ← h.emit rank w .triggers msg
  pure ({ h with statistics := h.statistics.map StatisticsData.trigger }, w)

end Emit

/-- `OutputHandler::new_event`. -/
def OutputHandler.newEvent (h : OutputHandler) : OutputHandler :=
  { h with statistics := h.statistics.map StatisticsData.newEvent }

/-- `OutputHandler::terminate`, given the nanoseconds elapsed since `start`: `Statistics::terminate`
clears a line (`clear_progress_info`) and writes the progress line with a blank spinner. -/
def OutputHandler.terminate (h : OutputHandler) (w : Written) (elapsedTotal : Nat) :
    Option Written :=
  match h.statistics with
  | none => some w
  | some s => do
    let line ← s.printProgressInfo elapsedTotal ' '
    pure { w with stderr := w.stderr ++ [.clear, .progress s.numEvents.toNat line] }

/-! ## Runs of the handler -/

/-- A call on the handler. -/
inductive Call where
  | runtimeWarning (msg : String)
  | trigger (msg : String)
  | debug (msg : String)
  | output (msg : String)
  | newEvent
  | terminate (elapsedTotal : Nat)
  deriving DecidableEq, Repr

/-- The kind and message a call emits, if any. -/
def Call.emitted : Call → Option (Verbosity × String)
  | .runtimeWarning msg => some (.warningsOnly, msg)
  | .trigger msg => some (.triggers, msg)
  | .debug msg => some (.debug, msg)
  | .output msg => some (.outputs, msg)
  | .newEvent | .terminate _ => none

/-- Whether a call counts in `num_events`. -/
def Call.counted : Call → Bool
  | .trigger _ | .newEvent => true
  | _ => false

section Run

variable (rank : Verbosity → Nat)

/-- One call on the handler. -/
def step (hw : OutputHandler × Written) : Call → Option (OutputHandler × Written)
  | .runtimeWarning msg => (hw.1.runtimeWarning rank hw.2 msg).map (hw.1, ·)
  | .trigger msg => hw.1.trigger rank hw.2 msg
  | .debug msg => (hw.1.debug rank hw.2 msg).map (hw.1, ·)
  | .output msg => (hw.1.output rank hw.2 msg).map (hw.1, ·)
  | .newEvent => some (hw.1.newEvent, hw.2)
  | .terminate elapsedTotal => (hw.1.terminate hw.2 elapsedTotal).map (hw.1, ·)

/-- A run of calls; `none` when one of them panics. -/
def run (hw : OutputHandler × Written) (calls : List Call) : Option (OutputHandler × Written) :=
  calls.foldlM (step rank) hw

end Run

/-! ## What a step does -/

/-- `Statistics::trigger` does what `Statistics::new_event` does: it counts an event, and
`num_triggers` is never incremented. -/
theorem StatisticsData.trigger_eq_newEvent (s : StatisticsData) : s.trigger = s.newEvent := rfl

theorem StatisticsData.iterate_newEvent (k : Nat) (s : StatisticsData) :
    StatisticsData.newEvent^[k] s = ⟨(· + 1)^[k] s.numEvents, s.numTriggers⟩ := by
  induction k generalizing s with
  | zero => rfl
  | succ k ih => rw [Function.iterate_succ_apply, ih, Function.iterate_succ_apply]; rfl

theorem OutputHandler.iterate_newEvent (k : Nat) (h : OutputHandler) :
    OutputHandler.newEvent^[k] h =
      { h with statistics := h.statistics.map (StatisticsData.newEvent^[k]) } := by
  induction k generalizing h with
  | zero => cases h; simp
  | succ k ih =>
    rw [Function.iterate_succ_apply, ih]
    cases h with
    | mk v c f st => cases st <;> rfl

/-- The messages a call prints on a standard channel of a handler with verbosity `v`. -/
def printed (rank : Verbosity → Nat) (v : Verbosity) (c : Call) : List String :=
  match c.emitted with
  | some (kind, msg) => if rank kind ≤ rank v then [msg ++ "\n"] else []
  | none => []

section Steps

variable {rank : Verbosity → Nat} {h h' : OutputHandler} {w w' : Written} {c : Call}

theorem emit_eq_some {kind : Verbosity} {msg : String} (he : h.emit rank w kind msg = some w') :
    (rank kind ≤ rank h.verbosity ∧ h.print w msg = some w') ∨
      (¬ rank kind ≤ rank h.verbosity ∧ w' = w) := by
  unfold OutputHandler.emit at he
  split_ifs at he with hk
  · exact .inl ⟨hk, he⟩
  · exact .inr ⟨hk, (Option.some_inj.mp he).symm⟩

/-- A call changes the handler only by counting an event. -/
theorem step_handler (hs : step rank (h, w) c = some (h', w')) :
    h' = if c.counted then h.newEvent else h := by
  cases c <;> simp only [step, OutputHandler.runtimeWarning, OutputHandler.debug,
    OutputHandler.output, OutputHandler.trigger, Option.map_eq_some', Option.bind_eq_bind,
    Option.bind_eq_some, Option.pure_def, Option.some_inj, Prod.mk.injEq] at hs
  all_goals first
    | (obtain ⟨_, -, rfl, -⟩ := hs; rfl)
    | (obtain ⟨rfl, -⟩ := hs; rfl)

theorem print_stdOut (hch : h.channel = .stdOut) {msg : String} :
    h.print w msg = some { w with stdout := w.stdout ++ [msg ++ "\n"] } := by
  simp [OutputHandler.print, hch]

theorem emit_stdout (hch : h.channel = .stdOut) {kind : Verbosity} {msg : String}
    (he : h.emit rank w kind msg = some w') :
    w'.stdout = w.stdout ++ if rank kind ≤ rank h.verbosity then [msg ++ "\n"] else [] := by
  unfold OutputHandler.emit at he
  split_ifs at he with hk
  · rw [print_stdOut hch] at he
    cases he
    simp [hk]
  · cases he
    simp [hk]

theorem terminate_stdout {e : Nat} (ht : h.terminate w e = some w') : w'.stdout = w.stdout := by
  unfold OutputHandler.terminate at ht
  split at ht
  · cases ht; rfl
  · obtain ⟨_, -, hw⟩ := Option.bind_eq_some.mp ht
    cases hw
    rfl

/-- On `StdOut` a call appends to standard output what it prints. -/
theorem step_stdout (hch : h.channel = .stdOut) (hs : step rank (h, w) c = some (h', w')) :
    w'.stdout = w.stdout ++ printed rank h.verbosity c := by
  cases c with
  | runtimeWarning msg | debug msg | output msg =>
    obtain ⟨w'', he, hw⟩ := Option.map_eq_some'.mp hs
    cases hw
    exact emit_stdout hch he
  | trigger msg =>
    obtain ⟨w'', he, hw⟩ := Option.bind_eq_some.mp hs
    cases hw
    exact emit_stdout hch he
  | newEvent =>
    cases hs
    simp [printed, Call.emitted]
  | terminate e =>
    obtain ⟨w'', ht, hw⟩ := Option.map_eq_some'.mp hs
    cases hw
    simp [terminate_stdout ht, printed, Call.emitted]

/-- A call keeps the verbosity, the channel and the file of the handler. -/
theorem step_frame (hs : step rank (h, w) c = some (h', w')) :
    h'.verbosity = h.verbosity ∧ h'.channel = h.channel ∧ h'.file = h.file := by
  rw [step_handler hs]
  split <;> exact ⟨rfl, rfl, rfl⟩

/-- On a `File` channel of a handler without a file, a call that returns printed nothing. -/
theorem step_file {p : String} (hch : h.channel = .file p) (hf : h.file = false)
    (hs : step rank (h, w) c = some (h', w')) : printed rank h.verbosity c = [] := by
  have hemit : ∀ {kind msg w''}, h.emit rank w kind msg = some w'' →
      ¬ rank kind ≤ rank h.verbosity := fun he => by
    rcases emit_eq_some he with ⟨-, hp⟩ | ⟨hk, -⟩
    · simp [OutputHandler.print, hch, hf] at hp
    · exact hk
  cases c with
  | runtimeWarning msg | debug msg | output msg =>
    obtain ⟨_, he, -⟩ := Option.map_eq_some'.mp hs
    simp [printed, Call.emitted, hemit he]
  | trigger msg =>
    obtain ⟨_, he, -⟩ := Option.bind_eq_some.mp hs
    simp [printed, Call.emitted, hemit he]
  | newEvent | terminate _ => rfl

/-- On a standard channel only `terminate` can panic. -/
theorem step_isSome (hch : h.channel = .stdOut ∨ h.channel = .stdErr)
    (hc : ∀ e, c ≠ .terminate e) : (step rank (h, w) c).isSome := by
  have hprint : ∀ msg, (h.print w msg).isSome := fun msg => by
    rcases hch with hch | hch <;> simp [OutputHandler.print, hch]
  have hemit : ∀ kind msg, (h.emit rank w kind msg).isSome := fun kind msg => by
    unfold OutputHandler.emit
    split_ifs
    exacts [hprint msg, rfl]
  cases c with
  | runtimeWarning msg | debug msg | output msg =>
    simpa [step, OutputHandler.runtimeWarning, OutputHandler.debug, OutputHandler.output]
      using hemit _ msg
  | trigger msg =>
    obtain ⟨w', hw'⟩ := Option.isSome_iff_exists.mp (hemit .triggers msg)
    simp [step, OutputHandler.trigger, hw']
  | newEvent => rfl
  | terminate e => exact absurd rfl (hc e)

/-- What a call writes: what `emit` writes for the message it emits, nothing for `new_event`, and
what `terminate` writes. -/
theorem step_written (hs : step rank (h, w) c = some (h', w')) :
    (∃ kind msg, c.emitted = some (kind, msg) ∧ h.emit rank w kind msg = some w') ∨
      (c = .newEvent ∧ w' = w) ∨ (∃ e, c = .terminate e ∧ h.terminate w e = some w') := by
  cases c with
  | runtimeWarning msg | debug msg | output msg =>
    obtain ⟨_, he, hw⟩ := Option.map_eq_some'.mp hs
    cases hw
    exact .inl ⟨_, msg, rfl, he⟩
  | trigger msg =>
    obtain ⟨_, he, hw⟩ := Option.bind_eq_some.mp hs
    cases hw
    exact .inl ⟨_, msg, rfl, he⟩
  | newEvent => cases hs; exact .inr (.inl ⟨rfl, rfl⟩)
  | terminate e =>
    obtain ⟨_, ht, hw⟩ := Option.map_eq_some'.mp hs
    cases hw
    exact .inr (.inr ⟨e, rfl, ht⟩)

theorem printProgressInfo_pos {s : StatisticsData} {e : Nat} {c : Char} {line : String}
    (hl : s.printProgressInfo e c = some line) : 0 < s.numEvents.toNat := by
  simp only [StatisticsData.printProgressInfo] at hl
  split_ifs at hl with h₁ h₂
  omega

/-- With statistics, `terminate` writes a clear and a line that shows `num_events`. -/
theorem terminate_eq_some {s : StatisticsData} {e : Nat} (hst : h.statistics = some s)
    (ht : h.terminate w e = some w') :
    ∃ line, s.printProgressInfo e ' ' = some line ∧
      w'.stderr = w.stderr ++ [.clear, .progress s.numEvents.toNat line] := by
  simp only [OutputHandler.terminate, hst, Option.bind_eq_bind, Option.bind_eq_some,
    Option.pure_def, Option.some_inj] at ht
  obtain ⟨line, hl, rfl⟩ := ht
  exact ⟨line, hl, rfl⟩

/-- A call only appends to standard error, and the only progress line it writes is the last line
of `terminate`, which shows the events counted so far, at least one. -/
theorem step_stderr_lines (hs : step rank (h, w) c = some (h', w')) :
    ∃ d, w'.stderr = w.stderr ++ d ∧ ∀ n line, ErrWrite.progress n line ∈ d →
      ∃ s, h.statistics = some s ∧ n = s.numEvents.toNat ∧ 0 < n := by
  rcases step_written hs with ⟨kind, msg, -, he⟩ | ⟨-, rfl⟩ | ⟨e, -, ht⟩
  · rcases emit_eq_some he with ⟨-, hp⟩ | ⟨-, rfl⟩
    · unfold OutputHandler.print at hp
      split at hp
      · cases hp; exact ⟨[], by simp, by simp⟩
      · cases hp; exact ⟨[_], rfl, by simp⟩
      · split_ifs at hp
        cases hp
        exact ⟨[], by simp, by simp⟩
    · exact ⟨[], by simp, by simp⟩
  · exact ⟨[], by simp, by simp⟩
  · cases hst : h.statistics with
    | none =>
      simp only [OutputHandler.terminate, hst, Option.some_inj] at ht
      subst ht
      exact ⟨[], by simp, by simp⟩
    | some s =>
      obtain ⟨line, hl, hw⟩ := terminate_eq_some hst ht
      refine ⟨[.clear, .progress s.numEvents.toNat line], hw, fun n l hn => ?_⟩
      simp only [List.mem_cons, reduceCtorEq, ErrWrite.progress.injEq, List.not_mem_nil,
        false_or, or_false] at hn
      exact ⟨s, rfl, hn.1, hn.1 ▸ printProgressInfo_pos hl⟩

theorem step_stderr_extends (hs : step rank (h, w) c = some (h', w')) :
    w.stderr <+: w'.stderr :=
  let ⟨d, hd, _⟩ := step_stderr_lines hs
  ⟨d, hd.symm⟩

/-- A call other than `terminate` that prints nothing writes nothing. -/
theorem step_written_of_printed (hp : printed rank h.verbosity c = [])
    (hc : ∀ e, c ≠ .terminate e) (hs : step rank (h, w) c = some (h', w')) : w' = w := by
  rcases step_written hs with ⟨kind, msg, hem, he⟩ | ⟨-, rfl⟩ | ⟨e, rfl, -⟩
  · rcases emit_eq_some he with ⟨hle, -⟩ | ⟨-, rfl⟩
    · simp [printed, hem, hle] at hp
    · rfl
  · rfl
  · exact absurd rfl (hc e)

end Steps

/-! ## What a run does -/

section Runs

variable {rank : Verbosity → Nat}

theorem run_cons (hw : OutputHandler × Written) (c : Call) (cs : List Call) :
    run rank hw (c :: cs) = (step rank hw c).bind (run rank · cs) := rfl

/-- A run changes the handler only by counting its events and triggers. -/
theorem run_handler : ∀ {calls : List Call} {h h' : OutputHandler} {w w' : Written},
    run rank (h, w) calls = some (h', w') →
      h' = OutputHandler.newEvent^[calls.countP Call.counted] h
  | [], _, _, _, _, hr => by cases hr; rfl
  | c :: cs, h, h', w, w', hr => by
    obtain ⟨⟨h₁, w₁⟩, hs, hr⟩ := Option.bind_eq_some.mp hr
    rw [run_handler hr, step_handler hs, List.countP_cons]
    cases c.counted <;> simp [Function.iterate_succ_apply]

/-- **The statistics count triggers as events**: along every run from `new`, `num_triggers`
stays `0`, and `num_events` is incremented once per event and once per trigger. -/
theorem run_statistics (v : Verbosity) (ch : OutputChannel) (primary : Bool) (calls : List Call)
    {h' : OutputHandler} {w w' : Written}
    (hr : run rank (OutputHandler.new v ch primary, w) calls = some (h', w')) :
    h'.statistics = if primary ∧ v = .progress then
      some ⟨(· + 1)^[calls.countP Call.counted] 0, 0⟩ else none := by
  rw [run_handler hr, OutputHandler.iterate_newEvent]
  split_ifs with hp <;>
    simp [OutputHandler.new, hp, StatisticsData.iterate_newEvent, StatisticsData.new]

/-- On `StdOut` a run appends to standard output what its calls print. -/
theorem run_stdout_append : ∀ {calls : List Call} {h h' : OutputHandler} {w w' : Written},
    h.channel = .stdOut → run rank (h, w) calls = some (h', w') →
      w'.stdout = w.stdout ++ calls.flatMap (printed rank h.verbosity)
  | [], _, _, _, _, _, hr => by cases hr; simp
  | c :: cs, h, h', w, w', hch, hr => by
    obtain ⟨⟨h₁, w₁⟩, hs, hr⟩ := Option.bind_eq_some.mp hr
    obtain ⟨hv, hc, -⟩ := step_frame hs
    rw [run_stdout_append (hc.trans hch) hr, step_stdout hch hs, hv, List.flatMap_cons,
      List.append_assoc]

/-- **A handler on `StdOut` prints exactly the messages at most as verbose as configured**, in
the order of the calls, each with a newline. -/
theorem run_stdout (v : Verbosity) (primary : Bool) (calls : List Call) {h' : OutputHandler}
    {w w' : Written} (hr : run rank (OutputHandler.new v .stdOut primary, w) calls = some (h', w')) :
    w'.stdout = w.stdout ++ calls.flatMap fun c =>
      match c.emitted with
      | some (kind, msg) => if rank kind ≤ rank v then [msg ++ "\n"] else []
      | none => [] :=
  run_stdout_append rfl hr

/-- On a `File` channel without a file, a run that returns printed nothing. -/
theorem run_file_nothing : ∀ {calls : List Call} {h h' : OutputHandler} {w w' : Written}
    {p : String}, h.channel = .file p → h.file = false → run rank (h, w) calls = some (h', w') →
      calls.flatMap (printed rank h.verbosity) = []
  | [], _, _, _, _, _, _, _, _ => rfl
  | c :: cs, h, h', w, w', p, hch, hf, hr => by
    obtain ⟨⟨h₁, w₁⟩, hs, hr⟩ := Option.bind_eq_some.mp hr
    obtain ⟨hv, hc, hfile⟩ := step_frame hs
    rw [List.flatMap_cons, step_file hch hf hs, ← hv,
      run_file_nothing (hc.trans hch) (hfile.trans hf) hr]
    rfl

/-- On a `File` channel without a file, a run of calls that print nothing and do not terminate
never panics. -/
theorem run_file_isSome : ∀ {calls : List Call} {h : OutputHandler} {w : Written} {p : String},
    h.channel = .file p → h.file = false → calls.flatMap (printed rank h.verbosity) = [] →
      (∀ c ∈ calls, ∀ e, c ≠ .terminate e) → (run rank (h, w) calls).isSome
  | [], _, _, _, _, _, _, _ => rfl
  | c :: cs, h, w, p, hch, hf, hp, hc => by
    rw [List.flatMap_cons, List.append_eq_nil] at hp
    have hemit : ∀ kind msg, c.emitted = some (kind, msg) → ¬ rank kind ≤ rank h.verbosity :=
      fun kind msg hem hle => by simp [printed, hem, hle] at hp
    have hs : step rank (h, w) c = some (if c.counted then h.newEvent else h, w) := by
      cases c with
      | runtimeWarning msg | debug msg | output msg =>
        simp [step, OutputHandler.runtimeWarning, OutputHandler.debug, OutputHandler.output,
          OutputHandler.emit, hemit _ msg rfl, Call.counted]
      | trigger msg =>
        simp [step, OutputHandler.trigger, OutputHandler.emit, hemit _ msg rfl, Call.counted]
        rfl
      | newEvent => rfl
      | terminate e => exact absurd rfl (hc _ (List.mem_cons_self _ _) e)
    obtain ⟨hv, hch₁, hf₁⟩ := step_frame hs
    rw [run_cons, hs, Option.some_bind]
    exact run_file_isSome (hch₁.trans hch) (hf₁.trans hf) (hv ▸ hp.2)
      fun c' hc' => hc c' (List.mem_cons_of_mem c hc')

/-- **Printing to a `File` channel panics**: `new` leaves `file` at `None`, so every run of a
handler built for a `File` channel that prints a message panics; the calls before the first
message that passes the filter succeed (as long as none of them terminates), and that message
panics. -/
theorem run_file_channel (v : Verbosity) (path : String) (primary : Bool) {w : Written} :
    (∀ calls : List Call, calls.flatMap (printed rank v) ≠ [] →
      run rank (OutputHandler.new v (.file path) primary, w) calls = none) ∧
    ∀ (pre : List Call) (c : Call), pre.flatMap (printed rank v) = [] →
      (∀ c' ∈ pre, ∀ e, c' ≠ .terminate e) → printed rank v c ≠ [] →
      (run rank (OutputHandler.new v (.file path) primary, w) pre).isSome ∧
        run rank (OutputHandler.new v (.file path) primary, w) (pre ++ [c]) = none := by
  have hnone : ∀ calls : List Call, calls.flatMap (printed rank v) ≠ [] →
      run rank (OutputHandler.new v (.file path) primary, w) calls = none := fun calls hprint => by
    cases hr : run rank (OutputHandler.new v (.file path) primary, w) calls with
    | none => rfl
    | some r => exact absurd (run_file_nothing rfl rfl hr) hprint
  refine ⟨hnone, fun pre c hpre hterm hc => ⟨run_file_isSome rfl rfl hpre hterm, hnone _ ?_⟩⟩
  simpa [List.flatMap_append, hpre] using hc

/-- On a standard channel a run without `terminate` never panics. -/
theorem run_isSome : ∀ {calls : List Call} {h : OutputHandler} {w : Written},
    (h.channel = .stdOut ∨ h.channel = .stdErr) → (∀ c ∈ calls, ∀ e, c ≠ .terminate e) →
      (run rank (h, w) calls).isSome
  | [], _, _, _, _ => rfl
  | c :: cs, h, w, hch, hc => by
    obtain ⟨⟨h₁, w₁⟩, hs⟩ := Option.isSome_iff_exists.mp
      (step_isSome hch (hc c (List.mem_cons_self c cs)))
    have hch₁ : h₁.channel = .stdOut ∨ h₁.channel = .stdErr := (step_frame hs).2.1 ▸ hch
    rw [run_cons, hs, Option.some_bind]
    exact run_isSome hch₁ fun c' hc' => hc c' (List.mem_cons_of_mem c hc')

theorem run_append (hw : OutputHandler × Written) (xs ys : List Call) :
    run rank hw (xs ++ ys) = (run rank hw xs).bind (run rank · ys) := by
  simp [run, List.foldlM_append]

/-- **`terminate` panics while no event was counted**: a primary handler with verbosity
`Progress` divides by `num_events` when it terminates. -/
theorem terminate_no_events (ch : OutputChannel) (calls : List Call) (e : Nat) {w : Written}
    (hcount : calls.countP Call.counted = 0) :
    run rank (OutputHandler.new .progress ch true, w) (calls ++ [.terminate e]) = none := by
  rw [run_append]
  cases hr : run rank (OutputHandler.new .progress ch true, w) calls with
  | none => rfl
  | some r =>
    obtain ⟨h', w'⟩ := r
    have hst : h'.statistics = some StatisticsData.new := by
      rw [run_handler hr, hcount]
      rfl
    simp [run_cons, step, OutputHandler.terminate, hst, StatisticsData.printProgressInfo, run,
      StatisticsData.new]

end Runs

/-! ## Sample runs -/

/-- One possible declaration order of `Verbosity`, from the least to the most verbose. -/
def sampleRank : Verbosity → Nat
  | .silent => 0
  | .progress => 1
  | .warningsOnly => 2
  | .triggers => 3
  | .outputs => 4
  | .debug => 5

/-- A warning, an event, a trigger and a debug message. -/
def sampleCalls : List Call :=
  [.runtimeWarning "w", .newEvent, .trigger "t", .debug "d"]

theorem run_statistics_sample :
    run sampleRank (OutputHandler.new .progress .stdErr true, ⟨[], [], []⟩) sampleCalls =
        some (⟨.progress, .stdErr, false, some ⟨2, 0⟩⟩, ⟨[], [], []⟩) ∧
      (⟨.progress, .stdErr, false, some ⟨2, 0⟩⟩ : OutputHandler).statistics =
        if true ∧ Verbosity.progress = .progress then
          some ⟨(· + 1)^[sampleCalls.countP Call.counted] 0, 0⟩ else none :=
  have hr : run sampleRank (OutputHandler.new .progress .stdErr true, ⟨[], [], []⟩) sampleCalls =
      some (⟨.progress, .stdErr, false, some ⟨2, 0⟩⟩, ⟨[], [], []⟩) := by decide
  ⟨hr, run_statistics .progress .stdErr true sampleCalls hr⟩

theorem run_stdout_sample :
    run sampleRank (OutputHandler.new .triggers .stdOut false, ⟨[], [], []⟩) sampleCalls =
        some (⟨.triggers, .stdOut, false, none⟩, ⟨["w\n", "t\n"], [], []⟩) ∧
      ["w\n", "t\n"] = [] ++ sampleCalls.flatMap fun c =>
        match c.emitted with
        | some (kind, msg) => if sampleRank kind ≤ sampleRank .triggers then [msg ++ "\n"] else []
        | none => [] :=
  have hr : run sampleRank (OutputHandler.new .triggers .stdOut false, ⟨[], [], []⟩) sampleCalls =
      some (⟨.triggers, .stdOut, false, none⟩, ⟨["w\n", "t\n"], [], []⟩) := by decide
  ⟨hr, run_stdout .triggers false sampleCalls hr⟩

theorem run_file_channel_sample :
    (run sampleRank (OutputHandler.new .triggers (.file "out.csv") false, ⟨[], [], []⟩)
        [.newEvent]).isSome ∧
      run sampleRank (OutputHandler.new .triggers (.file "out.csv") false, ⟨[], [], []⟩)
        ([.newEvent] ++ [.runtimeWarning "w"]) = none :=
  (run_file_channel .triggers "out.csv" false).2 [.newEvent] (.runtimeWarning "w") (by decide)
    (by simp) (by decide)

theorem terminate_no_events_sample :
    [Call.runtimeWarning "w"].countP Call.counted = 0 ∧
      run sampleRank (OutputHandler.new .progress .stdErr true, ⟨[], [], []⟩)
        ([.runtimeWarning "w"] ++ [.terminate 1000]) = none :=
  ⟨by decide, terminate_no_events .stdErr [.runtimeWarning "w"] 1000 (by decide)⟩

end RTLola.Io
