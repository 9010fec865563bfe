import RTLola.Io.OutputHandler
import RTLola.Storage.Value

/-!
# The command line: `Config::new`

Model of `Config::new` (`evaluator/src/lib.rs:26-165`) from the matches clap returns on: how the
arguments become the `EvalConfig` that the output handler and the input reader are built from.

* Clap is not modelled. `ArgMatches` is what `get_matches_from` returns, as far as `Config::new`
  reads it: the arguments given, each with its value if it takes one. `ArgMatches.Valid` is part
  of what clap guarantees of the `App` built here: only declared arguments, a value for `DELAY`
  (it takes one), and for `VERBOSITY` one of its possible values (it has a default). The other
  constraints of the `App` (`SPEC` required, exactly one of the group `MODE`, and the
  `conflicts_with` and `requires` of `CSV_INPUT_FILE`, `CSV_TIME_COLUMN`, `STDERR` and `DELAY`)
  are left out: every result holds for all matches meeting `Valid`, so in particular for those
  clap accepts.
* Reading the specification file and `streamlab_frontend::parse` are not modelled; `Config` keeps
  the `EvalConfig` only.
* `EvalConfig`, `InputSource`, `OutputChannel` and `Verbosity` belong to the evaluator's `basics`,
  which is not part of the sources. `InputSource::with_delay` is given the path, the delay and the
  time column; `OutputChannel` and `Verbosity` are those of the output handler's model, whose
  `OutputHandler::new` reads `verbosity` and `output_channel` of the configuration.
* `value_t!` and `parse::<usize>()` are `str::parse`, modelled by `fromStrRadix` for the type's
  range (`usize` of a 64-bit target). `1_000_000 * delay` is `u32` arithmetic, which wraps as in a
  release build; a debug build panics there for a `--delay` above `4294`, so the results assume a
  release build. `Duration::new(0, n)` lasts `n` nanoseconds. The
  `eprintln!` warning is returned with the configuration, and every panic (`expect`, `unwrap`,
  `unreachable!`) is `none`.

Results:
* `new_inv`: what `Config::new` builds. The output channel is `StdOut` with `--stdout` and
  `StdErr` otherwise: `Config::new` reads the value of `OUTPUT_FILE`, an argument the `App` never
  declares, so it never chooses a `File` channel. The reading delay is `1_000_000 * delay`
  nanoseconds modulo `2 ^ 32`.
* `new_eq_none_iff`: in a release build, `Config::new` panics exactly when `--csv-time-column` is
  not a number.
* `new_run_isSome`: a handler built from any command line never panics on a run of calls without
  `terminate`: the panic of the `File` channel (`run_file_channel`) cannot arise from it.
-/

namespace RTLola.Evaluator

open RTLola.Io RTLola.Storage

/-! ## What clap returns -/

/-- The names of the arguments of the `App` that `Config::new` builds. -/
def declaredArgs : List String :=
  ["SPEC", "STDIN", "CSV_INPUT_FILE", "CSV_TIME_COLUMN", "STDOUT", "STDERR", "DELAY", "VERBOSITY",
    "ONLINE", "OFFLINE", "INTERPRETED"]

/-- The possible values of `VERBOSITY`. -/
def verbosityValues : List String :=
  ["debug", "outputs", "triggers", "warnings", "progress", "silent", "quiet"]

/-- The `ArgMatches` of clap, as far as `Config::new` reads them. -/
structure ArgMatches where
  /-- Each argument given, with its value if it takes one. -/
  args : List (String × Option String)
  deriving DecidableEq, Repr

/-- `ArgMatches::is_present`. -/
def ArgMatches.isPresent (m : ArgMatches) (name : String) : Bool :=
  m.args.any fun a => a.1 == name

/-- `ArgMatches::value_of`. -/
def ArgMatches.valueOf (m : ArgMatches) (name : String) : Option String :=
  (m.args.find? fun a => a.1 == name).bind Prod.snd

/-- What clap guarantees of the matches of the `App` of `Config::new`. -/
structure ArgMatches.Valid (m : ArgMatches) : Prop where
  /-- Only declared arguments occur. -/
  declared : ∀ a ∈ m.args, a.1 ∈ declaredArgs
  /-- `DELAY` takes a value. -/
  delay : m.isPresent "DELAY" → (m.valueOf "DELAY").isSome
  /-- `VERBOSITY` has a default and possible values. -/
  verbosity : ∃ v ∈ verbosityValues, m.valueOf "VERBOSITY" = some v

/-! ## `Config::new` -/

/-- `InputSource` of the evaluator's `basics`, as `Config::new` builds it. -/
inductive InputSource where
  | stdIn
  | file (path : String) (readingDelay : Nat) (timeColumn : Option Nat)
  deriving DecidableEq, Repr

/-- `EvalConfig` of the evaluator's `basics`: the arguments of `EvalConfig::new`. -/
structure EvalConfig where
  source : InputSource
  verbosity : Verbosity
  outputChannel : OutputChannel
  closureBasedEvaluator : Bool
  offline : Bool
  deriving DecidableEq, Repr

/-- `Config`, without the `LolaIR` parsed from the specification. -/
structure Config where
  cfg : EvalConfig
  deriving DecidableEq, Repr

/-- `str::parse::<u32>()`. -/
def parseU32 (s : String) : Option Nat := (fromStrRadix 0 4294967295 s).map Int.toNat

/-- `str::parse::<usize>()` on a 64-bit target. -/
def parseUsize (s : String) : Option Nat := (fromStrRadix 0 18446744073709551615 s).map Int.toNat

/-- The warning `Config::new` prints for a `DELAY` value that is not a number. -/
def delayWarning (value : String) : String :=
  "DELAY value `" ++ value ++ "` is not a number.\nUsing no delay.\n"

/-- The `match` on the value of `VERBOSITY`; `unreachable!()` is `none`. -/
def verbosityOf : String → Option Verbosity
  | "debug" => some .debug
  | "outputs" => some .outputs
  | "triggers" => some .triggers
  | "warnings" => some .warningsOnly
  | "progress" => some .progress
  | "silent" | "quiet" => some .silent
  | _ => none

/-- The delay in milliseconds, with the warning for a value that is not a number. -/
def delayOf (m : ArgMatches) : Option (Nat × List String) :=
  if m.isPresent "DELAY" then
    match (m.valueOf "DELAY").bind parseU32 with
    | some d => some (d, [])
    | none => (m.valueOf "DELAY").map fun v => (0, [delayWarning v])
  else some (0, [])

/-- The time column: the value of `CSV_TIME_COLUMN` parsed by `parse::<usize>()`, whose failure
panics (`expect`). -/
def timeColumnOf (m : ArgMatches) : Option (Option Nat) :=
  match m.valueOf "CSV_TIME_COLUMN" with
  | some col => (parseUsize col).map some
  | none => some none

/-- `Config::new` after `get_matches_from`: the configuration, and what it writes to standard
error. -/
def Config.new (m : ArgMatches) : Option (Config × List String) := do
  let (delay, warnings) ← delayOf m
  let delay : Nat := ((1000000 : UInt32) * UInt32.ofNat delay).toNat
  let csvTimeColumn ← timeColumnOf m
  let src := match m.valueOf "CSV_INPUT_FILE" with
    | some file => InputSource.file file delay csvTimeColumn
    | none => InputSource.stdIn
  let out := if m.isPresent "STDOUT" then OutputChannel.stdOut
    else match m.valueOf "OUTPUT_FILE" with
      | some file => OutputChannel.file file
      | none => OutputChannel.stdErr
  let verbosity ← (m.valueOf "VERBOSITY").bind verbosityOf
  pure (⟨⟨src, verbosity, out, !m.isPresent "INTERPRETED", m.isPresent "OFFLINE"⟩⟩, warnings)

/-- `streamlab spec.lola --csv-in=in.csv --delay=5000 --online`, with the default verbosity. -/
def sampleMatches : ArgMatches :=
  ⟨[("SPEC", some "spec.lola"), ("CSV_INPUT_FILE", some "in.csv"), ("DELAY", some "5000"),
    ("VERBOSITY", some "triggers"), ("ONLINE", none)]⟩

/-- The configuration `Config::new` builds from `sampleMatches`: a delay of `5000` ms becomes
`705032704` ns. -/
def sampleConfig : Config :=
  ⟨⟨.file "in.csv" 705032704 none, .triggers, .stdErr, true, false⟩⟩

/-! ## What `Config::new` builds -/

section Valid

variable {m : ArgMatches}

/-- Clap reports no value for an argument the `App` does not declare. -/
theorem ArgMatches.valueOf_eq_none (hv : m.Valid) {name : String} (hname : name ∉ declaredArgs) :
    m.valueOf name = none := by
  have : m.args.find? (fun a => a.1 == name) = none :=
    List.find?_eq_none.mpr fun a ha heq => hname (beq_iff_eq.mp heq ▸ hv.declared a ha)
  rw [ArgMatches.valueOf, this, Option.none_bind]

theorem verbosityOf_isSome {v : String} (hv : v ∈ verbosityValues) : (verbosityOf v).isSome := by
  simp only [verbosityValues, List.mem_cons, List.mem_singleton, List.not_mem_nil, or_false] at hv
  rcases hv with rfl | rfl | rfl | rfl | rfl | rfl | rfl <;> rfl

theorem delayOf_isSome (hv : m.Valid) : (delayOf m).isSome := by
  unfold delayOf
  split_ifs with hd
  · split
    · rfl
    · obtain ⟨v, hval⟩ := Option.isSome_iff_exists.mp (hv.delay hd)
      simp [hval]
  · rfl

/-- `1_000_000 * delay` in `u32`. -/
theorem toNat_mul_delay (d : Nat) :
    ((1000000 : UInt32) * UInt32.ofNat d).toNat = 1000000 * d % 2 ^ 32 := by
  simp only [UInt32.toNat, UInt32.mul_def, BitVec.toNat_mul, UInt32.ofNat, BitVec.toNat_ofNat]
  rw [Nat.mul_mod, Nat.mod_mod, ← Nat.mul_mod]
  rfl

/-- What `Config::new` returns: the delay, the time column and the verbosity it parsed, the delay
as `1_000_000 * delay` nanoseconds modulo `2 ^ 32`, and a channel that is never `File`, since clap
reports no value for the undeclared `OUTPUT_FILE`. -/
theorem new_inv (hv : m.Valid) {c : Config} {ws : List String}
    (hnew : Config.new m = some (c, ws)) :
    ∃ d col vb, delayOf m = some (d, ws) ∧ timeColumnOf m = some col ∧
      (m.valueOf "VERBOSITY").bind verbosityOf = some vb ∧
      c.cfg = ⟨match m.valueOf "CSV_INPUT_FILE" with
          | some file => .file file (1000000 * d % 2 ^ 32) col
          | none => .stdIn,
        vb, if m.isPresent "STDOUT" then .stdOut else .stdErr,
        !m.isPresent "INTERPRETED", m.isPresent "OFFLINE"⟩ := by
  simp only [Config.new, Option.bind_eq_bind, Option.bind_eq_some, Option.pure_def,
    Option.some_inj, ArgMatches.valueOf_eq_none hv (show "OUTPUT_FILE" ∉ declaredArgs by decide),
    toNat_mul_delay] at hnew
  obtain ⟨⟨d, ws'⟩, hd, col, hcol, vb, hvb, hc⟩ := hnew
  obtain ⟨rfl, rfl⟩ := Prod.mk.inj hc
  exact ⟨d, col, vb, hd, hcol, Option.bind_eq_some.mpr hvb, rfl⟩

/-- **`Config::new` panics exactly when `--csv-time-column` is not a number**, in a release
build: there `1_000_000 * delay` wraps, where a debug build panics for a `--delay` above `4294`. -/
theorem new_eq_none_iff (hv : m.Valid) :
    Config.new m = none ↔ ∃ col, m.valueOf "CSV_TIME_COLUMN" = some col ∧ parseUsize col = none := by
  obtain ⟨⟨d, ws⟩, hd⟩ := Option.isSome_iff_exists.mp (delayOf_isSome hv)
  obtain ⟨v, hvmem, hval⟩ := hv.verbosity
  obtain ⟨vb, hvb⟩ := Option.isSome_iff_exists.mp (verbosityOf_isSome hvmem)
  have htime : timeColumnOf m = none ↔
      ∃ col, m.valueOf "CSV_TIME_COLUMN" = some col ∧ parseUsize col = none := by
    unfold timeColumnOf
    cases m.valueOf "CSV_TIME_COLUMN" <;> simp
  rw [← htime]
  simp only [Config.new, hd, hval, Option.some_bind, hvb, Option.bind_eq_bind]
  cases timeColumnOf m <;> simp

theorem new_eq_none_iff_sample :
    sampleMatches.Valid ∧ (Config.new sampleMatches = none ↔
      ∃ col, sampleMatches.valueOf "CSV_TIME_COLUMN" = some col ∧ parseUsize col = none) :=
  have hv : sampleMatches.Valid := ⟨by decide, by decide, ⟨"triggers", by decide, rfl⟩⟩
  ⟨hv, new_eq_none_iff hv⟩

/-- **A handler built from the command line never panics on a run without `terminate`**: its
channel is `StdOut` or `StdErr`, so the panic of the `File` channel cannot arise. -/
theorem new_run_isSome (rank : Verbosity → Nat) (hv : m.Valid) {c : Config} {ws : List String}
    (hnew : Config.new m = some (c, ws)) (primary : Bool) (w : Written) {calls : List Call}
    (hcalls : ∀ call ∈ calls, ∀ e, call ≠ .terminate e) :
    (run rank (OutputHandler.new c.cfg.verbosity c.cfg.outputChannel primary, w) calls).isSome := by
  obtain ⟨d, col, vb, -, -, -, hc⟩ := new_inv hv hnew
  refine run_isSome ?_ hcalls
  show c.cfg.outputChannel = .stdOut ∨ c.cfg.outputChannel = .stdErr
  rw [hc]
  split <;> simp

theorem new_run_isSome_sample :
    sampleMatches.Valid ∧ Config.new sampleMatches = some (sampleConfig, []) ∧
      (∀ call ∈ sampleCalls, ∀ e, call ≠ .terminate e) ∧
      (run sampleRank (OutputHandler.new sampleConfig.cfg.verbosity sampleConfig.cfg.outputChannel
        false, ⟨[], [], []⟩) sampleCalls).isSome :=
  have hv : sampleMatches.Valid := ⟨by decide, by decide, ⟨"triggers", by decide, rfl⟩⟩
  have hcalls : ∀ call ∈ sampleCalls, ∀ e, call ≠ .terminate e := by simp [sampleCalls]
  ⟨hv, rfl, hcalls, new_run_isSome sampleRank hv rfl false ⟨[], [], []⟩ hcalls⟩

end Valid

end RTLola.Evaluator
