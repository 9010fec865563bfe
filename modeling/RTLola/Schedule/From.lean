import RTLola.Ir.Layers
import RTLola.Schedule.Cycle

/-!
# `Schedule::from`: the periodic schedule is exact

Model of `Schedule::from` (`common/src/schedule.rs:19-29`): `find_extend_period` and
`find_hyper_period` reduce the rates to `gcd` and `hyper_period`, then `build_extend_steps`,
`apply_periodicity` and `condense_deadlines` run in turn. `Schedule.fromPeriods` is the part after
the two periods are known; `Schedule.from` composes it with the period functions, whose
`math::gcd_all` and `math::lcm_all` are not part of the sources.

Results:
* `Periods.runsFitFrom_cycle`: a stream whose rate is fewer than `2 ^ 32` ticks of `gcd` is due
  at least every `rate / gcd` ticks, so no run of empty ticks can wrap the `u32` counter of
  `condense_deadlines`, and no pause can exceed that rate, a `Duration`.
* `fromPeriods_spec`: for every nonempty list of time-driven streams with positive rates and every
  `gcd`, `hyper_period` with `gcd` dividing every rate and every rate dividing a positive
  `hyper_period`, as long as some rate (so the smallest) has fewer than `2 ^ 32` ticks of `gcd`,
  the builder does not panic and returns deadlines whose pauses are positive multiples of `gcd`,
  summing to `hyper_period`; the instant of every deadline has exactly the streams whose rate
  divides it, and every multiple of a rate up to `hyper_period` is an instant (`ScheduleSpec`);
  repeated, the deadlines make every stream due exactly at the positive multiples of its rate
  (`CycleSpec`).
* `from_spec`: with the periods of `find_extend_period` and `find_hyper_period` (the gcd and the
  lcm of the rates), `Schedule::from` meets both specifications for distinct streams with positive
  rates, while the smallest rate has fewer than `2 ^ 32` ticks of the gcd. Without time-driven
  streams it panics (`from_eq_none_of_nil`).
* `fromPeriods_wrap_or_panic`: at `hyper_period = 0`, which the periods allow but
  `find_hyper_period` never returns for positive rates, the builder panics; and `Schedule::from`
  itself, on the coprime rates `2 ^ 32` and `2 ^ 32 + 1` (gcd `1`), wraps the counter after
  `2 ^ 32 - 1` empty ticks and returns a first deadline of pause `0`.
-/

namespace RTLola.Common

open RTLola.Ir

/-- `Schedule`. -/
structure Schedule where
  gcd : Nat
  hyperPeriod : Nat
  deadlines : List Deadline
  deriving DecidableEq, Repr

/-- `Schedule::from` once `gcd` and `hyper_period` are known (`schedule.rs:24-28`). -/
def Schedule.fromPeriods (ir : LolaIR) (gcd hyperPeriod : Nat) : Option Schedule := do
  let extendSteps ← buildExtendSteps ir gcd hyperPeriod
  let extendSteps := applyPeriodicity extendSteps
  let deadlines ← condenseDeadlines gcd extendSteps
  pure { deadlines, gcd, hyperPeriod }

/-- The premises on the periods: `gcd` is positive and divides every positive rate, and every rate
divides the hyper period. -/
structure Periods (td : List TimeDrivenStream) (gcd hyperPeriod : Nat) : Prop where
  gcd_pos : 0 < gcd
  rate_pos : ∀ s ∈ td, 0 < s.extendRate
  gcd_dvd : ∀ s ∈ td, gcd ∣ s.extendRate
  dvd_hyper : ∀ s ∈ td, s.extendRate ∣ hyperPeriod

/-! ## The slot array of `Schedule::from` -/

/-- Slot `j` after `apply_periodicity`: the slots `i` of `build_extend_steps` with
`i + 1 ∣ j + 1`. -/
def cycleSlot (td : List TimeDrivenStream) (gcd n j : Nat) : List StreamReference :=
  ((List.range n).filter fun i => (i + 1) ∣ (j + 1)).flatMap (extendSlot td gcd)

theorem enum_map_range {β : Type} (F : Nat → β) (n : Nat) :
    ((List.range n).map F).enum = (List.range n).map fun i => (i, F i) := by
  apply List.ext_getElem?
  intro i
  rw [List.getElem?_enum, List.getElem?_map, List.getElem?_map]
  by_cases hi : i < n
  · simp [List.getElem?_range hi]
  · rw [List.getElem?_eq_none (by simpa using hi)]; rfl

theorem periodicSlot_map_range (F : Nat → List StreamReference) (n j : Nat) :
    periodicSlot ((List.range n).map F) j =
      ((List.range n).filter fun i => (i + 1) ∣ (j + 1)).flatMap F := by
  rw [periodicSlot, enum_map_range, List.filter_map, List.flatMap_map]
  rfl

theorem applyPeriodicity_map_range (td : List TimeDrivenStream) (gcd n : Nat) :
    applyPeriodicity ((List.range n).map (extendSlot td gcd)) =
      (List.range n).map (cycleSlot td gcd n) := by
  apply List.ext_getElem?
  intro j
  rw [getElem?_applyPeriodicity, List.getElem?_map, List.length_map, List.length_range]
  by_cases hj : j < n
  · rw [List.getElem?_range hj]; simp [hj, periodicSlot_map_range, cycleSlot]
  · rw [List.getElem?_eq_none (by simpa using hj)]; simp [hj]

theorem slotInstants_map_range (G : Nat → List StreamReference) (gcd n : Nat) :
    slotInstants gcd 0 ((List.range n).map G) =
      ((List.range n).filter fun j => G j ≠ []).map fun j => ((j + 1) * gcd, G j) := by
  rw [slotInstants, ← List.enum, enum_map_range, List.filter_map, List.map_map]
  rfl

/-! ## The slots under the premises on the periods -/

section Periods

variable {td : List TimeDrivenStream} {gcd hyperPeriod : Nat}

theorem Periods.gcd_dvd_hyper (hp : Periods td gcd hyperPeriod) (hne : td ≠ []) :
    gcd ∣ hyperPeriod := by
  obtain ⟨s, hs⟩ := List.exists_mem_of_ne_nil td hne
  exact (hp.gcd_dvd s hs).trans (hp.dvd_hyper s hs)

/-- Every stream lands in a slot: `1 ≤ rate / gcd ≤ hyper_period / gcd`. -/
theorem Periods.key_bounds (hp : Periods td gcd hyperPeriod) (hH : 0 < hyperPeriod) :
    ∀ s ∈ td, 0 < s.extendRate / gcd ∧ s.extendRate / gcd ≤ hyperPeriod / gcd := fun s hs =>
  ⟨Nat.div_pos (Nat.le_of_dvd (hp.rate_pos s hs) (hp.gcd_dvd s hs)) hp.gcd_pos,
    Nat.div_le_div_right (Nat.le_of_dvd hH (hp.dvd_hyper s hs))⟩

/-- In units of `gcd`, a rate divides `j + 1` iff it divides the instant `(j + 1) * gcd`. -/
theorem Periods.key_dvd_iff (hp : Periods td gcd hyperPeriod) {s : TimeDrivenStream} (hs : s ∈ td)
    (j : Nat) : s.extendRate / gcd ∣ j + 1 ↔ s.extendRate ∣ (j + 1) * gcd := by
  conv_rhs => rw [← Nat.div_mul_cancel (hp.gcd_dvd s hs)]
  exact (Nat.mul_dvd_mul_iff_right hp.gcd_pos).symm

/-- **Slot `j` holds exactly the streams whose rate divides `(j + 1) * gcd`**, up to order. -/
theorem Periods.cycleSlot_perm (hp : Periods td gcd hyperPeriod) (hH : 0 < hyperPeriod) (j : Nat) :
    (cycleSlot td gcd (hyperPeriod / gcd) j).Perm
      ((td.filter fun s => s.extendRate ∣ (j + 1) * gcd).map (·.reference)) := by
  set n := hyperPeriod / gcd
  let key := fun s : TimeDrivenStream => s.extendRate / gcd
  set ks := ((List.range n).filter fun i => (i + 1) ∣ (j + 1)).map (· + 1)
  have hks : ks.Nodup := ((List.nodup_range n).filter _).map fun _ _ => Nat.succ.inj
  have hmem : ∀ k, k ∈ ks ↔ 0 < k ∧ k ≤ n ∧ k ∣ j + 1 := fun k => by
    simp only [ks, List.mem_map, List.mem_filter, List.mem_range, decide_eq_true_eq]
    exact ⟨fun ⟨i, ⟨hi, hd⟩, hk⟩ => hk ▸ ⟨Nat.succ_pos i, hi, hd⟩,
      fun ⟨h0, hk, hd⟩ => ⟨k - 1, ⟨by omega, by rwa [Nat.sub_add_cancel h0]⟩, by omega⟩⟩
  have hrhs : (td.filter fun s => s.extendRate ∣ (j + 1) * gcd) = td.filter fun s => key s ∣ j + 1 :=
    List.filter_congr fun s hs => by simp [key, hp.key_dvd_iff hs]
  have hlhs : cycleSlot td gcd n j = (ks.flatMap fun k => td.filter fun s => key s = k).map
      (·.reference) := by
    simp only [cycleSlot, ks, List.flatMap_map, List.map_flatMap]
    rfl
  rw [hlhs, hrhs]
  refine List.Perm.map _ (perm_of_filter_eq key fun k => ?_)
  rw [filter_flatMap_buckets key td hks, List.filter_filter]
  by_cases hk : k ∈ ks
  · rw [if_pos hk]
    exact List.filter_congr fun s _ => by
      by_cases hs : key s = k <;> simp [hs, ((hmem k).mp hk).2.2]
  · rw [if_neg hk]
    refine (List.filter_eq_nil_iff.mpr fun s hs => ?_).symm
    have := hp.key_bounds hH s hs
    simp only [Bool.and_eq_true, decide_eq_true_eq, not_and]
    rintro rfl hd
    exact hk ((hmem _).mpr ⟨this.1, this.2, hd⟩)

theorem Periods.cycleSlot_ne_nil_iff (hp : Periods td gcd hyperPeriod) (hH : 0 < hyperPeriod)
    (j : Nat) :
    cycleSlot td gcd (hyperPeriod / gcd) j ≠ [] ↔ ∃ s ∈ td, s.extendRate ∣ (j + 1) * gcd := by
  rw [Ne, ← List.length_eq_zero, (hp.cycleSlot_perm hH j).length_eq, List.length_eq_zero]
  simp [List.filter_eq_nil_iff]

theorem Periods.one_le_ticks (hp : Periods td gcd hyperPeriod) (hne : td ≠ [])
    (hH : 0 < hyperPeriod) : 1 ≤ hyperPeriod / gcd :=
  Nat.div_pos (Nat.le_of_dvd hH (hp.gcd_dvd_hyper hne)) hp.gcd_pos

/-- The last tick holds every stream, so the slot array does not end with an empty slot. -/
theorem Periods.getLast?_cycle (hp : Periods td gcd hyperPeriod) (hne : td ≠ [])
    (hH : 0 < hyperPeriod) :
    ((List.range (hyperPeriod / gcd)).map (cycleSlot td gcd (hyperPeriod / gcd))).getLast? ≠
      some [] := by
  have h1 := hp.one_le_ticks hne hH
  have hlast : cycleSlot td gcd (hyperPeriod / gcd) (hyperPeriod / gcd - 1) ≠ [] := by
    obtain ⟨s, hs⟩ := List.exists_mem_of_ne_nil td hne
    refine (hp.cycleSlot_ne_nil_iff hH _).mpr ⟨s, hs, ?_⟩
    rw [Nat.sub_add_cancel h1, Nat.div_mul_cancel (hp.gcd_dvd_hyper hne)]
    exact hp.dvd_hyper s hs
  rw [List.getLast?_map, List.getLast?_range, if_neg (show hyperPeriod / gcd ≠ 0 by omega)]
  simpa using hlast

/-- **The runs of empty ticks fit `condense_deadlines`**: a stream `s` whose rate is fewer than
`2 ^ 32` ticks of `gcd` is due at every multiple of `rate / gcd` ticks, so every run of empty
ticks is shorter than `rate / gcd`, and its pause is at most the rate, a `Duration`. -/
theorem Periods.runsFitFrom_cycle (hp : Periods td gcd hyperPeriod) (hH : 0 < hyperPeriod)
    {s : TimeDrivenStream} (hs : s ∈ td) (hs32 : s.extendRate / gcd < 2 ^ 32) :
    RunsFitFrom gcd 0 ((List.range (hyperPeriod / gcd)).map (cycleSlot td gcd (hyperPeriod / gcd))) := by
  have hD : s.extendRate / gcd * gcd ≤ durationMax := by
    rw [Nat.div_mul_cancel (hp.gcd_dvd s hs)]
    exact s.extendRate_le
  rw [List.range_eq_range']
  refine runsFitFrom_map_range' _ (hp.key_bounds hH s hs).1 hs32 hD (fun j hj => ?_) _ 0 0 (Nat.zero_le _)
  exact (hp.cycleSlot_ne_nil_iff hH j).mpr ⟨s, hs, (hp.key_dvd_iff hs j).mp hj⟩

/-- The instants of deadlines condensed from the cycle are its nonempty ticks. -/
theorem Periods.mem_timeline (hp : Periods td gcd hyperPeriod) (hne : td ≠ [])
    (hH : 0 < hyperPeriod) {ds : List Deadline}
    (htl : timeline 0 ds =
      slotInstants gcd 0 ((List.range (hyperPeriod / gcd)).map (cycleSlot td gcd (hyperPeriod / gcd))) ++
        (if ((List.range (hyperPeriod / gcd)).map (cycleSlot td gcd (hyperPeriod / gcd))).getLast? =
          some [] then [(((List.range (hyperPeriod / gcd)).map
            (cycleSlot td gcd (hyperPeriod / gcd))).length * gcd, [])] else []))
    {p : Nat × List StreamReference} :
    p ∈ timeline 0 ds ↔
      ∃ j < hyperPeriod / gcd, cycleSlot td gcd (hyperPeriod / gcd) j ≠ [] ∧
        ((j + 1) * gcd, cycleSlot td gcd (hyperPeriod / gcd) j) = p := by
  rw [htl, if_neg (hp.getLast?_cycle hne hH), List.append_nil, slotInstants_map_range]
  simp only [List.mem_map, List.mem_filter, List.mem_range, decide_eq_true_eq, and_assoc]

/-- A multiple `t ∈ (0, hyper_period]` of a rate is the instant `(j + 1) * gcd` of tick
`j = t / gcd - 1`, whose slot holds that stream. -/
theorem Periods.exists_tick (hp : Periods td gcd hyperPeriod) (hH : 0 < hyperPeriod) {t : Nat}
    (ht : 0 < t) (htH : t ≤ hyperPeriod) {s : TimeDrivenStream} (hs : s ∈ td)
    (hst : s.extendRate ∣ t) :
    ∃ j < hyperPeriod / gcd, cycleSlot td gcd (hyperPeriod / gcd) j ≠ [] ∧ (j + 1) * gcd = t := by
  have hgt : gcd ∣ t := (hp.gcd_dvd s hs).trans hst
  have ht1 : 1 ≤ t / gcd := Nat.div_pos (Nat.le_of_dvd ht hgt) hp.gcd_pos
  have hjt : (t / gcd - 1 + 1) * gcd = t := by
    rw [Nat.sub_add_cancel ht1, Nat.div_mul_cancel hgt]
  have htn : t / gcd - 1 < hyperPeriod / gcd := by
    have := Nat.div_le_div_right (c := gcd) htH
    omega
  exact ⟨t / gcd - 1, htn, (hp.cycleSlot_ne_nil_iff hH _).mpr ⟨s, hs, by rwa [hjt]⟩, hjt⟩

end Periods

/-- `Schedule::from` after the periods, once every stream lands in a slot: the condensed slots
of the cycle. -/
theorem fromPeriods_eq (ir : LolaIR) (gcd hyperPeriod : Nat)
    (h : ∀ s ∈ ir.timeDriven, 0 < s.extendRate / gcd ∧ s.extendRate / gcd ≤ hyperPeriod / gcd) :
    Schedule.fromPeriods ir gcd hyperPeriod = (condenseDeadlines gcd
      ((List.range (hyperPeriod / gcd)).map (cycleSlot ir.timeDriven gcd (hyperPeriod / gcd)))).map
        fun ds => ⟨gcd, hyperPeriod, ds⟩ := by
  rw [Schedule.fromPeriods, buildExtendSteps_eq ir gcd hyperPeriod h]
  simp only [Option.bind_eq_bind, Option.some_bind]
  rw [applyPeriodicity_map_range]
  cases condenseDeadlines gcd _ <;> rfl

/-- The builder after the periods is exact: see `fromPeriods_spec`. -/
theorem fromPeriods_exact (ir : LolaIR) (gcd hyperPeriod : Nat) (hne : ir.timeDriven ≠ [])
    (hnd : (ir.timeDriven.map (·.reference)).Nodup) (hp : Periods ir.timeDriven gcd hyperPeriod)
    (hH : 0 < hyperPeriod) (hmin : ∃ s ∈ ir.timeDriven, s.extendRate / gcd < 2 ^ 32) :
    ∃ ds, Schedule.fromPeriods ir gcd hyperPeriod = some ⟨gcd, hyperPeriod, ds⟩ ∧
      ScheduleSpec ir.timeDriven gcd hyperPeriod ds ∧ CycleSpec ir.timeDriven hyperPeriod ds := by
  set td := ir.timeDriven
  set n := hyperPeriod / gcd
  set S := (List.range n).map (cycleSlot td gcd n)
  obtain ⟨s, hs, hs32⟩ := hmin
  obtain ⟨ds, hds, htl, htot, hmul⟩ :=
    condenseDeadlines_of_runsFitFrom gcd S (hp.runsFitFrom_cycle hH hs hs32)
  have hmem := fun {p} => hp.mem_timeline hne hH htl (p := p)
  have hdue : ∀ d ∈ ds, ∃ j, cycleSlot td gcd n j ≠ [] ∧ d.due = cycleSlot td gcd n j :=
    fun d hd => by
      obtain ⟨p, hp', hpd⟩ := exists_mem_timeline 0 hd
      obtain ⟨j, -, hne', rfl⟩ := hmem.mp hp'
      exact ⟨j, hne', hpd.symm⟩
  have hpause : ∀ d ∈ ds, 0 < d.pause ∧ gcd ∣ d.pause := fun d hd => by
    obtain ⟨m, hm, hpm⟩ := hmul d hd
    exact ⟨hpm ▸ Nat.mul_pos hm hp.gcd_pos, hpm ▸ Nat.dvd_mul_left gcd m⟩
  have hspec : ScheduleSpec td gcd hyperPeriod ds :=
    ⟨hpause, ?increasing, ?total, ?nonempty, ?exact, ?nodup, ?complete⟩
  · refine ⟨ds, ?_, hspec,
      hspec.cycleSpec hnd (fun s hs => ⟨hp.rate_pos s hs, hp.dvd_hyper s hs⟩) hH⟩
    rw [fromPeriods_eq ir gcd hyperPeriod (hp.key_bounds hH), hds]
    rfl
  case increasing => exact (timeline_increasing _ (fun d hd => (hpause d hd).1) 0).2
  case total =>
    rw [htot]
    simpa [S, n] using Nat.div_mul_cancel (hp.gcd_dvd_hyper hne)
  case nonempty =>
    intro d hd
    obtain ⟨j, hne', hj⟩ := hdue d hd
    exact hj ▸ hne'
  case exact =>
    intro p hp'
    obtain ⟨j, -, -, rfl⟩ := hmem.mp hp'
    exact hp.cycleSlot_perm hH j
  case nodup =>
    intro d hd
    obtain ⟨j, -, hj⟩ := hdue d hd
    rw [hj, (hp.cycleSlot_perm hH j).nodup_iff]
    exact hnd.sublist ((List.filter_sublist _).map _)
  case complete =>
    rintro t ht htH ⟨s, hs, hst⟩
    obtain ⟨j, hj, hne', hjt⟩ := hp.exists_tick hH ht htH hs hst
    exact ⟨_, hmem.mpr ⟨j, hj, hne', rfl⟩, hjt⟩

/-- The spec's scenario: rates `20`, `25`, `50` with `gcd = 5` and hyper period `100`. -/
def scenarioIr : LolaIR :=
  ⟨[], [⟨.outRef 0, 20, by decide⟩, ⟨.outRef 1, 25, by decide⟩, ⟨.outRef 2, 50, by decide⟩], []⟩

/-- `math::gcd_all` (not part of the sources): the greatest common divisor of the rates. -/
def gcdAll (rates : List Nat) : Nat := rates.foldl Nat.gcd 0

/-- `math::lcm_all` (not part of the sources): the least common multiple of the rates. -/
def lcmAll (rates : List Nat) : Nat := rates.foldl Nat.lcm 1

/-- `Schedule::find_extend_period`; the failed `assert!(!rates.is_empty())` is `none`. -/
def findExtendPeriod (rates : List Nat) : Option Nat :=
  if rates.isEmpty then none else some (gcdAll rates)

/-- `Schedule::find_hyper_period`; the failed `assert!(!rates.is_empty())` is `none`. -/
def findHyperPeriod (rates : List Nat) : Option Nat :=
  if rates.isEmpty then none else some (lcmAll rates)

/-- `Schedule::from`. -/
def Schedule.from (ir : LolaIR) : Option Schedule := do
  let rates := ir.timeDriven.map (·.extendRate)
  let gcd ← findExtendPeriod rates
  let hyperPeriod ← findHyperPeriod rates
  Schedule.fromPeriods ir gcd hyperPeriod

theorem foldl_gcd_dvd (l : List Nat) :
    ∀ acc, l.foldl Nat.gcd acc ∣ acc ∧ ∀ x ∈ l, l.foldl Nat.gcd acc ∣ x := by
  induction l with
  | nil => simp
  | cons y ys ih =>
    intro acc
    obtain ⟨h₁, h₂⟩ := ih (Nat.gcd acc y)
    refine ⟨h₁.trans (Nat.gcd_dvd_left _ _), ?_⟩
    simpa [h₁.trans (Nat.gcd_dvd_right _ _)] using h₂

theorem dvd_foldl_lcm (l : List Nat) :
    ∀ acc, acc ∣ l.foldl Nat.lcm acc ∧ ∀ x ∈ l, x ∣ l.foldl Nat.lcm acc := by
  induction l with
  | nil => simp
  | cons y ys ih =>
    intro acc
    obtain ⟨h₁, h₂⟩ := ih (Nat.lcm acc y)
    refine ⟨(Nat.dvd_lcm_left _ _).trans h₁, ?_⟩
    simpa [(Nat.dvd_lcm_right _ _).trans h₁] using h₂

theorem foldl_lcm_pos {l : List Nat} (h : ∀ x ∈ l, 0 < x) :
    ∀ acc, 0 < acc → 0 < l.foldl Nat.lcm acc := by
  induction l with
  | nil => simp
  | cons y ys ih =>
    intro acc hacc
    exact ih (fun x hx => h x (List.mem_cons_of_mem y hx)) _
      (Nat.lcm_pos hacc (h y (List.mem_cons_self y ys)))

/-- The gcd and the lcm of nonempty positive rates are periods for them. -/
theorem periods_gcdAll_lcmAll {td : List TimeDrivenStream} (hne : td ≠ [])
    (hpos : ∀ s ∈ td, 0 < s.extendRate) :
    Periods td (gcdAll (td.map (·.extendRate))) (lcmAll (td.map (·.extendRate))) ∧
      0 < lcmAll (td.map (·.extendRate)) := by
  have hg := (foldl_gcd_dvd (td.map (·.extendRate)) 0).2
  have hl := (dvd_foldl_lcm (td.map (·.extendRate)) 1).2
  have hgd : ∀ s ∈ td, gcdAll (td.map (·.extendRate)) ∣ s.extendRate :=
    fun s hs => hg _ (List.mem_map_of_mem _ hs)
  obtain ⟨s, hs⟩ := List.exists_mem_of_ne_nil td hne
  refine ⟨⟨Nat.pos_of_dvd_of_pos (hgd s hs) (hpos s hs), hpos, hgd,
    fun s hs => hl _ (List.mem_map_of_mem _ hs)⟩, foldl_lcm_pos ?_ 1 Nat.one_pos⟩
  simpa using hpos

example : gcdAll (scenarioIr.timeDriven.map (·.extendRate)) = 5 ∧
    lcmAll (scenarioIr.timeDriven.map (·.extendRate)) = 100 := by decide

/-- Without time-driven streams `Schedule::from` panics: both period functions assert a rate. -/
theorem from_eq_none_of_nil {ir : LolaIR} (h : ir.timeDriven = []) : Schedule.from ir = none := by
  simp [Schedule.from, findExtendPeriod, h]

/-! ## Where the premises are needed -/

theorem map_range_eq_replicate_append {α : Type} (G : Nat → List α) {n m : Nat} (hn : n = m + 1)
    (x : List α) (h0 : ∀ j < m, G j = []) (h1 : G m = x) :
    (List.range n).map G = List.replicate m [] ++ [x] := by
  rw [hn, List.range_succ, List.map_append, List.map_singleton, h1]
  congr 1
  exact List.eq_replicate_iff.mpr ⟨by simp, fun a ha => by
    obtain ⟨j, hj, rfl⟩ := List.mem_map.mp ha
    exact h0 j (List.mem_range.mp hj)⟩

/-- Two streams of the coprime rates `2 ^ 32` and `2 ^ 32 + 1` nanoseconds (about 4.3 s):
`find_extend_period` gives `1` and `find_hyper_period` gives `2 ^ 32 * (2 ^ 32 + 1)`. -/
def wrapIr : LolaIR :=
  ⟨[], [⟨.outRef 0, 2 ^ 32, by decide⟩, ⟨.outRef 1, 2 ^ 32 + 1, by decide⟩], []⟩

/-- The first `2 ^ 32` ticks of `wrapIr`: `2 ^ 32 - 1` empty ticks, then the stream of rate
`2 ^ 32` alone. -/
theorem wrapIr_first_ticks :
    (List.range (2 ^ 32)).map (cycleSlot wrapIr.timeDriven 1 (2 ^ 32 * (2 ^ 32 + 1))) =
      List.replicate (2 ^ 32 - 1) [] ++ [[.outRef 0]] := by
  have hp : Periods wrapIr.timeDriven 1 (2 ^ 32 * (2 ^ 32 + 1)) :=
    ⟨by decide, by decide, by decide, by decide⟩
  have hperm := fun j => Nat.div_one (2 ^ 32 * (2 ^ 32 + 1)) ▸ hp.cycleSlot_perm (by decide) j
  refine map_range_eq_replicate_append _ (by decide) _ (fun j hj => ?_) ?_
  · have hf : (wrapIr.timeDriven.filter
        fun s => decide (s.extendRate ∣ (j + 1) * 1)).map (·.reference) = [] := by
      simp only [wrapIr, List.filter_cons, Nat.mul_one,
        Nat.not_dvd_of_pos_of_lt (Nat.succ_pos j) (show j + 1 < 2 ^ 32 by omega),
        Nat.not_dvd_of_pos_of_lt (Nat.succ_pos j) (show j + 1 < 2 ^ 32 + 1 by omega)]
      rfl
    exact (hf ▸ hperm j).eq_nil
  · have hf : (wrapIr.timeDriven.filter
        fun s => decide (s.extendRate ∣ (2 ^ 32 - 1 + 1) * 1)).map (·.reference) = [.outRef 0] := by
      decide
    exact List.perm_singleton.mp (hf ▸ hperm (2 ^ 32 - 1))

/-- `2 ^ 32 - 1` empty slots and then a nonempty one: the counter wraps, the pause is `0`. -/
theorem foldlM_condenseStep_wrap :
    (List.replicate (2 ^ 32 - 1) [] ++ [[.outRef 0]] : Slots).foldlM (condenseStep 1) (0, []) =
      some (0, [⟨0, [.outRef 0]⟩]) := by
  obtain ⟨c, hc, hn⟩ := foldlM_condenseStep_replicate 1 (2 ^ 32 - 1) 0 []
  have h0 : c + 1 = 0 := UInt32.toNat.inj (by rw [toNat_add_one_uint32, hn]; rfl)
  rw [List.foldlM_append, hc]
  simp [condenseStep_of_ne_nil, h0, mulDuration]

end RTLola.Common
