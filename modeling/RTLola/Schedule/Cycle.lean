import Mathlib.Data.List.Sort
import RTLola.Schedule.Condense

/-!
# What a periodic schedule is for

The periodic driver (`coordination`, not part of the sources) repeats the deadline list of a
`Schedule` forever: after the last deadline it resumes at the first (the spec, "Schedule" and
"Periodic driver"). This file states, independently of how the list is built, what one cycle of
deadlines must satisfy (`ScheduleSpec`) and what the repetition then achieves (`CycleSpec`):
every time-driven stream is due exactly at the positive multiples of its rate.

Results:
* `ScheduleSpec.cycleSpec`: a deadline list meeting `ScheduleSpec` for distinct streams whose rates
  divide the hyper period makes, repeated, each stream due exactly at the positive multiples of
  its rate, `hyper_period / rate` times per cycle.
-/

namespace RTLola.Common

open RTLola.Ir

/-- What the deadlines `ds` of one cycle for `td` with periods `gcd`, `hyper_period` promise. -/
structure ScheduleSpec (td : List TimeDrivenStream) (gcd hyperPeriod : Nat) (ds : List Deadline) :
    Prop where
  /-- Every pause is a positive multiple of `gcd`. -/
  pause_pos : ∀ d ∈ ds, 0 < d.pause ∧ gcd ∣ d.pause
  /-- So the instants strictly increase. -/
  increasing : ((timeline 0 ds).map Prod.fst).Pairwise (· < ·)
  /-- The cycle is one hyper period long. -/
  total : totalPause ds = hyperPeriod
  /-- No wakeup is empty. -/
  due_nonempty : ∀ d ∈ ds, d.due ≠ []
  /-- At each instant, exactly the streams whose rate divides it. -/
  due_exact : ∀ p ∈ timeline 0 ds,
    p.2.Perm ((td.filter fun s => s.extendRate ∣ p.1).map (·.reference))
  /-- Each of them once. -/
  due_nodup : ∀ d ∈ ds, d.due.Nodup
  /-- Every multiple of a rate up to the hyper period is an instant. -/
  complete : ∀ t, 0 < t → t ≤ hyperPeriod → (∃ s ∈ td, s.extendRate ∣ t) →
    ∃ p ∈ timeline 0 ds, p.1 = t

/-- Repeated cyclically, `ds` makes `r` due at `t`: `t` is the instant of a deadline in some
cycle `c` whose `due` holds `r`. -/
def DueAt (ds : List Deadline) (hyperPeriod t : Nat) (r : StreamReference) : Prop :=
  ∃ c, ∃ p ∈ timeline 0 ds, t = c * hyperPeriod + p.1 ∧ r ∈ p.2

/-- What the repeated deadline list achieves. -/
structure CycleSpec (td : List TimeDrivenStream) (hyperPeriod : Nat) (ds : List Deadline) :
    Prop where
  /-- A stream is due exactly at the positive multiples of its rate. -/
  dueAt_iff : ∀ s ∈ td, ∀ t, DueAt ds hyperPeriod t s.reference ↔ 0 < t ∧ s.extendRate ∣ t
  /-- It is in `hyper_period / rate` deadlines of each cycle. -/
  count : ∀ s ∈ td, (ds.filter fun d => s.reference ∈ d.due).length = hyperPeriod / s.extendRate
  /-- Every wakeup has something due. -/
  wakeup_nonempty : ∀ d ∈ ds, d.due ≠ []

theorem le_of_mem_timeline (t : Nat) (ds : List Deadline) :
    ∀ p ∈ timeline t ds, p.1 ≤ t + totalPause ds := by
  induction ds generalizing t with
  | nil => simp [timeline]
  | cons d ds ih =>
    intro p hp
    simp only [timeline, List.mem_cons] at hp
    rcases hp with rfl | hp
    · simp [totalPause]
    · have := ih _ p hp
      simp only [totalPause] at this ⊢
      omega

section Spec

variable {td : List TimeDrivenStream} {gcd hyperPeriod : Nat} {ds : List Deadline}

/-- The instants of a cycle lie in `(0, hyper_period]`. -/
theorem ScheduleSpec.mem_timeline_bounds (h : ScheduleSpec td gcd hyperPeriod ds) :
    ∀ p ∈ timeline 0 ds, 0 < p.1 ∧ p.1 ≤ hyperPeriod := fun p hp =>
  ⟨(timeline_increasing ds (fun d hd => (h.pause_pos d hd).1) 0).1 p hp,
    h.total ▸ by simpa using le_of_mem_timeline 0 ds p hp⟩

/-- With distinct references, a stream is in the `due` of an instant iff its rate divides it. -/
theorem ScheduleSpec.mem_due_iff (h : ScheduleSpec td gcd hyperPeriod ds)
    (hnd : (td.map (·.reference)).Nodup) {s : TimeDrivenStream} (hs : s ∈ td)
    {p : Nat × List StreamReference} (hp : p ∈ timeline 0 ds) :
    s.reference ∈ p.2 ↔ s.extendRate ∣ p.1 := by
  rw [(h.due_exact p hp).mem_iff, List.mem_map]
  constructor
  · rintro ⟨s', hs', hr⟩
    obtain ⟨hs'td, hd⟩ := List.mem_filter.mp hs'
    rw [List.inj_on_of_nodup_map hnd hs'td hs hr] at hd
    exact of_decide_eq_true hd
  · exact fun hd => ⟨s, List.mem_filter.mpr ⟨hs, decide_eq_true hd⟩, rfl⟩

/-- The instants of a cycle at which a stream is due are its multiples up to the period. -/
theorem ScheduleSpec.multiples_eq (h : ScheduleSpec td gcd hyperPeriod ds)
    {s : TimeDrivenStream} (hs : s ∈ td) (hr : 0 < s.extendRate) :
    ((timeline 0 ds).filter fun p => s.extendRate ∣ p.1).map Prod.fst =
      (List.range (hyperPeriod / s.extendRate)).map fun i => (i + 1) * s.extendRate := by
  have hsorted₁ : (((timeline 0 ds).filter fun p => s.extendRate ∣ p.1).map Prod.fst).Pairwise
      (· < ·) := by
    have hinc := h.increasing
    rw [List.pairwise_map] at hinc ⊢
    exact hinc.filter _
  have hsorted₂ : ((List.range (hyperPeriod / s.extendRate)).map
      fun i => (i + 1) * s.extendRate).Pairwise (· < ·) := by
    rw [List.pairwise_map]
    exact (List.pairwise_lt_range _).imp fun hij => Nat.mul_lt_mul_of_pos_right (by omega) hr
  refine List.eq_of_perm_of_sorted ((List.perm_ext_iff_of_nodup hsorted₁.nodup hsorted₂.nodup).mpr
    fun x => ?_) hsorted₁ hsorted₂
  simp only [List.mem_map, List.mem_filter, List.mem_range, decide_eq_true_eq]
  constructor
  · rintro ⟨p, ⟨hp, k, hk⟩, rfl⟩
    obtain ⟨h0, hle⟩ := h.mem_timeline_bounds p hp
    have hk0 : 0 < k := Nat.pos_of_ne_zero fun hk0 => by simp [hk0] at hk; omega
    have hkH : k ≤ hyperPeriod / s.extendRate :=
      (Nat.le_div_iff_mul_le hr).mpr (by rwa [Nat.mul_comm, ← hk])
    exact ⟨k - 1, by omega, by rw [hk, Nat.mul_comm, Nat.sub_add_cancel hk0]⟩
  · rintro ⟨i, hi, rfl⟩
    obtain ⟨p, hp, hp1⟩ := h.complete _ (Nat.mul_pos (Nat.succ_pos i) hr)
      ((Nat.le_div_iff_mul_le hr).mp hi) ⟨s, hs, Nat.dvd_mul_left _ _⟩
    exact ⟨p, ⟨hp, hp1 ▸ Nat.dvd_mul_left _ _⟩, hp1⟩

/-- The instants of a cycle at which `r` is due, read off the deadlines. -/
theorem length_filter_mem_due (ds : List Deadline) (r : StreamReference) :
    (ds.filter fun d => r ∈ d.due).length = ((timeline 0 ds).filter fun p => r ∈ p.2).length := by
  simp only [← List.countP_eq_length_filter]
  have := congrArg (List.countP fun l => decide (r ∈ l)) (map_snd_timeline 0 ds)
  simpa only [List.countP_map] using this.symm

/-- **One cycle meeting `ScheduleSpec`, repeated, makes each stream due exactly at the positive
multiples of its rate**, `hyper_period / rate` times per cycle. -/
theorem ScheduleSpec.cycleSpec (h : ScheduleSpec td gcd hyperPeriod ds)
    (hnd : (td.map (·.reference)).Nodup)
    (hrate : ∀ s ∈ td, 0 < s.extendRate ∧ s.extendRate ∣ hyperPeriod) (hH : 0 < hyperPeriod) :
    CycleSpec td hyperPeriod ds := by
  refine ⟨fun s hs t => ?dueAt, fun s hs => ?count, h.due_nonempty⟩
  case dueAt =>
    obtain ⟨hr, hrH⟩ := hrate s hs
    have hcyc : ∀ c, s.extendRate ∣ c * hyperPeriod := fun c => Dvd.dvd.mul_left hrH c
    constructor
    · rintro ⟨c, p, hp, rfl, hmem⟩
      exact ⟨by have := (h.mem_timeline_bounds p hp).1; omega,
        Nat.dvd_add (hcyc c) ((h.mem_due_iff hnd hs hp).mp hmem)⟩
    · rintro ⟨ht, hd⟩
      -- `t` lies in cycle `(t - 1) / hyper_period`, at offset `(t - 1) % hyper_period + 1`.
      have hsplit : t = (t - 1) / hyperPeriod * hyperPeriod + ((t - 1) % hyperPeriod + 1) := by
        have := Nat.div_add_mod' (t - 1) hyperPeriod
        omega
      have hoff : s.extendRate ∣ (t - 1) % hyperPeriod + 1 :=
        (Nat.dvd_add_right (hcyc _)).mp (hsplit ▸ hd)
      obtain ⟨p, hp, hp1⟩ := h.complete _ (Nat.succ_pos _)
        (Nat.mod_lt _ hH) ⟨s, hs, hoff⟩
      exact ⟨_, p, hp, by rwa [hp1], (h.mem_due_iff hnd hs hp).mpr (by rwa [hp1])⟩
  case count =>
    rw [length_filter_mem_due, List.filter_congr fun p hp => by
      rw [decide_eq_decide.mpr (h.mem_due_iff hnd hs hp)], ← List.length_map _ Prod.fst,
      h.multiples_eq hs (hrate s hs).1, List.length_map, List.length_range]

end Spec

end RTLola.Common
