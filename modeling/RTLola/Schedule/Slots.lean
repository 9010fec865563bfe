import RTLola.Ir.Basic

/-!
# The slot array of the schedule builder

Model of the first two passes of `Schedule::from` (`common/src/schedule.rs:19-29`):

* `build_extend_steps` (`schedule.rs:77-85`) makes `hyper_period / gcd` empty slots and pushes
  each time-driven stream into slot `extend_rate / gcd - 1`, in the order of `time_driven`. The
  `- 1` underflows and the index can run past the array: both panic, and the model is then
  `none`. `divide_durations` belongs to `crate::duration`, which is not part of the sources.
* `apply_periodicity` (`schedule.rs:54-70`) walks the slots in order; a nonempty slot `ix` is
  appended to every slot `k * (ix + 1) - 1`, `k = 1, 2, …`, while the index is in bounds (the
  `while let Some(target) = res.get_mut(..)` loop, `extendMultiples`).

Results:
* `getElem?_extendMultiples`: the inner loop appends the streams to exactly the slots `j` with
  `ix + 1 ∣ j + 1` and `k * (ix + 1) ≤ j + 1`.
* `applyPeriodicity_eq_periodicSlot`: `apply_periodicity` returns, for every length and every
  pattern of slots, the array whose slot `j` is the concatenation in increasing `i` of the input
  slots `i` with `i + 1 ∣ j + 1` (the "clean specification" of the design notes).
-/

namespace RTLola.Common

open RTLola.Ir

/-- Modelled from the spec: `divide_durations(a, b, round_up)` of `crate::duration`, which is not
part of the sources: `b * result ≤ a` rounding down, `b * result ≥ a` rounding up. -/
def divideDurations (a b : Nat) (roundUp : Bool) : Nat :=
  if roundUp then (a + b - 1) / b else a / b

/-- The cases of `test_divide_durations_round_down` and `_round_up` (`schedule.rs:142-176`). -/
example : [divideDurations 1000000000 100000000 false, divideDurations 1000000000 20000 false,
    divideDurations 40000 30000 false, divideDurations 3000001000 3000005000 false,
    divideDurations 40000 30000 true, divideDurations 3000001000 3000005000 true] =
    [10, 50000, 1, 0, 2, 1] := by decide

/-! ## `build_extend_steps` -/

/-- A slot array: the streams due in each `gcd`-sized interval. -/
abbrev Slots := List (List StreamReference)

/-- One iteration of `build_extend_steps`: `extend_steps[rate / gcd - 1].push(s.reference)`. -/
def pushExtendStep (gcd : Nat) (extendSteps : Slots) (s : TimeDrivenStream) : Option Slots :=
  let q := divideDurations s.extendRate gcd false
  if q = 0 then none
  else if q - 1 < extendSteps.length then some (extendSteps.modify (· ++ [s.reference]) (q - 1))
  else none

/-- `Schedule::build_extend_steps`; `none` where the Rust panics. -/
def buildExtendSteps (ir : LolaIR) (gcd hyperPeriod : Nat) : Option Slots :=
  ir.timeDriven.foldlM (pushExtendStep gcd) (List.replicate (divideDurations hyperPeriod gcd false) [])

/-- What `build_extend_steps` puts in slot `i`: the streams with `extend_rate / gcd = i + 1`, in
the order of `time_driven`. -/
def extendSlot (td : List TimeDrivenStream) (gcd i : Nat) : List StreamReference :=
  (td.filter fun s => s.extendRate / gcd = i + 1).map (·.reference)

theorem getElem?_foldlM_pushExtendStep (gcd : Nat) (td : List TimeDrivenStream) :
    ∀ acc : Slots, (∀ s ∈ td, 0 < s.extendRate / gcd ∧ s.extendRate / gcd ≤ acc.length) →
      ∃ B, td.foldlM (pushExtendStep gcd) acc = some B ∧
        ∀ i, B[i]? = acc[i]?.map (· ++ extendSlot td gcd i) := by
  induction td with
  | nil => exact fun acc _ => ⟨acc, rfl, fun i => by simp [extendSlot]⟩
  | cons s td ih =>
    intro acc h
    obtain ⟨hpos, hle⟩ := h s (List.mem_cons_self _ _)
    have hpush : pushExtendStep gcd acc s =
        some (acc.modify (· ++ [s.reference]) (s.extendRate / gcd - 1)) := by
      simp only [pushExtendStep, divideDurations, Bool.false_eq_true, if_false]
      rw [if_neg (by omega), if_pos (by omega)]
    obtain ⟨B, hB, hi⟩ := ih (acc.modify (· ++ [s.reference]) (s.extendRate / gcd - 1))
      (fun t ht => by simpa using h t (List.mem_cons_of_mem _ ht))
    refine ⟨B, by rw [List.foldlM_cons, hpush]; exact hB, fun i => ?_⟩
    rw [hi, List.getElem?_modify]
    cases acc[i]? with
    | none => rfl
    | some slot =>
      by_cases hs : s.extendRate / gcd = i + 1
      · simp [extendSlot, List.filter_cons, hs]
      · have : s.extendRate / gcd - 1 ≠ i := by omega
        simp [extendSlot, List.filter_cons, hs, this]

/-- **`build_extend_steps` does not panic** when every rate is at least `gcd` and at most the
hyper period in `gcd` units, and then slot `i` is `extendSlot`. -/
theorem buildExtendSteps_eq (ir : LolaIR) (gcd hyperPeriod : Nat)
    (h : ∀ s ∈ ir.timeDriven, 0 < s.extendRate / gcd ∧ s.extendRate / gcd ≤ hyperPeriod / gcd) :
    buildExtendSteps ir gcd hyperPeriod =
      some ((List.range (hyperPeriod / gcd)).map (extendSlot ir.timeDriven gcd)) := by
  obtain ⟨B, hB, hi⟩ := getElem?_foldlM_pushExtendStep gcd ir.timeDriven
    (List.replicate (hyperPeriod / gcd) []) (by simpa using h)
  rw [buildExtendSteps, divideDurations, if_neg Bool.false_ne_true, hB]
  congr 1
  apply List.ext_getElem?
  intro i
  rw [hi, List.getElem?_replicate, List.getElem?_map]
  by_cases hlt : i < hyperPeriod / gcd
  · rw [List.getElem?_range hlt]; simp [hlt]
  · rw [List.getElem?_eq_none (by simpa using hlt)]; simp [hlt]

/-! ## `apply_periodicity` -/

/-- The `while let Some(target) = res.get_mut(k * (ix + 1) - 1)` loop: extend slot
`k * (ix + 1) - 1` by `streams` and continue with `k + 1`, until the index leaves the array. -/
def extendMultiples (streams : List StreamReference) (ix : Nat) (res : Slots) (k : Nat) : Slots :=
  if k * (ix + 1) - 1 < res.length then
    extendMultiples streams ix (res.modify (· ++ streams) (k * (ix + 1) - 1)) (k + 1)
  else res
termination_by res.length + 1 - k
decreasing_by
  have : k ≤ k * (ix + 1) := Nat.le_mul_of_pos_right k (Nat.succ_pos ix)
  simp only [List.length_modify]
  omega

/-- The body of the `for (ix, streams)` loop: only a nonempty slot is copied. -/
def periodicityStep (res : Slots) (p : Nat × List StreamReference) : Slots :=
  if p.2.isEmpty then res else extendMultiples p.2 p.1 res 1

/-- `Schedule::apply_periodicity`. -/
def applyPeriodicity (steps : Slots) : Slots :=
  steps.enum.foldl periodicityStep (List.replicate steps.length [])

/-- The clean specification of `apply_periodicity`: slot `j` is the concatenation, in increasing
`i`, of the slots `i` with `i + 1 ∣ j + 1`. -/
def periodicSlot (steps : Slots) (j : Nat) : List StreamReference :=
  (steps.enum.filter fun p => (p.1 + 1) ∣ (j + 1)).flatMap Prod.snd

theorem length_extendMultiples (streams : List StreamReference) (ix : Nat) (res : Slots) (k : Nat) :
    (extendMultiples streams ix res k).length = res.length := by
  induction res, k using extendMultiples.induct streams ix with
  | case1 res k h ih => rw [extendMultiples, if_pos h, ih, List.length_modify]
  | case2 res k h => rw [extendMultiples, if_neg h]

/-- A multiple of `a` in `[k * a, (k + 1) * a)` is `k * a`. -/
theorem eq_of_dvd_of_window {a n k : Nat} (ha : 0 < a) (hd : a ∣ n) (hlo : k * a ≤ n)
    (hhi : n < (k + 1) * a) : n = k * a := by
  obtain ⟨m, rfl⟩ := hd
  rw [Nat.mul_comm k, Nat.mul_comm (k + 1)] at *
  have h₁ := Nat.le_of_mul_le_mul_left hlo ha
  have h₂ := Nat.lt_of_mul_lt_mul_left hhi
  rw [show m = k by omega]

/-- **The inner loop**: from `k` on, the streams are appended to exactly the slots `j` with
`ix + 1 ∣ j + 1` and `k * (ix + 1) ≤ j + 1`. -/
theorem getElem?_extendMultiples (streams : List StreamReference) (ix : Nat) (res : Slots)
    (k : Nat) (hk : 0 < k) (j : Nat) :
    (extendMultiples streams ix res k)[j]? = res[j]?.map fun slot =>
      if (ix + 1) ∣ (j + 1) ∧ k * (ix + 1) ≤ j + 1 then slot ++ streams else slot := by
  induction res, k using extendMultiples.induct streams ix with
  | case1 res k h ih =>
    have hpos : 1 ≤ k * (ix + 1) := Nat.mul_pos hk (Nat.succ_pos ix)
    rw [extendMultiples, if_pos h, ih (Nat.succ_pos k), List.getElem?_modify]
    cases res[j]? with
    | none => rfl
    | some slot =>
      simp only [Option.map_some', Option.map_eq_map, Option.some.injEq]
      by_cases hj : k * (ix + 1) - 1 = j
      · subst hj
        have hd : (ix + 1) ∣ k * (ix + 1) - 1 + 1 := by
          rw [Nat.sub_add_cancel hpos]; exact Nat.dvd_mul_left _ _
        have h2 : (k + 1) * (ix + 1) = k * (ix + 1) + (ix + 1) := Nat.succ_mul k (ix + 1)
        rw [if_neg fun hc => by have := hc.2; omega, if_pos rfl, if_pos ⟨hd, by omega⟩]
      · have hc : ((ix + 1) ∣ (j + 1) ∧ (k + 1) * (ix + 1) ≤ j + 1) ↔
            ((ix + 1) ∣ (j + 1) ∧ k * (ix + 1) ≤ j + 1) := by
          refine ⟨fun ⟨hd, hle⟩ => ⟨hd, by rw [Nat.succ_mul] at hle; omega⟩, fun ⟨hd, hle⟩ => ⟨hd, ?_⟩⟩
          by_contra hlt
          have := eq_of_dvd_of_window (by omega : 0 < ix + 1) hd hle (by omega)
          omega
        simp only [hj, if_false, hc]
  | case2 res k h =>
    rw [extendMultiples, if_neg h]
    cases hres : res[j]? with
    | none => rfl
    | some slot =>
      have hj : j < res.length := (List.getElem?_eq_some_iff.mp hres).1
      simp only [Option.map_some']
      rw [if_neg (by omega)]

theorem getElem?_periodicityStep (res : Slots) (p : Nat × List StreamReference) (j : Nat) :
    (periodicityStep res p)[j]? = res[j]?.map (· ++ if (p.1 + 1) ∣ (j + 1) then p.2 else []) := by
  unfold periodicityStep
  by_cases hp : p.2 = []
  · simp [hp]
  · rw [if_neg (by simpa using hp), getElem?_extendMultiples _ _ _ 1 Nat.one_pos]
    congr 1
    funext slot
    by_cases hd : (p.1 + 1) ∣ (j + 1)
    · rw [if_pos ⟨hd, by simpa using Nat.le_of_dvd (Nat.succ_pos j) hd⟩, if_pos hd]
    · rw [if_neg fun h => hd h.1, if_neg hd, List.append_nil]

/-- **The outer loop** over any list of `(ix, streams)` pairs. -/
theorem getElem?_foldl_periodicityStep (l : List (Nat × List StreamReference)) (res : Slots)
    (j : Nat) :
    (l.foldl periodicityStep res)[j]? =
      res[j]?.map (· ++ (l.filter fun p => (p.1 + 1) ∣ (j + 1)).flatMap Prod.snd) := by
  induction l generalizing res with
  | nil => simp
  | cons p l ih =>
    rw [List.foldl_cons, ih, getElem?_periodicityStep, Option.map_map]
    congr 1
    funext slot
    by_cases hd : (p.1 + 1) ∣ (j + 1) <;> simp [hd, List.filter_cons]

theorem getElem?_applyPeriodicity (steps : Slots) (j : Nat) :
    (applyPeriodicity steps)[j]? = if j < steps.length then some (periodicSlot steps j) else none := by
  rw [applyPeriodicity, getElem?_foldl_periodicityStep, List.getElem?_replicate]
  by_cases hj : j < steps.length <;> simp [hj, periodicSlot]

/-- **`apply_periodicity` meets its clean specification**, for every slot array. -/
theorem applyPeriodicity_eq_periodicSlot (steps : Slots) :
    applyPeriodicity steps = (List.range steps.length).map (periodicSlot steps) := by
  apply List.ext_getElem?
  intro j
  rw [getElem?_applyPeriodicity, List.getElem?_map]
  by_cases hj : j < steps.length
  · rw [List.getElem?_range hj]; simp [hj]
  · rw [List.getElem?_eq_none (by simpa using hj)]; simp [hj]

/-- The doc comment's example: `[[a] [b] [] [c]]` becomes `[[a] [a,b] [a] [a,b,c]]`. -/
example : applyPeriodicity [[.outRef 0], [.outRef 1], [], [.outRef 2]] =
    [[.outRef 0], [.outRef 0, .outRef 1], [.outRef 0], [.outRef 0, .outRef 1, .outRef 2]] := by
  simp [applyPeriodicity, List.enum, List.enumFrom, periodicityStep, extendMultiples]

end RTLola.Common
