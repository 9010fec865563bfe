import Mathlib.Data.UInt
import RTLola.Schedule.Slots

/-!
# Condensing the slot array into deadlines

Model of `Schedule::condense_deadlines` (`common/src/schedule.rs:87-105`). A fold over the slots
carries `(empty_counter, deadlines)`: an empty slot increments the counter, a nonempty slot `s`
pushes `Deadline { pause: (empty_counter + 1) * gcd, due: s }` and resets it. A nonzero counter
left at the end becomes a padding deadline of pause `remaining * gcd` with empty `due`.

* The counter is the `u32` of the Rust (`let init: (u32, Vec<Deadline>)`). `empty_counter + 1`
  is `UInt32` addition, which wraps at `2 ^ 32` as in a release build (a debug build panics).
* Durations are nanoseconds (`Nat`). Both products are `u32 * Duration`, which is
  `Duration::checked_mul(..).expect(..)` and panics past `Duration::MAX` (`mulDuration`); a
  panic is `none`.
* `timeline t ds` reads a deadline list as instants: each `due` at the sum of the pauses up to and
  including its deadline, counted from `t`.

Results:
* `foldlM_condenseStep`: the fold invariant, by induction over the slots, while every run of
  empty slots fits the counter and the durations (`RunsFitFrom`).
* `condenseDeadlines_spec`: when the runs of empty slots fit (`RunsFit`: a run followed by a
  nonempty slot is shorter than `2 ^ 32 - 1` slots and its pause is at most `Duration::MAX`; a
  trailing run is shorter than `2 ^ 32` slots and its pause is at most `Duration::MAX`), the
  function does not panic and returns one deadline per nonempty slot `j`, in slot order, at
  instant `(j + 1) * gcd` with `due` the slot, followed by one padding deadline at `n * gcd`
  exactly when the last slot is empty; the pauses sum to `n * gcd`. `RunsFit.of_length`: short
  arrays always fit.
* `condenseDeadlines_isSome`: with `2 ^ 32 * gcd` at most `Duration::MAX` no product can
  overflow, so the function never panics, whatever the slots; `condenseDeadlines_append`: the
  deadlines condensed from a prefix of the slots stay a prefix of the result.
* `condenseDeadlines_wrap_or_panic`: both premises are needed. At `2 ^ 32` empty slots the
  counter wraps to `0` and no deadline is returned at all; a pause past `Duration::MAX` panics.
-/

namespace RTLola.Common

open RTLola.Ir

/-- `Deadline`: a pause in nanoseconds and the streams due after it. -/
structure Deadline where
  pause : Nat
  due : List StreamReference
  deriving DecidableEq, Repr

/-- `u32 * Duration`: `Duration::checked_mul(..).expect(..)`, a panic past `Duration::MAX`. -/
def mulDuration (n : UInt32) (d : Nat) : Option Nat :=
  if n.toNat * d ≤ durationMax then some (n.toNat * d) else none

/-- The closure of the fold in `condense_deadlines`. -/
def condenseStep (gcd : Nat) (acc : UInt32 × List Deadline) (step : List StreamReference) :
    Option (UInt32 × List Deadline) :=
  if step.isEmpty then some (acc.1 + 1, acc.2)
  else (mulDuration (acc.1 + 1) gcd).map fun pause => (0, acc.2 ++ [⟨pause, step⟩])

/-- `Schedule::condense_deadlines`. -/
def condenseDeadlines (gcd : Nat) (extendSteps : Slots) : Option (List Deadline) := do
  let r ← extendSteps.foldlM (condenseStep gcd) (0, [])
  if r.1 ≠ 0 then (mulDuration r.1 gcd).map fun pause => r.2 ++ [⟨pause, []⟩] else pure r.2

theorem mulDuration_of_le {n : UInt32} {d : Nat} (h : n.toNat * d ≤ durationMax) :
    mulDuration n d = some (n.toNat * d) :=
  if_pos h

@[simp] theorem condenseStep_nil (gcd : Nat) (c : UInt32) (acc : List Deadline) :
    condenseStep gcd (c, acc) [] = some (c + 1, acc) :=
  rfl

theorem condenseStep_of_ne_nil (gcd : Nat) (c : UInt32) (acc : List Deadline)
    {s : List StreamReference} (hs : s ≠ []) :
    condenseStep gcd (c, acc) s = (mulDuration (c + 1) gcd).map fun pause => (0, acc ++ [⟨pause, s⟩]) := by
  simp [condenseStep, hs]

/-- The deadlines as instants: each `due` at the sum of the pauses up to its deadline, from `t`. -/
def timeline (t : Nat) : List Deadline → List (Nat × List StreamReference)
  | [] => []
  | d :: ds => (t + d.pause, d.due) :: timeline (t + d.pause) ds

/-- The sum of the pauses. -/
def totalPause : List Deadline → Nat
  | [] => 0
  | d :: ds => d.pause + totalPause ds

/-- One instant per nonempty slot of `l`, the first slot of `l` being slot `base`. -/
def slotInstants (gcd base : Nat) (l : Slots) : List (Nat × List StreamReference) :=
  ((l.enumFrom base).filter fun p => p.2 ≠ []).map fun p => ((p.1 + 1) * gcd, p.2)

theorem timeline_append (t : Nat) (ds es : List Deadline) :
    timeline t (ds ++ es) = timeline t ds ++ timeline (t + totalPause ds) es := by
  induction ds generalizing t with
  | nil => simp [timeline, totalPause]
  | cons d ds ih => simp [timeline, ih, totalPause, Nat.add_assoc]

theorem map_snd_timeline (t : Nat) (ds : List Deadline) :
    (timeline t ds).map Prod.snd = ds.map Deadline.due := by
  induction ds generalizing t <;> simp [timeline, *]

/-- Every deadline has its instant. -/
theorem exists_mem_timeline {ds : List Deadline} {d : Deadline} (t : Nat) (hd : d ∈ ds) :
    ∃ p ∈ timeline t ds, p.2 = d.due :=
  List.mem_map.mp (map_snd_timeline t ds ▸ List.mem_map_of_mem _ hd)

/-- Positive pauses make the instants strictly increase, all after the start. -/
theorem timeline_increasing (ds : List Deadline) (h : ∀ d ∈ ds, 0 < d.pause) (t : Nat) :
    (∀ p ∈ timeline t ds, t < p.1) ∧ ((timeline t ds).map Prod.fst).Pairwise (· < ·) := by
  induction ds generalizing t with
  | nil => simp [timeline]
  | cons d ds ih =>
    have hd := h d (List.mem_cons_self _ _)
    obtain ⟨h₁, h₂⟩ := ih (fun e he => h e (List.mem_cons_of_mem _ he)) (t + d.pause)
    refine ⟨?_, ?_⟩
    · simp only [timeline, List.mem_cons, forall_eq_or_imp]
      exact ⟨by omega, fun p hp => by have := h₁ p hp; omega⟩
    · simp only [timeline, List.map_cons, List.pairwise_cons, List.mem_map]
      exact ⟨fun b ⟨p, hp, hb⟩ => hb ▸ h₁ p hp, h₂⟩

theorem totalPause_append (ds es : List Deadline) :
    totalPause (ds ++ es) = totalPause ds + totalPause es := by
  induction ds with
  | nil => simp [totalPause]
  | cons d ds ih => simp [totalPause, ih, Nat.add_assoc]

@[simp] theorem totalPause_singleton (d : Deadline) : totalPause [d] = d.pause := by
  simp [totalPause]

theorem slotInstants_cons (gcd base : Nat) (s : List StreamReference) (l : Slots) :
    slotInstants gcd base (s :: l) =
      (if s = [] then [] else [((base + 1) * gcd, s)]) ++ slotInstants gcd (base + 1) l := by
  by_cases hs : s = [] <;> simp [slotInstants, List.enumFrom_cons, List.filter_cons, hs]

theorem toNat_add_one_uint32 (c : UInt32) : (c + 1).toNat = (c.toNat + 1) % 2 ^ 32 := by
  simp only [UInt32.toNat, UInt32.add_def, BitVec.toNat_add]
  rfl

theorem toNat_lt_uint32 (c : UInt32) : c.toNat < 2 ^ 32 :=
  c.toNat_lt_size

theorem toNat_add_one_of_lt {c : UInt32} (h : c.toNat + 1 < 2 ^ 32) :
    (c + 1).toNat = c.toNat + 1 := by
  rw [toNat_add_one_uint32, Nat.mod_eq_of_lt h]

/-! ## Runs of empty slots that fit the counter and the durations -/

/-- The runs of empty slots of `l`, the first one already `k` slots long, fit the code: a run of
`k` empty slots before a nonempty one needs `k + 1 < 2 ^ 32` (the counter does not wrap) and
`(k + 1) * gcd ≤ Duration::MAX` (its pause does not panic); a trailing run of `k` needs
`k < 2 ^ 32` and `k * gcd ≤ Duration::MAX`. -/
def RunsFitFrom (gcd : Nat) : Nat → Slots → Prop
  | k, [] => k < 2 ^ 32 ∧ k * gcd ≤ durationMax
  | k, s :: l => if s = [] then RunsFitFrom gcd (k + 1) l
      else k + 1 < 2 ^ 32 ∧ (k + 1) * gcd ≤ durationMax ∧ RunsFitFrom gcd 0 l

/-- Every run of empty slots of `S` fits the `u32` counter and the `Duration`s of
`condense_deadlines`. -/
structure RunsFit (gcd : Nat) (S : Slots) : Prop where
  /-- A run of `k` empty slots followed by a nonempty slot: `k + 1 < 2 ^ 32` and its pause
  `(k + 1) * gcd` is at most `Duration::MAX`. -/
  before : ∀ A k s B, S = A ++ List.replicate k [] ++ s :: B → s ≠ [] →
    k + 1 < 2 ^ 32 ∧ (k + 1) * gcd ≤ durationMax
  /-- A run of `k` empty slots at the end: `k < 2 ^ 32` and its pause `k * gcd` is at most
  `Duration::MAX`. -/
  trailing : ∀ A k, S = A ++ List.replicate k [] → k < 2 ^ 32 ∧ k * gcd ≤ durationMax

theorem RunsFitFrom.lt {gcd k : Nat} {l : Slots} (h : RunsFitFrom gcd k l) : k < 2 ^ 32 := by
  induction l generalizing k with
  | nil => exact h.1
  | cons s l ih =>
    unfold RunsFitFrom at h
    split_ifs at h
    · have := ih h; omega
    · omega

/-- Read from the left, the runs of `S` that fit are those of `RunsFitFrom`. -/
theorem RunsFit.runsFitFrom {gcd : Nat} {S : Slots} (h : RunsFit gcd S) :
    ∀ (l A : Slots) (k : Nat), S = A ++ List.replicate k [] ++ l → RunsFitFrom gcd k l := by
  intro l
  induction l with
  | nil => exact fun A k hS => h.trailing A k (by simpa using hS)
  | cons s l ih =>
    intro A k hS
    by_cases hs : s = []
    · subst hs
      simp only [RunsFitFrom, if_true]
      exact ih A (k + 1) (by rw [hS, List.replicate_succ']; simp)
    · simp only [RunsFitFrom, hs, if_false]
      obtain ⟨h₁, h₂⟩ := h.before A k s l hS hs
      exact ⟨h₁, h₂, ih (A ++ List.replicate k [] ++ [s]) 0 (by rw [hS]; simp)⟩

/-- An array of fewer than `2 ^ 32` slots whose whole length in `gcd`s is a `Duration` fits. -/
theorem RunsFit.of_length {gcd : Nat} {S : Slots} (hS : S.length < 2 ^ 32)
    (hD : S.length * gcd ≤ durationMax) : RunsFit gcd S where
  before A k s B h _ := by
    have hk : k + 1 ≤ S.length := by rw [h]; simp; omega
    exact ⟨by omega, (Nat.mul_le_mul_right gcd hk).trans hD⟩
  trailing A k h := by
    have hk : k ≤ S.length := by rw [h]; simp
    exact ⟨by omega, (Nat.mul_le_mul_right gcd hk).trans hD⟩

theorem mod_add_one_of_not_dvd {m a : Nat} (h : ¬ m ∣ a + 1) : (a + 1) % m = a % m + 1 := by
  rcases Nat.eq_zero_or_pos m with rfl | hm
  · simp
  have h₁ := Nat.mod_add_div a m
  have h₂ := Nat.mod_add_div (a + 1) m
  have h₃ := Nat.mod_lt a hm
  have h₄ : (a + 1) % m ≠ 0 := fun h0 => h (Nat.dvd_of_mod_eq_zero h0)
  have h₅ : (a + 1) / m = a / m := by rw [Nat.succ_div, if_neg h, Nat.add_zero]
  rw [h₅] at h₂
  omega

/-- Slots that are nonempty at least every `m` ticks (every `j` with `m ∣ j + 1`) fit when
`m < 2 ^ 32` and `m * gcd ≤ Duration::MAX`: a run, started `k ≤ a % m` slots before slot `a`,
ends before the next such tick. -/
theorem runsFitFrom_map_range' (G : Nat → List StreamReference) {gcd m : Nat} (hm : 0 < m)
    (hm32 : m < 2 ^ 32) (hD : m * gcd ≤ durationMax) (hG : ∀ j, m ∣ j + 1 → G j ≠ []) :
    ∀ len a k, k ≤ a % m → RunsFitFrom gcd k ((List.range' a len).map G) := by
  intro len
  induction len with
  | zero =>
    intro a k hk
    have hkm : k < m := hk.trans_lt (Nat.mod_lt a hm)
    exact ⟨by omega, (Nat.mul_le_mul_right gcd hkm.le).trans hD⟩
  | succ len ih =>
    intro a k hk
    have hkm : k < m := hk.trans_lt (Nat.mod_lt a hm)
    rw [List.range'_succ, List.map_cons]
    by_cases hs : G a = []
    · simp only [RunsFitFrom, hs, if_true]
      exact ih (a + 1) (k + 1) (by rw [mod_add_one_of_not_dvd fun hd => hG a hd hs]; omega)
    · simp only [RunsFitFrom, hs, if_false]
      exact ⟨by omega, (Nat.mul_le_mul_right gcd hkm).trans hD, ih (a + 1) 0 (Nat.zero_le _)⟩

/-! ## The fold -/

/-- **The fold invariant** of `condense_deadlines`, while the runs fit: the fold does not panic;
the deadlines pushed for `l` are its nonempty slots at their instants, each with a pause of a
positive number of `gcd`s; the counter counts the empty slots since the last deadline, is `0`
exactly when the last slot is nonempty, and its pause fits; the deadlines plus the counter cover
`base + |l|` slots. -/
theorem foldlM_condenseStep (gcd : Nat) (l : Slots) :
    ∀ (base : Nat) (c : UInt32) (acc : List Deadline), RunsFitFrom gcd c.toNat l →
      totalPause acc + c.toNat * gcd = base * gcd →
      ∃ r : UInt32 × List Deadline, l.foldlM (condenseStep gcd) (c, acc) = some r ∧
        timeline 0 r.2 = timeline 0 acc ++ slotInstants gcd base l ∧
        totalPause r.2 + r.1.toNat * gcd = (base + l.length) * gcd ∧
        r.1.toNat * gcd ≤ durationMax ∧
        (r.1 = 0 ↔ l.getLast?.elim (c = 0) (· ≠ [])) ∧
        ∀ d ∈ r.2, d ∈ acc ∨ ∃ m, 0 < m ∧ d.pause = m * gcd := by
  induction l with
  | nil =>
    intro base c acc hfit htot
    exact ⟨(c, acc), rfl, by simp [slotInstants], by simpa using htot, hfit.2, Iff.rfl,
      fun d hd => .inl hd⟩
  | cons s l ih =>
    intro base c acc hfit htot
    have hstep : (base + 1) * gcd = base * gcd + gcd := Nat.succ_mul base gcd
    rw [List.foldlM_cons, slotInstants_cons, List.getLast?_cons]
    by_cases hs : s = []
    · subst hs
      simp only [RunsFitFrom, if_true] at hfit
      have hc := toNat_add_one_of_lt hfit.lt
      obtain ⟨r, hr, h₁, h₂, h₃, h₄, h₅⟩ := ih (base + 1) (c + 1) acc (hc ▸ hfit)
        (by rw [hc, Nat.succ_mul, hstep]; omega)
      refine ⟨r, by simpa using hr, by simpa using h₁,
        by simpa [Nat.add_assoc, Nat.add_comm 1] using h₂, h₃, ?_, h₅⟩
      have hc0 : c + 1 ≠ 0 := fun h0 => by simp [h0] at hc
      rw [h₄]
      cases l.getLast? <;> simp [hc0]
    · simp only [RunsFitFrom, hs, if_false] at hfit
      obtain ⟨hlt, hD, hfit⟩ := hfit
      have hc := toNat_add_one_of_lt hlt
      obtain ⟨r, hr, h₁, h₂, h₃, h₄, h₅⟩ := ih (base + 1) 0 (acc ++ [⟨(c.toNat + 1) * gcd, s⟩])
        (by simpa using hfit) (by simp [totalPause_append]; rw [Nat.succ_mul, hstep]; omega)
      refine ⟨r, ?_, ?_, by simpa [Nat.add_assoc, Nat.add_comm 1] using h₂, h₃, ?_, fun d hd => ?_⟩
      · rw [condenseStep_of_ne_nil _ _ _ hs, mulDuration_of_le (hc ▸ hD), hc]
        exact hr
      · rw [h₁, timeline_append, List.append_assoc]
        simp [timeline, hs]
        rw [Nat.succ_mul, hstep]
        omega
      · rw [h₄]
        cases l.getLast? <;> simp [hs]
      · rcases h₅ d hd with hd | hd
        · rcases List.mem_append.mp hd with hd | hd
          · exact .inl hd
          · exact .inr ⟨c.toNat + 1, Nat.succ_pos _, by simp at hd; simp [hd]⟩
        · exact .inr hd

/-- `condense_deadlines` when the runs fit, read from the fold invariant. -/
theorem condenseDeadlines_of_runsFitFrom (gcd : Nat) (S : Slots) (h : RunsFitFrom gcd 0 S) :
    ∃ ds, condenseDeadlines gcd S = some ds ∧
      timeline 0 ds = slotInstants gcd 0 S ++
        (if S.getLast? = some [] then [(S.length * gcd, [])] else []) ∧
      totalPause ds = S.length * gcd ∧ ∀ d ∈ ds, ∃ m, 0 < m ∧ d.pause = m * gcd := by
  obtain ⟨r, hr, h₁, h₂, h₃, h₄, h₅⟩ := foldlM_condenseStep gcd S 0 0 [] h (by simp [totalPause])
  simp only [timeline, List.nil_append, Nat.zero_add] at h₁ h₂
  have hpause : ∀ d ∈ r.2, ∃ m, 0 < m ∧ d.pause = m * gcd :=
    fun d hd => (h₅ d hd).resolve_left (List.not_mem_nil d)
  have hlast : r.1 = 0 ↔ S.getLast? ≠ some [] := by rw [h₄]; cases S.getLast? <;> simp
  simp only [condenseDeadlines, hr, Option.bind_eq_bind, Option.some_bind]
  by_cases hr0 : r.1 = 0
  · refine ⟨r.2, by simp [hr0], ?_, ?_, hpause⟩
    · simp [h₁, hlast.mp hr0]
    · simpa [hr0] using h₂
  · have hl : S.getLast? = some [] := by simpa using mt hlast.mpr hr0
    refine ⟨r.2 ++ [⟨r.1.toNat * gcd, []⟩], by simp [hr0, mulDuration_of_le h₃], ?_, ?_, ?_⟩
    · simp [timeline_append, h₁, hl, timeline, h₂]
    · rw [totalPause_append, totalPause_singleton]; exact h₂
    · intro d hd
      rcases List.mem_append.mp hd with hd | hd
      · exact hpause d hd
      · refine ⟨_, Nat.pos_of_ne_zero fun h0 => hr0 (UInt32.toNat.inj h0), by simp at hd; simp [hd]⟩

/-- **`condense_deadlines` when the runs of empty slots fit**: if every run of `k` empty slots
followed by a nonempty slot has `k + 1 < 2 ^ 32` and `(k + 1) * gcd ≤ Duration::MAX`, and a
trailing run has `k < 2 ^ 32` and `k * gcd ≤ Duration::MAX`, the function does not panic and
returns one deadline per nonempty slot `j`, in order, at instant `(j + 1) * gcd` with `due` the
slot, then one padding deadline at `n * gcd` exactly when the last slot is empty; the pauses sum
to `n * gcd`. -/
theorem condenseDeadlines_spec (gcd : Nat) (S : Slots) (h : RunsFit gcd S) :
    ∃ ds, condenseDeadlines gcd S = some ds ∧
      timeline 0 ds = slotInstants gcd 0 S ++
        (if S.getLast? = some [] then [(S.length * gcd, [])] else []) ∧
      totalPause ds = S.length * gcd :=
  let ⟨ds, h₁, h₂, h₃, _⟩ :=
    condenseDeadlines_of_runsFitFrom gcd S (h.runsFitFrom S [] 0 (by simp))
  ⟨ds, h₁, h₂, h₃⟩

theorem condenseDeadlines_spec_trailing :
    RunsFit 5 [[], [.outRef 0], [], []] ∧
      ∃ ds, condenseDeadlines 5 [[], [.outRef 0], [], []] = some ds ∧
        timeline 0 ds = slotInstants 5 0 [[], [.outRef 0], [], []] ++
          (if ([[], [.outRef 0], [], []] : Slots).getLast? = some [] then
            [(([[], [.outRef 0], [], []] : Slots).length * 5, [])] else []) ∧
        totalPause ds = ([[], [.outRef 0], [], []] : Slots).length * 5 :=
  have h : RunsFit 5 [[], [.outRef 0], [], []] := .of_length (by decide) (by decide)
  ⟨h, condenseDeadlines_spec 5 _ h⟩

example : condenseDeadlines 5 [[], [.outRef 0], [], []] = some [⟨10, [.outRef 0]⟩, ⟨10, []⟩] := by
  decide

/-! ## Without overflow the function never panics -/

/-- With `2 ^ 32 * gcd` at most `Duration::MAX` no product can pass it, whatever the counter:
the fold never panics and only appends deadlines. -/
theorem foldlM_condenseStep_extends (gcd : Nat) (hg : 2 ^ 32 * gcd ≤ durationMax) (l : Slots) :
    ∀ c acc, ∃ r : UInt32 × List Deadline,
      l.foldlM (condenseStep gcd) (c, acc) = some r ∧ acc <+: r.2 := by
  induction l with
  | nil => exact fun c acc => ⟨(c, acc), rfl, List.prefix_refl acc⟩
  | cons s l ih =>
    intro c acc
    rw [List.foldlM_cons]
    by_cases hs : s = []
    · subst hs
      obtain ⟨r, hr, hp⟩ := ih (c + 1) acc
      exact ⟨r, by simpa using hr, hp⟩
    · have hle : (c + 1).toNat * gcd ≤ durationMax :=
        (Nat.mul_le_mul_right gcd (toNat_lt_uint32 (c + 1)).le).trans hg
      obtain ⟨r, hr, hp⟩ := ih 0 (acc ++ [⟨(c + 1).toNat * gcd, s⟩])
      refine ⟨r, ?_, (List.prefix_append _ _).trans hp⟩
      rw [condenseStep_of_ne_nil _ _ _ hs, mulDuration_of_le hle]
      exact hr

/-- **The deadlines of a prefix stay a prefix**: with `2 ^ 32 * gcd` at most `Duration::MAX`,
`condense_deadlines` does not panic on `S ++ T`, and its deadlines start with those the fold
pushed for `S`. -/
theorem condenseDeadlines_append (gcd : Nat) (hg : 2 ^ 32 * gcd ≤ durationMax) {S : Slots}
    {c : UInt32} {acc : List Deadline} (hS : S.foldlM (condenseStep gcd) (0, []) = some (c, acc))
    (T : Slots) : ∃ ds, condenseDeadlines gcd (S ++ T) = some (acc ++ ds) := by
  obtain ⟨r, hr, ⟨e, he⟩⟩ := foldlM_condenseStep_extends gcd hg T c acc
  have hle : r.1.toNat * gcd ≤ durationMax :=
    (Nat.mul_le_mul_right gcd (toNat_lt_uint32 r.1).le).trans hg
  simp only [condenseDeadlines, List.foldlM_append, hS, hr, Option.bind_eq_bind, Option.some_bind]
  by_cases hr0 : r.1 = 0
  · exact ⟨e, by simp [hr0, he]⟩
  · exact ⟨e ++ [⟨r.1.toNat * gcd, []⟩], by simp [hr0, mulDuration_of_le hle, ← he]⟩

/-- **`condense_deadlines` never panics while `2 ^ 32 * gcd` is at most `Duration::MAX`**,
whatever the slots: the `u32` counter wraps before a pause can pass `Duration::MAX`. -/
theorem condenseDeadlines_isSome (gcd : Nat) (hg : 2 ^ 32 * gcd ≤ durationMax) (S : Slots) :
    (condenseDeadlines gcd S).isSome := by
  obtain ⟨ds, hds⟩ := condenseDeadlines_append gcd hg (S := []) rfl S
  rw [List.nil_append] at hds
  rw [hds]
  rfl

theorem condenseDeadlines_isSome_gcd_five :
    2 ^ 32 * 5 ≤ durationMax ∧ (condenseDeadlines 5 [[], [.outRef 0], [], []]).isSome :=
  ⟨by decide, condenseDeadlines_isSome 5 (by decide) _⟩

/-! ## Where the premises are needed -/

theorem foldlM_condenseStep_replicate (gcd m : Nat) (c : UInt32) (acc : List Deadline) :
    ∃ c' : UInt32, (List.replicate m []).foldlM (condenseStep gcd) (c, acc) = some (c', acc) ∧
      c'.toNat = (c.toNat + m) % 2 ^ 32 := by
  induction m generalizing c with
  | zero => exact ⟨c, rfl, (Nat.mod_eq_of_lt (toNat_lt_uint32 c)).symm⟩
  | succ m ih =>
    obtain ⟨c', hc', hn⟩ := ih (c + 1)
    refine ⟨c', by simpa [List.replicate_succ] using hc', ?_⟩
    rw [hn, toNat_add_one_uint32, Nat.mod_add_mod, Nat.add_assoc, Nat.add_comm 1]

/-- **Both premises are needed**: at `2 ^ 32` empty slots the `u32` counter wraps to `0` and no
deadline is returned at all, although the last slot is empty, so the pauses sum to `0`, not to
`n * gcd`; and at `gcd = Duration::MAX` the pause of a nonempty slot after an empty one panics. -/
theorem condenseDeadlines_wrap_or_panic :
    condenseDeadlines 1 (List.replicate (2 ^ 32) []) = some [] ∧
      totalPause [] ≠ (List.replicate (2 ^ 32) ([] : List StreamReference)).length * 1 ∧
      condenseDeadlines durationMax [[], [.outRef 0]] = none := by
  obtain ⟨c', hc', hn⟩ := foldlM_condenseStep_replicate 1 (2 ^ 32) 0 []
  have h0 : c' = 0 := UInt32.toNat.inj (by rw [hn]; simp)
  refine ⟨?_, by simp only [totalPause, List.length_replicate]; decide, by decide⟩
  unfold condenseDeadlines
  rw [hc', h0]
  rfl

end RTLola.Common
