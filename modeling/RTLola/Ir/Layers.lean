import Mathlib.Data.List.Perm.Basic
import Mathlib.Data.List.Count
import RTLola.Ir.Basic

/-!
# Event-driven evaluation layers

Model of `LolaIR::get_event_driven_layers` (`frontend/src/ir.rs:426-462`). The Rust

* returns `vec![]` for an IR with no event-driven stream;
* zips every event-driven reference with `get_out(r).eval_layer()`, which panics on an `InRef`
  or an index past `outputs` (the whole function is then `none`);
* takes the greatest layer `max_layer` (`max_by_key(..).unwrap().0`: the unwrap cannot fail on
  a nonempty list, and `List.max?` returns the same key);
* for `i` in `0..=max_layer` collects the references of layer `i`, in their order in
  `event_driven`, and pushes the collection unless it is empty.

The loop is the `foldl` with `layers ++ [in_layer_i]`; `foldl_layers` turns it into a
`filterMap` over the candidate layers.

Results:
* `getEventDrivenLayers_spec`: for an IR whose event-driven references are `OutRef`s into
  `outputs`, the groups are nonempty, each has one layer, the layers strictly increase, and the
  concatenation is the event-driven references stably sorted by layer: a permutation of them in
  which references of one layer keep their order.
* `perm_of_filter_eq`: lists whose filters agree on every key are permutations of each other;
  it is how the permutation follows from the stable order.
* `getEventDrivenLayers_eq_none_iff`: the function panics exactly when an event-driven reference
  is not the `OutRef` of an output.
-/

namespace RTLola.Ir

/-! ## Buckets of a list by a key -/

section Buckets

variable {α : Type} (key : α → Nat)

/-- Lists with the same elements of every key, in the same order, are permutations. -/
theorem perm_of_filter_eq [DecidableEq α] {l₁ l₂ : List α}
    (h : ∀ k, l₁.filter (fun a => key a = k) = l₂.filter (fun a => key a = k)) : l₁.Perm l₂ := by
  refine List.perm_iff_count.mpr fun a => ?_
  have h₁ := @List.count_filter α _ _ (fun b => decide (key b = key a)) a l₁ (by simp)
  have h₂ := @List.count_filter α _ _ (fun b => decide (key b = key a)) a l₂ (by simp)
  rw [← h₁, ← h₂, h]

theorem filter_key_filter_key (l : List α) (i k : Nat) :
    (l.filter fun a => key a = i).filter (fun a => key a = k) =
      if i = k then l.filter (fun a => key a = k) else [] := by
  rw [List.filter_filter]
  split_ifs with h
  · subst h; simp
  · exact List.filter_eq_nil_iff.mpr fun a _ => by simp only [Bool.and_eq_true, decide_eq_true_eq]; omega

theorem flatMap_ite_eq (F : List α) (k : Nat) :
    ∀ {is : List Nat}, is.Nodup → is.flatMap (fun i => if i = k then F else []) = if k ∈ is then F else []
  | [], _ => by simp
  | i :: is, hnd => by
    obtain ⟨hi, hnd⟩ := List.nodup_cons.mp hnd
    rw [List.flatMap_cons, flatMap_ite_eq F k hnd]
    by_cases hik : i = k
    · subst hik; simp [hi]
    · simp [hik, Ne.symm hik]

/-- Buckets of distinct keys, concatenated, keep the elements of each key in order. -/
theorem filter_flatMap_buckets (l : List α) {is : List Nat} (hnd : is.Nodup) (k : Nat) :
    (is.flatMap fun i => l.filter fun a => key a = i).filter (fun a => key a = k) =
      if k ∈ is then l.filter (fun a => key a = k) else [] := by
  rw [List.filter_flatMap]
  simp only [filter_key_filter_key]
  exact flatMap_ite_eq _ k hnd

end Buckets

/-! ## The layer planner -/

/-- The evaluation layer of a reference, as `get_out(r).eval_layer() as usize` reads it. -/
def LolaIR.layerOf (ir : LolaIR) (r : StreamReference) : Nat :=
  ((ir.getOut r).map fun o => o.evalLayer.toNat).getD 0

/-- The references of layer `i` (`in_layer_i`, step c). -/
def inLayer (streamsWithLayers : List (Nat × StreamReference)) (i : Nat) : List StreamReference :=
  streamsWithLayers.filterMap fun p => if p.1 = i then some p.2 else none

/-- One round of the loop over candidate layers: push `in_layer_i` unless it is empty. -/
def pushLayer (streamsWithLayers : List (Nat × StreamReference))
    (layers : List (List StreamReference)) (i : Nat) : List (List StreamReference) :=
  if (inLayer streamsWithLayers i).isEmpty then layers else layers ++ [inLayer streamsWithLayers i]

/-- `LolaIR::get_event_driven_layers`; `none` where the Rust panics. -/
def LolaIR.getEventDrivenLayers (ir : LolaIR) : Option (List (List StreamReference)) :=
  if ir.eventDriven.isEmpty then some [] else do
    let streamsWithLayers ← ir.eventDriven.mapM fun s => do
      let o ← ir.getOut s.reference
      pure (o.evalLayer.toNat, s.reference)
    let maxLayer ← (streamsWithLayers.map Prod.fst).max?
    pure <| (List.range (maxLayer + 1)).foldl (pushLayer streamsWithLayers) []

/-- The premise of `get_event_driven_layers`: every event-driven reference is an `OutRef` into
`outputs`, so `get_out` does not panic on it. -/
def LolaIR.EventDrivenWellFormed (ir : LolaIR) : Prop :=
  ∀ s ∈ ir.eventDriven, (ir.getOut s.reference).isSome

instance (ir : LolaIR) : Decidable ir.EventDrivenWellFormed :=
  inferInstanceAs (Decidable (∀ s ∈ ir.eventDriven, (ir.getOut s.reference).isSome))

/-- What `get_event_driven_layers` promises about its groups `gs` of the references `refs`. -/
structure Layering (layer : StreamReference → Nat) (refs : List StreamReference)
    (gs : List (List StreamReference)) : Prop where
  /-- Empty layers are omitted. -/
  nonempty : ∀ g ∈ gs, g ≠ []
  /-- One layer per group. -/
  uniform : ∀ g ∈ gs, ∀ r ∈ g, ∀ r' ∈ g, layer r = layer r'
  /-- The layers of the groups strictly increase. -/
  increasing : gs.Pairwise fun g h => ∀ r ∈ g, ∀ r' ∈ h, layer r < layer r'
  /-- No reference is lost or duplicated. -/
  perm : gs.flatten.Perm refs
  /-- The references of one layer keep their relative order. -/
  stable : ∀ k, gs.flatten.filter (fun r => layer r = k) = refs.filter (fun r => layer r = k)

section Planner

variable (ir : LolaIR)

theorem mapM_layers (es : List EventDrivenStream)
    (hwf : ∀ s ∈ es, (ir.getOut s.reference).isSome) :
    (es.mapM fun s => do
        let o ← ir.getOut s.reference
        pure (o.evalLayer.toNat, s.reference)) =
      some ((es.map (·.reference)).map fun r => (ir.layerOf r, r)) := by
  induction es with
  | nil => rfl
  | cons s ss ih =>
    obtain ⟨o, ho⟩ := Option.isSome_iff_exists.mp (hwf s (List.mem_cons_self _ _))
    simp only [List.mapM_cons, ho, ih fun t ht => hwf t (List.mem_cons_of_mem _ ht),
      LolaIR.layerOf, Option.map_some', Option.getD_some, List.map_cons]
    rfl

theorem inLayer_map (refs : List StreamReference) (i : Nat) :
    inLayer (refs.map fun r => (ir.layerOf r, r)) i = refs.filter fun r => ir.layerOf r = i := by
  induction refs with
  | nil => rfl
  | cons r rs ih =>
    simp only [List.map_cons, inLayer, List.filterMap_cons, List.filter_cons] at *
    split_ifs <;> simp_all

theorem foldl_layers (swl : List (Nat × StreamReference)) (is : List Nat)
    (acc : List (List StreamReference)) :
    is.foldl (pushLayer swl) acc =
      acc ++ is.filterMap fun i => if (inLayer swl i).isEmpty then none else some (inLayer swl i) := by
  induction is generalizing acc with
  | nil => simp
  | cons i is ih =>
    rw [List.foldl_cons, ih]
    by_cases h : inLayer swl i = [] <;> simp [pushLayer, List.filterMap_cons, h]

theorem flatten_filterMap_nonempty (F : Nat → List StreamReference) (is : List Nat) :
    (is.filterMap fun i => if (F i).isEmpty then none else some (F i)).flatten = is.flatMap F := by
  induction is with
  | nil => rfl
  | cons i is ih =>
    rw [List.filterMap_cons, List.flatMap_cons, ← ih]
    by_cases h : F i = [] <;> simp [h]

theorem mem_bucket {F g : List StreamReference} :
    g ∈ (if F.isEmpty then none else some F) ↔ F ≠ [] ∧ F = g := by
  by_cases h : F = [] <;> simp [h]

/-- The buckets `0, …, n - 1` of `refs`, empty ones dropped, are a layering when every layer is
below `n`. -/
theorem layering_buckets (layer : StreamReference → Nat) (refs : List StreamReference) (n : Nat)
    (hlt : ∀ r ∈ refs, layer r < n) :
    Layering layer refs ((List.range n).filterMap fun i =>
      if (refs.filter fun r => layer r = i).isEmpty then none
      else some (refs.filter fun r => layer r = i)) := by
  have stable : ∀ k, ((List.range n).flatMap fun i => refs.filter fun r => layer r = i).filter
      (fun r => layer r = k) = refs.filter (fun r => layer r = k) := by
    intro k
    rw [filter_flatMap_buckets layer refs (List.nodup_range n)]
    split_ifs with hk
    · rfl
    · refine (List.filter_eq_nil_iff.mpr fun r hr => ?_).symm
      have := hlt r hr
      rw [List.mem_range] at hk
      simp only [decide_eq_true_eq]
      omega
  refine ⟨?nonempty, ?uniform, ?increasing, ?perm, ?stable⟩
  case nonempty =>
    intro g hg
    obtain ⟨i, -, hi⟩ := List.mem_filterMap.mp hg
    obtain ⟨hne, rfl⟩ := mem_bucket.mp (Option.mem_def.mpr hi)
    exact hne
  case uniform =>
    intro g hg r hr r' hr'
    obtain ⟨i, -, hi⟩ := List.mem_filterMap.mp hg
    obtain ⟨-, rfl⟩ := mem_bucket.mp (Option.mem_def.mpr hi)
    simp only [List.mem_filter, decide_eq_true_eq] at hr hr'
    rw [hr.2, hr'.2]
  case increasing =>
    refine List.pairwise_filterMap.mpr ((List.pairwise_lt_range n).imp fun {i j} hij => ?_)
    intro g hg h hh r hr r' hr'
    obtain ⟨-, rfl⟩ := mem_bucket.mp hg
    obtain ⟨-, rfl⟩ := mem_bucket.mp hh
    simp only [List.mem_filter, decide_eq_true_eq] at hr hr'
    omega
  case perm =>
    rw [flatten_filterMap_nonempty]
    exact perm_of_filter_eq layer stable
  case stable =>
    rw [flatten_filterMap_nonempty]
    exact stable

end Planner

/-- **`get_event_driven_layers` is a stable sort into nonempty, strictly increasing layers.** -/
theorem getEventDrivenLayers_spec (ir : LolaIR) (hwf : ir.EventDrivenWellFormed) :
    ∃ gs, ir.getEventDrivenLayers = some gs ∧
      Layering ir.layerOf (ir.eventDriven.map (·.reference)) gs := by
  unfold LolaIR.getEventDrivenLayers
  by_cases he : ir.eventDriven = []
  · refine ⟨[], by simp [he], ?_⟩
    simp only [he, List.map_nil]
    exact ⟨by simp, by simp, by simp, by simp, by simp⟩
  · set refs := ir.eventDriven.map (·.reference)
    obtain ⟨M, hM⟩ : ∃ M, (refs.map ir.layerOf).max? = some M :=
      Option.ne_none_iff_exists'.mp (by simpa [List.max?_eq_none_iff, refs] using he)
    have hle := (List.max?_eq_some_iff'.mp hM).2
    refine ⟨_, ?_, layering_buckets ir.layerOf refs (M + 1) fun r hr => Nat.lt_succ_of_le
      (hle _ (List.mem_map_of_mem _ hr))⟩
    have hfst : (refs.map fun r => (ir.layerOf r, r)).map Prod.fst = refs.map ir.layerOf := by
      simp [List.map_map, Function.comp_def]
    rw [if_neg (by simpa using he), mapM_layers ir _ hwf]
    simp only [Option.bind_eq_bind, Option.some_bind, hfst, hM, foldl_layers, inLayer_map,
      List.nil_append]
    rfl

/-- Three outputs on layers `2, 0, 2`: layer `1` is empty, and the input is not sorted. -/
def gappedIr : LolaIR :=
  ⟨[⟨2⟩, ⟨0⟩, ⟨2⟩], [], [⟨.outRef 0⟩, ⟨.outRef 1⟩, ⟨.outRef 2⟩]⟩

theorem getEventDrivenLayers_spec_gapped :
    gappedIr.EventDrivenWellFormed ∧ ∃ gs, gappedIr.getEventDrivenLayers = some gs ∧
      Layering gappedIr.layerOf (gappedIr.eventDriven.map (·.reference)) gs :=
  ⟨by decide, getEventDrivenLayers_spec gappedIr (by decide)⟩

example : gappedIr.getEventDrivenLayers = some [[.outRef 1], [.outRef 0, .outRef 2]] := by decide

/-! ## When the planner panics -/

theorem mapM_eq_none_iff {α β : Type} (f : α → Option β) :
    ∀ l : List α, l.mapM f = none ↔ ∃ x ∈ l, f x = none
  | [] => by rw [List.mapM_nil]; simp
  | x :: xs => by
    have ih := mapM_eq_none_iff f xs
    rw [List.mapM_cons]
    cases hx : f x with
    | none => exact ⟨fun _ => ⟨x, List.mem_cons_self x xs, hx⟩, fun _ => rfl⟩
    | some y => cases hxs : xs.mapM f <;> simp_all

/-- **`get_event_driven_layers` panics exactly when an event-driven reference is not the `OutRef`
of an output.** -/
theorem getEventDrivenLayers_eq_none_iff (ir : LolaIR) :
    ir.getEventDrivenLayers = none ↔ ∃ s ∈ ir.eventDriven, ir.getOut s.reference = none := by
  unfold LolaIR.getEventDrivenLayers
  split_ifs with he
  · simp [List.isEmpty_iff.mp he]
  constructor
  · intro hnone
    by_contra hall
    push_neg at hall
    have hwf : ∀ s ∈ ir.eventDriven, (ir.getOut s.reference).isSome :=
      fun s hs => Option.ne_none_iff_isSome.mp (hall s hs)
    obtain ⟨M, hM⟩ : ∃ M, ((ir.eventDriven.map (·.reference)).map ir.layerOf).max? = some M :=
      Option.ne_none_iff_exists'.mp (by simpa [List.max?_eq_none_iff] using he)
    rw [mapM_layers ir _ hwf] at hnone
    simp [List.map_map, Function.comp_def] at hM
    simp [List.map_map, Function.comp_def, hM] at hnone
  · rintro ⟨s, hs, hout⟩
    rw [(mapM_eq_none_iff _ _).mpr ⟨s, hs, by simp [hout]⟩]
    rfl

end RTLola.Ir
