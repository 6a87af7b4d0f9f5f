/-
# The calls of a batch

Everything that a reset, a step and a drawing can do to a batch, with the checks
that come first.  `Batch.reset_cases` and `Batch.step_cases` list the ways in which
a call can go; for each of them there is the result, and what is left of the
instances and the scaler.
-/
import Rollout.Proofs.Stacking
import Rollout.Proofs.Sweep

namespace Rollout

open Numeric (Single)

variable {σ : Type} [Env σ]

/-! ## Stacking observations -/

theorem Batch.stackAll_eq_ok_iff {os : List Observation} {t : Tensor Single} :
    Batch.stackAll os = .ok t ↔ Tensor.stack os = .ok t := by
  rw [Batch.stackAll]
  rcases Tensor.stack os with f | u
  · simp
  · simp

theorem Batch.stackAll_eq_error_iff {os : List Observation} {f : Failure} :
    Batch.stackAll os = .error f ↔ ∃ fault, Tensor.stack os = .error fault ∧ f = .shape fault := by
  rw [Batch.stackAll]
  rcases Tensor.stack os with g | u
  · simp [eq_comm]
  · simp

/-! ## Drawing as a sweep -/

/-- Drawing one instance, as a call without an argument. -/
def drawOne (_ : σ) (e : σ) : Except Failure Unit × σ := ((Env.render e).1.result, (Env.render e).2)

/-- Drawing all instances is a sweep. -/
theorem drawAll_eq_sweep (es : List σ) :
    (drawAll es).2 = (sweep drawOne es es).2 ∧
      (drawAll es).1.result = (sweep drawOne es es).1.map fun _ => () := by
  -- the argument of a drawing is never looked at, so the induction runs over any arguments
  suffices h : ∀ as : List σ, as.length = es.length →
      (drawAll es).2 = (sweep drawOne as es).2 ∧
        (drawAll es).1.result = (sweep drawOne as es).1.map fun _ => () from h es rfl
  induction es with
  | nil =>
    intro as hl
    rw [List.length_nil, List.length_eq_zero_iff] at hl
    subst hl
    exact ⟨rfl, rfl⟩
  | cons e es ih =>
    intro as hl
    cases as with
    | nil => simp at hl
    | cons a as =>
      obtain ⟨hs, hf⟩ := ih as (by simpa using hl)
      rcases hr : Env.render e with ⟨⟨frames, f | u⟩, e'⟩
      · have hd : (drawOne a e).1 = .error f := by rw [drawOne, hr]
        simp only [sweep_cons_of_error hd, drawAll, hr, drawOne]
        exact ⟨trivial, rfl⟩
      · have hd : (drawOne a e).1 = .ok u := by rw [drawOne, hr]
        simp only [sweep_cons_of_ok hd, drawAll, hr, drawOne, hs, hf]
        refine ⟨trivial, ?_⟩
        rcases (sweep drawOne as es).1 with g | bs
        · rfl
        · rfl

namespace Batch

variable {b b' : Batch σ} {act : BatchAction}

omit [Env σ] in
/-- Batches with the same instances and the same scaler are equal. -/
theorem ext (hi : b.instances = b'.instances) (hs : b.scaler = b'.scaler) : b = b' := by
  cases b
  cases b'
  cases hi
  cases hs
  rfl

@[simp] theorem instances_render (b : Batch σ) :
    b.render.2.instances = (sweep drawOne b.instances b.instances).2 :=
  (drawAll_eq_sweep b.instances).1

/-! ## Resets -/

/-- Resetting one instance, as a call without an argument. -/
def resetOne (_ : σ) (e : σ) : Except Failure Observation × σ := Env.reset e

/-- A reset of all instances, one after another. -/
def resetSweep (b : Batch σ) : Except Failure (List Observation) × List σ :=
  sweep resetOne b.instances b.instances

theorem reset_eq (b : Batch σ) :
    b.reset.1 = b.resetSweep.1.bind stackAll ∧ b.reset.2.instances = b.resetSweep.2 ∧
      b.reset.2.scaler = b.scaler.map Scaler.reset :=
  ⟨rfl, rfl, rfl⟩

/-- A reset fails with an instance. -/
theorem reset_of_sweep_error {f : Failure} (hs : b.resetSweep.1 = .error f) :
    b.reset.1 = .error f := by
  rw [b.reset_eq.1, hs]
  rfl

/-- A reset whose frames differ in shape fails. -/
theorem reset_of_stack_error {os : List Observation} {fault : ShapeFault}
    (hs : b.resetSweep.1 = .ok os) (ht : Tensor.stack os = .error fault) :
    b.reset.1 = .error (.shape fault) := by
  rw [b.reset_eq.1, hs]
  exact stackAll_eq_error_iff.mpr ⟨fault, ht, rfl⟩

/-- A reset of all instances whose frames can be stacked succeeds. -/
theorem reset_of_stack_ok {os : List Observation} {t : Tensor Single}
    (hs : b.resetSweep.1 = .ok os) (ht : Tensor.stack os = .ok t) : b.reset.1 = .ok t := by
  rw [b.reset_eq.1, hs]
  exact stackAll_eq_ok_iff.mpr ht

/-- **Resets.**  A reset fails with an instance, or because the frames differ in shape, or it
succeeds. -/
theorem reset_cases (b : Batch σ) :
    (∃ f, b.resetSweep.1 = .error f) ∨
    (∃ os fault, b.resetSweep.1 = .ok os ∧ Tensor.stack os = .error fault) ∨
    ∃ os t, b.resetSweep.1 = .ok os ∧ Tensor.stack os = .ok t := by
  rcases b.resetSweep.1 with f | os
  · exact Or.inl ⟨f, rfl⟩
  · rcases ht : Tensor.stack os with fault | t
    · exact Or.inr (Or.inl ⟨os, fault, rfl, ht⟩)
    · exact Or.inr (Or.inr ⟨os, t, rfl, ht⟩)

/-- A reset that succeeds reset every instance and stacked the frames. -/
theorem reset_eq_ok {t : Tensor Single} (h : b.reset.1 = .ok t) :
    ∃ os, b.resetSweep.1 = .ok os ∧ Tensor.stack os = .ok t := by
  rcases b.reset_cases with ⟨f, hs⟩ | ⟨os, fault, hs, ht⟩ | ⟨os, u, hs, ht⟩
  · rw [reset_of_sweep_error hs] at h
    cases h
  · rw [reset_of_stack_error hs ht] at h
    cases h
  · rw [reset_of_stack_ok hs ht] at h
    cases h
    exact ⟨os, hs, ht⟩

/-! ## Steps -/

/-- A step of all instances, one after another. -/
def stepSweep (act : BatchAction) (b : Batch σ) : Except Failure (List Outcome) × List σ :=
  sweep stepOrRestart act.toList b.instances

/-- The actions fit the batch: there is one for each instance, and all belong to the space. -/
def Fits (act : BatchAction) (b : Batch σ) : Prop :=
  act.length = b.count ∧ checkAll b.actionSpace act.toList = .ok ()

omit [Env σ] in
/-- A check over a list is passed if all its actions belong to the space. -/
theorem checkAll_eq_ok_iff {space : Space} {as : List Action} :
    checkAll space as = .ok () ↔ ∀ a ∈ as, space.fault? a = none := by
  induction as with
  | nil => simp [checkAll]
  | cons a as ih =>
    rw [List.forall_mem_cons, ← ih, ← Space.check_eq_ok_iff, checkAll]
    rcases space.check a with f | u
    · simp
    · simp

/-- Indices fit a batch of a numbered space exactly if each instance has one that belongs to it. -/
theorem fits_discrete_iff {size : Nat} (hspace : b.actionSpace = .discrete size)
    {indices : List Int} : Fits (.discrete indices) b ↔
      indices.length = b.count ∧ ∀ i ∈ indices, 0 ≤ i ∧ i < size := by
  unfold Fits
  rw [checkAll_eq_ok_iff, hspace]
  have hfault : ∀ i : Int, (Space.discrete size).fault? (.discrete i) = none ↔
      0 ≤ i ∧ i < size := by
    intro i
    unfold Space.fault?
    by_cases hi : 0 ≤ i ∧ i < size
    · simp [hi]
    · simp [hi]
  simp only [BatchAction.length, BatchAction.toList, List.forall_mem_map, hfault]

/-- Every instance has its action if the actions fit. -/
theorem Fits.exists_action (h : Fits act b) {i : Nat} {e : σ} (he : b.instances[i]? = some e) :
    ∃ a, act.toList[i]? = some a := by
  have hlt : i < b.count := (List.getElem?_eq_some_iff.mp he).1
  rw [← h.1, ← act.length_toList] at hlt
  exact ⟨_, List.getElem?_eq_getElem hlt⟩

/-- A batch of actions that does not fit is refused before any instance moves. -/
theorem step_of_not_fits (h : ¬ Fits act b) : ∃ f, b.step act = (.error f, b) := by
  rw [step]
  split
  · exact ⟨_, rfl⟩
  · rename_i hl
    split
    · rename_i f _
      exact ⟨f, rfl⟩
    · rename_i hc
      exact absurd ⟨Decidable.not_not.mp hl, hc⟩ h

/-- The result of a step that moved all instances. -/
def stepResult (b : Batch σ) (outcomes : List Outcome) (t : Tensor Single) : BatchStep where
  observations := t
  rewards := (scaleRewards b.scaler (outcomes.map Outcome.reward) (outcomes.map Outcome.done)).1
  done := outcomes.map Outcome.done
  raw := outcomes.map Outcome.reward

/-- The scaler after a step that moved all instances. -/
def stepScaler (b : Batch σ) (outcomes : List Outcome) : Option Scaler :=
  (scaleRewards b.scaler (outcomes.map Outcome.reward) (outcomes.map Outcome.done)).2

/-- A step whose actions fit, without its checks. -/
theorem step_of_fits (h : Fits act b) : b.step act =
    match (b.stepSweep act).1 with
    | .error f => (.error f, b.withInstances (b.stepSweep act).2 (length_sweep ..))
    | .ok outcomes =>
      ((stackAll (outcomes.map Outcome.observation)).map (b.stepResult outcomes),
        { b.withInstances (b.stepSweep act).2 (length_sweep ..) with
          scaler := b.stepScaler outcomes }) := by
  rw [step, if_neg (not_not_intro h.1), h.2]
  rfl

/-- A step whose actions fit leaves the states of its sweep, however it ends. -/
theorem instances_step_of_fits (h : Fits act b) :
    (b.step act).2.instances = (b.stepSweep act).2 := by
  rw [step_of_fits h]
  rcases (b.stepSweep act).1 with f | outcomes
  · rfl
  · rfl

/-- A step that fails with an instance leaves the scaler as it was. -/
theorem step_of_sweep_error (h : Fits act b) {f : Failure}
    (hs : (b.stepSweep act).1 = .error f) :
    (b.step act).1 = .error f ∧ (b.step act).2.scaler = b.scaler := by
  rw [step_of_fits h, hs]
  exact ⟨rfl, rfl⟩

/-- A step whose frames differ in shape fails after the scaler took the rewards in. -/
theorem step_of_stack_error (h : Fits act b) {outcomes : List Outcome} {fault : ShapeFault}
    (hs : (b.stepSweep act).1 = .ok outcomes)
    (ht : Tensor.stack (outcomes.map Outcome.observation) = .error fault) :
    (b.step act).1 = .error (.shape fault) ∧
      (b.step act).2.scaler = b.stepScaler outcomes := by
  rw [step_of_fits h, hs]
  refine ⟨?_, rfl⟩
  show (stackAll (outcomes.map Outcome.observation)).map (b.stepResult outcomes) = _
  rw [stackAll_eq_error_iff.mpr ⟨fault, ht, rfl⟩]
  rfl

/-- A step that moves all instances and stacks their frames succeeds. -/
theorem step_of_stack_ok (h : Fits act b) {outcomes : List Outcome} {t : Tensor Single}
    (hs : (b.stepSweep act).1 = .ok outcomes)
    (ht : Tensor.stack (outcomes.map Outcome.observation) = .ok t) :
    (b.step act).1 = .ok (b.stepResult outcomes t) ∧
      (b.step act).2.scaler = b.stepScaler outcomes := by
  rw [step_of_fits h, hs]
  refine ⟨?_, rfl⟩
  show (stackAll (outcomes.map Outcome.observation)).map (b.stepResult outcomes) = _
  rw [stackAll_eq_ok_iff.mpr ht]
  rfl

/-- **Steps.**  A step whose actions fit fails with an instance, or because the frames differ in
shape once all instances have moved, or it succeeds. -/
theorem step_cases (act : BatchAction) (b : Batch σ) :
    (∃ f, (b.stepSweep act).1 = .error f) ∨
    (∃ outcomes fault, (b.stepSweep act).1 = .ok outcomes ∧
      Tensor.stack (outcomes.map Outcome.observation) = .error fault) ∨
    ∃ outcomes t, (b.stepSweep act).1 = .ok outcomes ∧
      Tensor.stack (outcomes.map Outcome.observation) = .ok t := by
  rcases (b.stepSweep act).1 with f | outcomes
  · exact Or.inl ⟨f, rfl⟩
  · rcases ht : Tensor.stack (outcomes.map Outcome.observation) with fault | t
    · exact Or.inr (Or.inl ⟨outcomes, fault, rfl, ht⟩)
    · exact Or.inr (Or.inr ⟨outcomes, t, rfl, ht⟩)

/-- A step that succeeds moved every instance and stacked the frames. -/
theorem step_eq_ok {r : BatchStep} (h : (b.step act).1 = .ok r) :
    Fits act b ∧ ∃ outcomes t, (b.stepSweep act).1 = .ok outcomes ∧
      Tensor.stack (outcomes.map Outcome.observation) = .ok t ∧ r = b.stepResult outcomes t := by
  by_cases hfit : Fits act b
  · rcases step_cases act b with ⟨f, hs⟩ | ⟨outcomes, fault, hs, ht⟩ | ⟨outcomes, t, hs, ht⟩
    · rw [(step_of_sweep_error hfit hs).1] at h
      cases h
    · rw [(step_of_stack_error hfit hs ht).1] at h
      cases h
    · rw [(step_of_stack_ok hfit hs ht).1] at h
      cases h
      exact ⟨hfit, outcomes, t, hs, ht, rfl⟩
  · obtain ⟨f, hf⟩ := step_of_not_fits hfit
    rw [hf] at h
    cases h

/-- A step keeps the number of instances. -/
theorem length_instances_step (act : BatchAction) (b : Batch σ) :
    (b.step act).2.instances.length = b.instances.length := by
  by_cases hfit : Fits act b
  · rw [instances_step_of_fits hfit]
    exact length_sweep ..
  · obtain ⟨f, hf⟩ := step_of_not_fits hfit
    rw [hf]

/-! ## Construction -/

omit [Env σ] in
/-- The instances of a name are built with consecutive seeds, modulo the word size. -/
theorem getElem?_of_buildInstances_eq_ok {registry : Registry σ} {name : String} {seed : UInt64}
    {count : Nat} {es : List σ} (h : buildInstances registry name seed count = .ok es) :
    es.length = count ∧ ∀ i, i < count →
      ∃ e, es[i]? = some e ∧ registry.build name (seed + UInt64.ofNat i) = .ok e := by
  induction count generalizing seed es with
  | zero =>
    cases h
    exact ⟨rfl, fun i hi => absurd hi (by omega)⟩
  | succ count ih =>
    rw [buildInstances] at h
    rcases hb : registry.build name seed with f | e
    · rw [hb] at h
      cases h
    · rcases hr : buildInstances registry name (seed + 1) count with f | rest
      · rw [hb, hr] at h
        cases h
      · rw [hb, hr] at h
        cases h
        obtain ⟨hl, hi⟩ := ih hr
        refine ⟨by rw [List.length_cons, hl], fun i hlt => ?_⟩
        cases i with
        | zero => exact ⟨e, rfl, by simpa using hb⟩
        | succ i =>
          obtain ⟨e', he', hb'⟩ := hi i (by omega)
          refine ⟨e', he', ?_⟩
          rw [← hb', UInt64.ofNat_add, UInt64.add_assoc, UInt64.add_comm (UInt64.ofNat i)]
          rfl

/-- What a batch that was built holds. -/
theorem of_build_eq_ok {registry : Registry σ} {name : String} {seed : UInt64} {count : Nat}
    (h : build registry name seed count = .ok b) :
    buildInstances registry name seed count = .ok b.instances ∧ b.scaler = none := by
  rw [build] at h
  rcases hb : buildInstances registry name seed count with f | es
  · rw [hb] at h
    cases h
  · rw [hb] at h
    cases es with
    | nil => cases h
    | cons e es =>
      simp only [ofInstances] at h
      split at h
      · cases h
      · cases h
        exact ⟨rfl, rfl⟩

/-- Every instance of a batch that was built comes from the builder of the name. -/
theorem exists_build_of_mem_instances {registry : Registry σ} {name : String} {seed : UInt64}
    {count : Nat} (h : build registry name seed count = .ok b) {e : σ} (he : e ∈ b.instances) :
    ∃ seed', registry.build name seed' = .ok e := by
  obtain ⟨hl, hi⟩ := getElem?_of_buildInstances_eq_ok (of_build_eq_ok h).1
  obtain ⟨i, hlt, rfl⟩ := List.mem_iff_getElem.mp he
  obtain ⟨e, he', hb⟩ := hi i (by omega)
  rw [List.getElem?_eq_getElem hlt, Option.some.injEq] at he'
  exact ⟨_, he' ▸ hb⟩

end Batch

end Rollout
