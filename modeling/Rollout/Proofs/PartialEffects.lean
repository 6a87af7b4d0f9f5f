/-
# What a failed call leaves behind

A reset or a step of a session can fail with an instance, because the frames
differ in shape, or while the instances are drawn.  Such a call is not undone: the
instances called so far keep the states that their calls gave them, a reset has
cleared the returns, and a step that moved all instances has moved the scaler.
The main statement, `failed_call_unchanged_iff`, lists the ways in which a reset
and a step fail, and says for each of them exactly when the session is as before.
-/
import Mathlib.Control.Monad.Basic
import Rollout.Proofs.SessionCalls
import Rollout.World.Tabular

namespace Rollout

variable {σ : Type} [Env σ]

/-! ## The scaler -/

/-- All returns of the scaler, if there is one, are zero. -/
def ReturnsClear (b : Batch σ) : Prop := ∀ sc, b.scaler = some sc → ∀ ret ∈ sc.returns, ret = 0.0

omit [Env σ] in
/-- A reset leaves the scaler as it is exactly if all returns are clear. -/
theorem map_reset_eq_self_iff {b : Batch σ} :
    b.scaler.map Scaler.reset = b.scaler ↔ ReturnsClear b := by
  rcases hb : b.scaler with _ | sc
  · simp [ReturnsClear, hb]
  · have hclear : sc.reset = sc ↔ ∀ ret ∈ sc.returns, ret = 0.0 := by
      obtain ⟨discount, margin, bound, returns, moments⟩ := sc
      have hmap := List.map_inj_left (l := returns) (f := fun _ => 0.0) (g := id)
      rw [List.map_id] at hmap
      simp only [Scaler.reset, Scaler.mk.injEq, true_and, and_true]
      rw [hmap]
      exact ⟨fun h ret hr => (h ret hr).symm, fun h ret hr => (h ret hr).symm⟩
    simp [ReturnsClear, hb, hclear]

/-- Taking in the rewards of a step leaves the scaler, if there is one, as it was. -/
def ScalerKept (b : Batch σ) (outcomes : List Outcome) : Prop :=
  ∀ sc, b.scaler = some sc →
    (sc.apply (outcomes.map Outcome.reward) (outcomes.map Outcome.done)).2 = sc

omit [Env σ] in
/-- A step leaves the scaler as it is exactly if the scaler keeps all that it holds. -/
theorem stepScaler_eq_self_iff {b : Batch σ} {outcomes : List Outcome} :
    b.stepScaler outcomes = b.scaler ↔ ScalerKept b outcomes := by
  rcases hb : b.scaler with _ | sc
  · simp [Batch.stepScaler, Batch.scaleRewards, ScalerKept, hb]
  · simp [Batch.stepScaler, Batch.scaleRewards, ScalerKept, hb]

/-! ## Ways to fail -/

/-- How a reset of a batch fails. -/
inductive ResetFault (b : Batch σ) where
  /-- Instance `i` fails, after the ones before it were reset. -/
  | atInstance (i : Nat) (f : Failure) (h : FailsAt Batch.resetOne b.instances b.instances i f)
  /-- All instances were reset, and their frames differ in shape. -/
  | frames (os : List Observation) (fault : ShapeFault) (hs : b.resetSweep.1 = .ok os)
      (ht : Tensor.stack os = .error fault)

namespace ResetFault

variable {b : Batch σ}

/-- The failure that is reported. -/
def failure : ResetFault b → Failure
  | .atInstance _ f _ => f
  | .frames _ fault _ _ => .shape fault

/-- The batch is as before: the returns were clear, and every reset that was made left its
instance as it was. -/
def Unmoved : ResetFault b → Prop
  | .atInstance i _ _ =>
    ReturnsClear b ∧ KeepsBelow Batch.resetOne b.instances b.instances (i + 1)
  | .frames .. => ReturnsClear b ∧ KeepsBelow Batch.resetOne b.instances b.instances b.count

end ResetFault

/-- A step of an instance, with its reset if the episode ended, and a drawing after it. -/
def stepAndDraw (a : Action) (e : σ) : Except Failure Unit × σ :=
  drawOne (stepOrRestart a e).2 (stepOrRestart a e).2

/-- How a step of a batch fails whose actions fit, or the drawing after it. -/
inductive StepFault (act : BatchAction) (render : Bool) (b : Batch σ) where
  /-- Instance `i` fails in its step or in the reset after it. -/
  | atInstance (i : Nat) (f : Failure) (h : FailsAt stepOrRestart act.toList b.instances i f)
  /-- All instances moved, and their frames differ in shape. -/
  | frames (outcomes : List Outcome) (fault : ShapeFault)
      (hs : (b.stepSweep act).1 = .ok outcomes)
      (ht : Tensor.stack (outcomes.map Outcome.observation) = .error fault)
  /-- All instances moved, and instance `i` cannot be drawn. -/
  | drawing (outcomes : List Outcome) (t : Tensor Numeric.Single) (i : Nat) (f : Failure)
      (hr : render = true) (hs : (b.stepSweep act).1 = .ok outcomes)
      (ht : Tensor.stack (outcomes.map Outcome.observation) = .ok t)
      (h : FailsAt drawOne (b.stepSweep act).2 (b.stepSweep act).2 i f)

namespace StepFault

variable {act : BatchAction} {render : Bool} {b : Batch σ}

/-- The failure that is reported. -/
def failure : StepFault act render b → Failure
  | .atInstance _ f _ => f
  | .frames _ fault _ _ => .shape fault
  | .drawing _ _ _ f _ _ _ _ => f

/-- The batch is as before: every step, reset and drawing that was made left its instance as it
was, and so did the rewards the scaler, once all instances had moved. -/
def Unmoved : StepFault act render b → Prop
  | .atInstance i _ _ => KeepsBelow stepOrRestart act.toList b.instances (i + 1)
  | .frames outcomes _ _ _ =>
    ScalerKept b outcomes ∧ KeepsBelow stepOrRestart act.toList b.instances b.count
  | .drawing outcomes _ i _ _ _ _ _ =>
    ScalerKept b outcomes ∧ KeepsBelow stepAndDraw act.toList b.instances (i + 1) ∧
      ∀ j a e, i < j → act.toList[j]? = some a → b.instances[j]? = some e →
        (stepOrRestart a e).2 = e

end StepFault

/-! ## Failed resets -/

section Reset

variable {s : Session σ} {a : Active σ}

/-- A reset fails exactly in these ways. -/
theorem reset_eq_error_iff (ha : s.active = some a) {r : Rejection} :
    s.reset.result = .error r ↔ ∃ w : ResetFault a.batch, r = .env w.failure := by
  rw [(Session.reset_eq ha).1]
  constructor
  · intro h
    rcases a.batch.reset_cases with ⟨f, hs⟩ | ⟨os, fault, hs, ht⟩ | ⟨os, t, hs, ht⟩
    · rw [Batch.reset_of_sweep_error hs] at h
      cases h
      obtain ⟨i, hi⟩ := sweep_eq_error_iff.mp hs
      exact ⟨.atInstance i f hi, rfl⟩
    · rw [Batch.reset_of_stack_error hs ht] at h
      cases h
      exact ⟨.frames os fault hs ht, rfl⟩
    · rw [Batch.reset_of_stack_ok hs ht] at h
      cases h
  · rintro ⟨w, rfl⟩
    cases w with
    | atInstance i f h =>
      rw [Batch.reset_of_sweep_error (sweep_eq_error_iff.mpr ⟨i, h⟩)]
      rfl
    | frames os fault hs ht =>
      rw [Batch.reset_of_stack_error hs ht]
      rfl

/-- A reset that fails leaves the session alone exactly if its fault moved nothing. -/
theorem reset_after_eq_self_iff (ha : s.active = some a) (w : ResetFault a.batch) :
    s.reset.after = s ↔ w.Unmoved := by
  rw [(Session.reset_eq ha).2, Session.withBatch_eq_self_iff ha, a.batch.reset_eq.2.1,
    a.batch.reset_eq.2.2, map_reset_eq_self_iff, and_comm]
  cases w with
  | atInstance i f h => exact and_congr_right fun _ => sweep_snd_eq_self_iff_of_failsAt h
  | frames os fault hs ht => exact and_congr_right fun _ => sweep_snd_eq_self_iff_of_ok hs

end Reset

/-! ## Failed steps -/

section Step

variable {s : Session σ} {a : Active σ} {actions : Tensor Numeric.Double} {render : Bool}
  {act : BatchAction}

/-- A step that fails has met one of the faults. -/
theorem exists_fault_of_step_eq_error (ha : s.active = some a)
    (hact : Session.batchAction a.batch.actionSpace actions = .ok act)
    (hfit : Batch.Fits act a.batch) {r : Rejection}
    (h : (s.step actions render).result = .error r) :
    ∃ w : StepFault act render a.batch, r = .env w.failure := by
  rcases Batch.step_cases act a.batch with
    ⟨f, hs⟩ | ⟨outcomes, fault, hs, ht⟩ | ⟨outcomes, t, hs, ht⟩
  · rw [(Session.step_of_error ha hact (Batch.step_of_sweep_error hfit hs).1).1] at h
    cases h
    obtain ⟨i, hi⟩ := sweep_eq_error_iff.mp hs
    exact ⟨.atInstance i f hi, rfl⟩
  · rw [(Session.step_of_error ha hact (Batch.step_of_stack_error hfit hs ht).1).1] at h
    cases h
    exact ⟨.frames outcomes fault hs ht, rfl⟩
  · have hr := (Batch.step_of_stack_ok hfit hs ht).1
    -- the batch has moved, so only the drawing can have failed
    cases render with
    | false =>
      rw [(Session.step_of_ok ha hact hr).1] at h
      cases h
    | true =>
      rw [(Session.step_of_ok_of_render ha hact hr).1, Batch.instances_step_of_fits hfit] at h
      rcases hd : (sweep drawOne (a.batch.stepSweep act).2 (a.batch.stepSweep act).2).1
        with f | us
      · rw [hd] at h
        cases h
        obtain ⟨i, hi⟩ := sweep_eq_error_iff.mp hd
        exact ⟨.drawing outcomes t i f rfl hs ht hi, rfl⟩
      · rw [hd] at h
        cases h

/-- A step that meets a fault fails with it. -/
theorem step_eq_error_of_fault (ha : s.active = some a)
    (hact : Session.batchAction a.batch.actionSpace actions = .ok act)
    (hfit : Batch.Fits act a.batch) (w : StepFault act render a.batch) :
    (s.step actions render).result = .error (.env w.failure) := by
  cases w with
  | atInstance i f h =>
    exact (Session.step_of_error ha hact
      (Batch.step_of_sweep_error hfit (sweep_eq_error_iff.mpr ⟨i, h⟩)).1).1
  | frames outcomes fault hs ht =>
    exact (Session.step_of_error ha hact (Batch.step_of_stack_error hfit hs ht).1).1
  | drawing outcomes t i f hrender hs ht h =>
    show (s.step actions render).result = .error (.env f)
    rw [hrender, (Session.step_of_ok_of_render ha hact (Batch.step_of_stack_ok hfit hs ht).1).1,
      Batch.instances_step_of_fits hfit, sweep_eq_error_iff.mpr ⟨i, h⟩]
    rfl

/-- The state of an instance once all have moved and were then drawn up to position `i`. -/
theorem getElem?_drawn {b : Batch σ} {outcomes : List Outcome}
    (hs : (b.stepSweep act).1 = .ok outcomes) {i : Nat} {f : Failure}
    (h : FailsAt drawOne (b.stepSweep act).2 (b.stepSweep act).2 i f) {j : Nat} {x : Action}
    {e : σ} (hx : act.toList[j]? = some x) (he : b.instances[j]? = some e) :
    (sweep drawOne (b.stepSweep act).2 (b.stepSweep act).2).2[j]?
      = some (if j ≤ i then (stepAndDraw x e).2 else (stepOrRestart x e).2) := by
  have hmoved : (b.stepSweep act).2[j]? = some (stepOrRestart x e).2 :=
    getElem?_sweep_of_reached hx he (reached_of_sweep_eq_ok hs)
  split
  · rename_i hle
    show _ = some (drawOne (stepOrRestart x e).2 (stepOrRestart x e).2).2
    exact getElem?_sweep_of_reached hmoved hmoved ((reached_iff_of_failsAt h).mpr hle)
  · rename_i hlt
    have hnot : ¬ Reached drawOne (b.stepSweep act).2 (b.stepSweep act).2 j :=
      fun hr => hlt ((reached_iff_of_failsAt h).mp hr)
    rw [getElem?_sweep_of_not_reached hnot, hmoved]

/-- Instances that moved and were then drawn up to position `i` are as before exactly if up to
there the step with the drawing, and past it the step, leaves the instance as it was. -/
theorem drawn_eq_self_iff {b : Batch σ} (hfit : Batch.Fits act b) {outcomes : List Outcome}
    (hs : (b.stepSweep act).1 = .ok outcomes) {i : Nat} {f : Failure}
    (h : FailsAt drawOne (b.stepSweep act).2 (b.stepSweep act).2 i f) :
    (sweep drawOne (b.stepSweep act).2 (b.stepSweep act).2).2 = b.instances ↔
      KeepsBelow stepAndDraw act.toList b.instances (i + 1) ∧
        ∀ (j : Nat) (x : Action) (e : σ), i < j → act.toList[j]? = some x →
          b.instances[j]? = some e → (stepOrRestart x e).2 = e := by
  constructor
  · intro heq
    refine ⟨?_, ?_⟩
    · intro j x e hj hx he
      have hd := getElem?_drawn hs h hx he
      rw [heq, if_pos (by omega), he, Option.some.injEq] at hd
      exact hd.symm
    · intro j x e hj hx he
      have hd := getElem?_drawn hs h hx he
      rw [heq, if_neg (by omega), he, Option.some.injEq] at hd
      exact hd.symm
  · rintro ⟨hbelow, habove⟩
    apply List.ext_getElem?
    intro j
    rcases he : b.instances[j]? with _ | e
    · rw [List.getElem?_eq_none_iff] at he ⊢
      simp [Batch.stepSweep]
      exact he
    · obtain ⟨x, hx⟩ := hfit.exists_action he
      rw [getElem?_drawn hs h hx he]
      split
      · rw [hbelow j x e (by omega) hx he]
      · rw [habove j x e (by omega) hx he]

/-- A step that fails leaves the session alone exactly if its fault moved nothing. -/
theorem step_after_eq_self_iff (ha : s.active = some a)
    (hact : Session.batchAction a.batch.actionSpace actions = .ok act)
    (hfit : Batch.Fits act a.batch) (w : StepFault act render a.batch) :
    (s.step actions render).after = s ↔ w.Unmoved := by
  cases w with
  | atInstance i f h =>
    have hb := Batch.step_of_sweep_error hfit (sweep_eq_error_iff.mpr ⟨i, h⟩)
    rw [(Session.step_of_error ha hact hb.1).2, Session.withBatch_eq_self_iff ha, hb.2,
      Batch.instances_step_of_fits hfit]
    rw [and_iff_left rfl]
    exact sweep_snd_eq_self_iff_of_failsAt h
  | frames outcomes fault hs ht =>
    have hb := Batch.step_of_stack_error hfit hs ht
    rw [(Session.step_of_error ha hact hb.1).2, Session.withBatch_eq_self_iff ha, hb.2,
      Batch.instances_step_of_fits hfit, stepScaler_eq_self_iff, and_comm]
    exact and_congr_right fun _ => sweep_snd_eq_self_iff_of_ok hs
  | drawing outcomes t i f hrender hs ht h =>
    show _ ↔ ScalerKept a.batch outcomes ∧ _
    have hb := Batch.step_of_stack_ok hfit hs ht
    have hdrawn : (a.batch.step act).2.render.2.instances
        = (sweep drawOne (a.batch.stepSweep act).2 (a.batch.stepSweep act).2).2 := by
      rw [← Batch.instances_step_of_fits hfit]
      exact (drawAll_eq_sweep _).1
    have hscaler : (a.batch.step act).2.render.2.scaler = a.batch.stepScaler outcomes := hb.2
    rw [hrender, (Session.step_of_ok_of_render ha hact hb.1).2, Session.withBatch_eq_self_iff ha,
      hdrawn, hscaler, stepScaler_eq_self_iff, and_comm]
    exact and_congr_right fun _ => drawn_eq_self_iff hfit hs h

end Step

/-! ## All failed calls -/

/-- **Failed calls.**  A reset of a session fails exactly with one of the faults of its batch, and
leaves the session as it was exactly if the fault is an unmoved one; so does a step whose actions
fit.  A step whose actions do not fit fails and leaves the session as it was. -/
theorem failed_call_unchanged_iff {s : Session σ} {a : Active σ} (ha : s.active = some a) :
    (∀ r, s.reset.result = .error r ↔ ∃ w : ResetFault a.batch, r = .env w.failure) ∧
    (∀ w : ResetFault a.batch, s.reset.after = s ↔ w.Unmoved) ∧
    (∀ actions render act, Session.batchAction a.batch.actionSpace actions = .ok act →
      Batch.Fits act a.batch →
      (∀ r, (s.step actions render).result = .error r ↔
        ∃ w : StepFault act render a.batch, r = .env w.failure) ∧
      ∀ w : StepFault act render a.batch, (s.step actions render).after = s ↔ w.Unmoved) ∧
    ∀ actions render,
      (∀ act, Session.batchAction a.batch.actionSpace actions = .ok act →
        ¬ Batch.Fits act a.batch) →
      ∃ r, (s.step actions render).result = .error r ∧ (s.step actions render).after = s := by
  refine ⟨?_, ?_, ?_, ?_⟩
  · intro r
    exact reset_eq_error_iff ha
  · intro w
    exact reset_after_eq_self_iff ha w
  · intro actions render act hact hfit
    refine ⟨?_, ?_⟩
    · intro r
      constructor
      · exact exists_fault_of_step_eq_error ha hact hfit
      · rintro ⟨w, rfl⟩
        exact step_eq_error_of_fault ha hact hfit w
    · intro w
      exact step_after_eq_self_iff ha hact hfit w
  · intro actions render h
    exact Session.step_of_not_fits ha h

/-- A table of three states, in which the second one has no outcome. -/
def trapTable : TransitionTable :=
  .ofFn 3 1 fun state _ => if state = 1 then [] else [⟨1.0, 2, 0.0, false⟩]

/-- A session with two instances of the trap, of which the second one starts in it. -/
def trapped : Session Tabular :=
  let registry := Registry.empty.register "Trap" (Tabular.build trapTable [0.5, 0.5, 0.0])
  ((Session.start registry .usual).make "Trap" 2).after.reset.after

/-- The step of the second instance fails after the first one has moved. -/
theorem failed_call_unchanged_iff_trapped :
    ∃ (a : Active Tabular) (w : StepFault (.discrete [0, 0]) false a.batch),
      trapped.active = some a ∧ w.failure = .noOutcome 1 0 ∧ ¬ w.Unmoved ∧
      (trapped.step (.fill [2] (.ofInt 0)) false).after ≠ trapped := by
  have hactive : trapped.active.isSome = true := by decide +kernel
  obtain ⟨a, ha⟩ : ∃ a, trapped.active = some a := Option.isSome_iff_exists.mp hactive
  have hspace : trapped.active.map (·.batch.actionSpace) = some (.discrete 1) := by decide +kernel
  have hcount : trapped.count? = some 2 := by decide +kernel
  have hfailed : (trapped.step (.fill [2] (.ofInt 0)) false).result
      = .error (.env (.noOutcome 1 0)) := by
    decide +kernel
  have hmoved : (trapped.step (.fill [2] (.ofInt 0)) false).after.active.map (·.batch.instances)
      ≠ trapped.active.map (·.batch.instances) := by
    decide +kernel
  have hchanged : (trapped.step (.fill [2] (.ofInt 0)) false).after ≠ trapped :=
    fun h => hmoved (by rw [h])
  rw [Session.count?, ha] at hcount
  rw [ha] at hspace
  simp only [Option.map_some, Option.some.injEq] at hspace hcount
  have hact : Session.batchAction a.batch.actionSpace (.fill [2] (.ofInt 0))
      = .ok (.discrete [0, 0]) := by
    rw [hspace]
    decide +kernel
  have hfit : Batch.Fits (.discrete [0, 0]) a.batch := by
    refine ⟨hcount.symm, ?_⟩
    rw [hspace]
    decide +kernel
  obtain ⟨-, -, hstep, -⟩ := failed_call_unchanged_iff ha
  obtain ⟨herror, hafter⟩ := hstep (.fill [2] (.ofInt 0)) false (.discrete [0, 0]) hact hfit
  obtain ⟨w, hw⟩ := (herror (.env (.noOutcome 1 0))).mp hfailed
  exact ⟨a, w, ha, (Rejection.env.inj hw).symm, fun hu => hchanged ((hafter w).mpr hu), hchanged⟩

end Rollout
