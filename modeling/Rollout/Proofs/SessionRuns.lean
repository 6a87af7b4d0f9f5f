/-
# Runs of a session

A session is reached from a new one by makes, resets and steps, whether they succeed
or fail.  What a constructor gives its instances, and every call of an instance keeps,
holds of all instances of that name in every session that is reached: `Kept.within`.
-/
import Rollout.Proofs.SessionCalls

namespace Rollout

variable {σ : Type} [Env σ] {P : σ → Prop} {space : Space}

/-! ## What the calls of an instance keep -/

/-- The instances with the property have the action space `space`.  They keep the property in resets
and drawings, whether these succeed or fail, and in steps with actions of the space. -/
structure Kept (P : σ → Prop) (space : Space) : Prop where
  actionSpace : ∀ e, P e → Env.actionSpace e = space
  reset : ∀ e, P e → P (Env.reset e).2
  step : ∀ a e, P e → space.fault? a = none → P (Env.step a e).2
  render : ∀ e, P e → P (Env.render e).2

omit [Env σ] in
/-- What every call of a sweep keeps, the sweep keeps. -/
theorem forall_mem_sweep {α β : Type} {run : α → σ → Except Failure β × σ} {as : List α}
    {es : List σ} (h : ∀ a ∈ as, ∀ e, P e → P (run a e).2) (hes : ∀ e ∈ es, P e) :
    ∀ e ∈ (sweep run as es).2, P e := by
  induction as generalizing es with
  | nil => exact hes
  | cons a as ih =>
    cases es with
    | nil => exact hes
    | cons e es =>
      rw [List.forall_mem_cons] at h hes
      have he : P (run a e).2 := h.1 e hes.1
      rcases hr : (run a e).1 with f | b
      · rw [sweep_cons_of_error hr]
        exact List.forall_mem_cons.mpr ⟨he, hes.2⟩
      · rw [sweep_cons_of_ok hr]
        exact List.forall_mem_cons.mpr ⟨he, ih h.2 hes.2⟩

namespace Kept

variable {b : Batch σ}

/-- A step with the reset after it keeps the property. -/
theorem stepOrRestart (h : Kept P space) {a : Action} (ha : space.fault? a = none) {e : σ}
    (he : P e) : P (Rollout.stepOrRestart a e).2 := by
  have hstep := h.step a e he ha
  rcases hs : Env.step a e with ⟨f | r, e'⟩
  · rw [hs] at hstep
    simp only [Rollout.stepOrRestart, hs]
    exact hstep
  · rw [hs] at hstep
    have hreset := h.reset e' hstep
    by_cases hd : r.done = true
    · rcases hr : Env.reset e' with ⟨f | o, e''⟩
      · rw [hr] at hreset
        simp only [Rollout.stepOrRestart, hs, if_pos hd, hr]
        exact hreset
      · rw [hr] at hreset
        simp only [Rollout.stepOrRestart, hs, if_pos hd, hr]
        exact hreset
    · simp only [Rollout.stepOrRestart, hs, if_neg hd]
      exact hstep

/-! ## Batches -/

/-- A reset of a batch keeps what every call of an instance keeps. -/
theorem reset_batch (h : Kept P space) (hb : ∀ e ∈ b.instances, P e) :
    ∀ e ∈ b.reset.2.instances, P e := by
  have hone : ∀ x ∈ b.instances, ∀ e, P e → P (Batch.resetOne x e).2 :=
    fun _ _ e he => h.reset e he
  exact forall_mem_sweep hone hb

/-- A step of a batch moves instances only with actions of their space. -/
theorem step_batch (h : Kept P space) (hb : ∀ e ∈ b.instances, P e) (act : BatchAction) :
    ∀ e ∈ (b.step act).2.instances, P e := by
  by_cases hfit : Batch.Fits act b
  · have hspace : b.actionSpace = space :=
      h.actionSpace b.first (hb b.first (List.head_mem b.nonempty))
    rw [Batch.instances_step_of_fits hfit]
    refine forall_mem_sweep ?_ hb
    intro a ha e he
    have hfault := Batch.checkAll_eq_ok_iff.mp hfit.2 a ha
    rw [hspace] at hfault
    exact h.stepOrRestart hfault he
  · obtain ⟨f, hf⟩ := Batch.step_of_not_fits hfit
    rw [hf]
    exact hb

/-- Drawing a batch keeps what every call of an instance keeps. -/
theorem render_batch (h : Kept P space) (hb : ∀ e ∈ b.instances, P e) :
    ∀ e ∈ b.render.2.instances, P e := by
  rw [b.instances_render]
  exact forall_mem_sweep (fun _ _ e he => h.render e he) hb

end Kept

/-! ## Sessions that are reached -/

namespace Session

/-- **Reachable sessions.**  The session was reached from a new one; the calls may have failed. -/
inductive Reachable (registry : Registry σ) (config : SessionConfig) : Session σ → Prop
  | start : Reachable registry config (.start registry config)
  | make {s : Session σ} (name : String) (count : UInt64) (h : Reachable registry config s) :
    Reachable registry config (s.make name count).after
  | reset {s : Session σ} (h : Reachable registry config s) : Reachable registry config s.reset.after
  | step {s : Session σ} (actions : Tensor Numeric.Double) (render : Bool)
    (h : Reachable registry config s) : Reachable registry config (s.step actions render).after

/-- All instances of the environment of this name have the property. -/
def Within (name : String) (P : σ → Prop) (s : Session σ) : Prop :=
  ∀ a, s.active = some a → a.name = name → ∀ e ∈ a.batch.instances, P e

variable {s : Session σ} {a : Active σ} {name : String}

omit [Env σ] in
theorem Within.withBatch {b : Batch σ} (h : a.name = name → ∀ e ∈ b.instances, P e) :
    (s.withBatch a b).Within name P := by
  intro a' ha' hname
  cases ha'
  exact h hname

/-- A step leaves the session, or its batch stepped, or stepped and drawn. -/
theorem step_after_cases (ha : s.active = some a) (actions : Tensor Numeric.Double)
    (render : Bool) : (s.step actions render).after = s ∨
      ∃ act, (s.step actions render).after = s.withBatch a (a.batch.step act).2 ∨
        (s.step actions render).after = s.withBatch a (a.batch.step act).2.render.2 := by
  rcases hact : batchAction a.batch.actionSpace actions with fault | act
  · refine Or.inl ?_
    simp only [step, ha, hact]
    rfl
  · refine Or.inr ⟨act, ?_⟩
    rcases hb : (a.batch.step act).1 with f | r
    · exact Or.inl (step_of_error ha hact hb).2
    · cases render with
      | false => exact Or.inl (step_of_ok ha hact hb).2
      | true => exact Or.inr (step_of_ok_of_render ha hact hb).2

variable {registry : Registry σ} {config : SessionConfig}

/-- No call changes the registry and the settings. -/
theorem Reachable.settings (h : Reachable registry config s) :
    s.registry = registry ∧ s.config = config := by
  induction h with
  | start => exact ⟨rfl, rfl⟩
  | @make s name count h ih =>
    rcases hr : (s.make name count).result with r | u
    · rw [make_of_error hr]
      exact ih
    · obtain ⟨-, -, batch, -, hafter⟩ := make_of_ok hr
      rw [hafter]
      exact ih
  | @reset s h ih =>
    rcases ha : s.active with _ | a
    · rw [Session.reset, ha]
      exact ih
    · rw [(reset_eq ha).2]
      exact ih
  | @step s actions render h ih =>
    rcases ha : s.active with _ | a
    · rw [Session.step, ha]
      exact ih
    · rcases step_after_cases ha actions render with hs | ⟨act, hs | hs⟩
      · rw [hs]
        exact ih
      · rw [hs]
        exact ih
      · rw [hs]
        exact ih

end Session

/-- **Runs.**  What a constructor gives its instances, and every call of an instance keeps, holds of
all its instances in every session that is reached. -/
theorem Kept.within {registry : Registry σ} {config : SessionConfig} {name : String}
    {s : Session σ} (hk : Kept P space)
    (hbuild : ∀ seed e, registry.build name seed = .ok e → P e)
    (h : Session.Reachable registry config s) : s.Within name P := by
  induction h with
  | start =>
    intro a ha
    cases ha
  | @make s name' count h ih =>
    rcases hr : (s.make name' count).result with r | u
    · rw [Session.make_of_error hr]
      exact ih
    · obtain ⟨-, -, batch, hb, hafter⟩ := Session.make_of_ok hr
      rw [hafter]
      rintro _ ⟨⟩ rfl e he
      -- no call has changed the registry, so the name still stands for the same constructor
      obtain ⟨seed, hseed⟩ := Batch.exists_build_of_mem_instances hb he
      rw [h.settings.1] at hseed
      exact hbuild seed e hseed
  | @reset s h ih =>
    rcases ha : s.active with _ | a
    · rw [Session.reset, ha]
      exact ih
    · rw [(Session.reset_eq ha).2]
      exact .withBatch fun hname => hk.reset_batch (ih a ha hname)
  | @step s actions render h ih =>
    rcases ha : s.active with _ | a
    · rw [Session.step, ha]
      exact ih
    · rcases Session.step_after_cases ha actions render with hs | ⟨act, hs | hs⟩
      · rw [hs]
        exact ih
      · rw [hs]
        exact .withBatch fun hname => hk.step_batch (ih a ha hname) act
      · rw [hs]
        exact .withBatch fun hname => hk.render_batch (hk.step_batch (ih a ha hname) act)

end Rollout
