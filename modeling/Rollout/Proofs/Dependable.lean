/-
# Environments that do not fail

An environment is dependable if there are states from which every reset, drawing and
step with an action of its space succeeds, and leads to such a state again.  A batch
of instances in such states can only refuse a step before the first instance moves,
so that a session of them changes only when its calls succeed.
-/
import Rollout.Proofs.SessionCalls

namespace Rollout

variable {σ : Type} [Env σ]

/-! ## One instance -/

/-- In the states of `P` all instances have the action space `space` and frames of the shape
`shape`; resets, drawings and steps with actions of the space succeed and stay in `P`. -/
structure Dependable (P : σ → Prop) (space : Space) (shape : List Nat) : Prop where
  actionSpace : ∀ e, P e → Env.actionSpace e = space
  reset : ∀ e, P e → ∃ o, (Env.reset e).1 = .ok o ∧ o.shape = shape ∧ P (Env.reset e).2
  step : ∀ a e, P e → space.fault? a = none →
    ∃ r, (Env.step a e).1 = .ok r ∧ r.observation.shape = shape ∧ P (Env.step a e).2
  render : ∀ e, P e → (Env.render e).1.result = .ok () ∧ P (Env.render e).2

/-- Environments of one type as environments of another one, where every call does the same. -/
structure Embeds {τ : Type} [Env τ] (wrap : σ → τ) : Prop where
  actionSpace : ∀ e, Env.actionSpace (wrap e) = Env.actionSpace e
  observationSpace : ∀ e, Env.observationSpace (wrap e) = Env.observationSpace e
  reset : ∀ e, Env.reset (wrap e) = ((Env.reset e).1, wrap (Env.reset e).2)
  step : ∀ a e, Env.step a (wrap e) = ((Env.step a e).1, wrap (Env.step a e).2)
  render : ∀ e, Env.render (wrap e) = ((Env.render e).1, wrap (Env.render e).2)
  table? : ∀ e, Env.table? (wrap e) = Env.table? e

variable {P : σ → Prop} {space : Space} {shape : List Nat}

/-- A step of a batch gives as much as `count` instances with frames of this shape do. -/
structure BatchStep.Sized (count : Nat) (shape : List Nat) (r : BatchStep) : Prop where
  observations : r.observations.shape = count :: shape
  rewards : r.rewards.length = count
  done : r.done.length = count
  raw : r.raw.length = count

theorem Batch.length_scaleRewards (scaler : Option Scaler) (raw : List Numeric.Single)
    (done : List Bool) : (scaleRewards scaler raw done).1.length = raw.length := by
  rcases scaler with _ | s
  · rfl
  · rw [scaleRewards, Scaler.apply, List.length_map, List.length_map]

omit [Env σ] in
/-- A step of a batch has a row, a reward and a flag for each outcome. -/
theorem Batch.sized_stepResult {b : Batch σ} {outcomes : List Outcome}
    {t : Tensor Numeric.Single} (ht : t.shape = outcomes.length :: shape) :
    (b.stepResult outcomes t).Sized outcomes.length shape where
  observations := ht
  rewards := (length_scaleRewards ..).trans (List.length_map _)
  done := List.length_map _
  raw := List.length_map _

namespace Dependable

/-- A step with the reset after it succeeds. -/
theorem stepOrRestart_eq_ok (h : Dependable P space shape) {a : Action}
    (ha : space.fault? a = none) {e : σ} (he : P e) :
    ∃ o, (stepOrRestart a e).1 = .ok o ∧ o.observation.shape = shape ∧
      P (stepOrRestart a e).2 := by
  obtain ⟨r, hr, hshape, hP⟩ := h.step a e he ha
  rcases hs : Env.step a e with ⟨r', e'⟩
  rw [hs] at hr hP
  cases hr
  by_cases hd : r.done = true
  · obtain ⟨o, ho, hshape', hP'⟩ := h.reset e' hP
    rcases hs' : Env.reset e' with ⟨o', e''⟩
    rw [hs'] at ho hP'
    cases ho
    simp only [stepOrRestart, hs, if_pos hd, hs']
    exact ⟨_, rfl, hshape', hP'⟩
  · simp only [stepOrRestart, hs, if_neg hd]
    exact ⟨_, rfl, hshape, hP⟩

/-- What embeds a dependable environment is dependable. -/
theorem wrapped {τ : Type} [Env τ] {wrap : σ → τ} (h : Dependable P space shape)
    (hw : Embeds wrap) : Dependable (fun w => ∃ e, w = wrap e ∧ P e) space shape where
  actionSpace := by
    rintro _ ⟨e, rfl, he⟩
    rw [hw.actionSpace, h.actionSpace e he]
  reset := by
    rintro _ ⟨e, rfl, he⟩
    obtain ⟨o, ho, hshape, hP⟩ := h.reset e he
    rw [hw.reset]
    exact ⟨o, ho, hshape, _, rfl, hP⟩
  step := by
    rintro a _ ⟨e, rfl, he⟩ ha
    obtain ⟨r, hr, hshape, hP⟩ := h.step a e he ha
    rw [hw.step]
    exact ⟨r, hr, hshape, _, rfl, hP⟩
  render := by
    rintro _ ⟨e, rfl, he⟩
    rw [hw.render]
    exact ⟨(h.render e he).1, _, rfl, (h.render e he).2⟩

/-! ## A batch -/

variable {b : Batch σ}

/-- The action space of a batch is that of all its instances. -/
theorem actionSpace_batch (h : Dependable P space shape) (hb : ∀ e ∈ b.instances, P e) :
    b.actionSpace = space :=
  h.actionSpace b.first (hb b.first (List.head_mem b.nonempty))

/-- A reset of a batch succeeds, with a row for every instance. -/
theorem reset_batch (h : Dependable P space shape) (hb : ∀ e ∈ b.instances, P e) :
    (∃ t, b.reset.1 = .ok t ∧ t.shape = b.count :: shape) ∧
      ∀ e ∈ b.reset.2.instances, P e := by
  have hone : ∀ x ∈ b.instances, ∀ e, P e →
      ∃ o, (Batch.resetOne x e).1 = .ok o ∧ o.shape = shape ∧ P (Batch.resetOne x e).2 :=
    fun _ _ e he => h.reset e he
  obtain ⟨os, hos, hshape, hP⟩ := sweep_eq_ok_of_forall hone hb
  have hl : os.length = b.count := length_of_sweep_eq_ok hos rfl
  -- a batch has an instance, so there is a frame to stack
  have hne : os ≠ [] := by
    intro hnil
    rw [hnil] at hl
    exact b.nonempty (List.length_eq_zero_iff.mp hl.symm)
  obtain ⟨t, ht, hts⟩ := Tensor.exists_stack_eq_ok hne hshape
  rw [hl] at hts
  exact ⟨⟨t, Batch.reset_of_stack_ok hos ht, hts⟩, hP⟩

/-- A step of a batch succeeds if its actions fit, with an element and a row for every instance. -/
theorem step_batch (h : Dependable P space shape) (hb : ∀ e ∈ b.instances, P e)
    {act : BatchAction} (hfit : Batch.Fits act b) :
    (∃ r, (b.step act).1 = .ok r ∧ r.Sized b.count shape) ∧
      ∀ e ∈ (b.step act).2.instances, P e := by
  have hone : ∀ a ∈ act.toList, ∀ e, P e →
      ∃ o, (stepOrRestart a e).1 = .ok o ∧ o.observation.shape = shape ∧
        P (stepOrRestart a e).2 := by
    intro a ha e he
    have hfault := Batch.checkAll_eq_ok_iff.mp hfit.2 a ha
    rw [h.actionSpace_batch hb] at hfault
    exact h.stepOrRestart_eq_ok hfault he
  obtain ⟨outcomes, hos, hshape, hP⟩ := sweep_eq_ok_of_forall hone hb
  have hl : outcomes.length = b.count :=
    length_of_sweep_eq_ok hos (act.length_toList.trans hfit.1)
  have hne : outcomes.map Outcome.observation ≠ [] := by
    intro hnil
    rw [List.map_eq_nil_iff.mp hnil] at hl
    exact b.nonempty (List.length_eq_zero_iff.mp hl.symm)
  obtain ⟨t, ht, hts⟩ := Tensor.exists_stack_eq_ok hne (List.forall_mem_map.mpr hshape)
  rw [List.length_map] at hts
  rw [Batch.instances_step_of_fits hfit]
  refine ⟨⟨_, (Batch.step_of_stack_ok hfit hos ht).1, ?_⟩, hP⟩
  rw [← hl]
  exact Batch.sized_stepResult hts

/-- A drawing of instances succeeds. -/
theorem draw_instances (h : Dependable P space shape) {es : List σ} (hes : ∀ e ∈ es, P e) :
    (∃ us, (sweep drawOne es es).1 = .ok us) ∧ ∀ e ∈ (sweep drawOne es es).2, P e := by
  have hone : ∀ x ∈ es, ∀ e, P e →
      ∃ u, (drawOne x e).1 = .ok u ∧ True ∧ P (drawOne x e).2 :=
    fun _ _ e he => ⟨(), (h.render e he).1, trivial, (h.render e he).2⟩
  obtain ⟨us, hus, -, hP⟩ := sweep_eq_ok_of_forall hone hes
  exact ⟨⟨us, hus⟩, hP⟩

end Dependable

/-! ## Frames of the observation space -/

/-- The shape of the frames that show the members of a space: an integer is shown as one
element. -/
def Space.frameShape : Space → List Nat
  | .discrete _ => [1]
  | .box _ _ shape => shape

/-- A dependable environment is truthful if all its frames have the shape of its observation
space. -/
structure Truthful (P : σ → Prop) (action observation : Space) : Prop
    extends Dependable P action observation.frameShape where
  observationSpace : ∀ e, P e → Env.observationSpace e = observation

/-- What embeds a truthful environment is truthful. -/
theorem Truthful.wrapped {τ : Type} [Env τ] {wrap : σ → τ} {action observation : Space}
    (h : Truthful P action observation) (hw : Embeds wrap) :
    Truthful (fun w => ∃ e, w = wrap e ∧ P e) action observation where
  toDependable := h.toDependable.wrapped hw
  observationSpace := by
    rintro _ ⟨e, rfl, he⟩
    rw [hw.observationSpace, h.observationSpace e he]

/-! ## A registry -/

/-- What a constructor builds is in states in which the environment is dependable. -/
def Builder.Dependable (build : Builder σ) : Prop :=
  ∃ (P : σ → Prop) (space : Space) (shape : List Nat), Rollout.Dependable P space shape ∧
    ∀ seed e, build seed = .ok e → P e

/-- What a constructor builds is in states in which the environment is truthful. -/
def Builder.Truthful (build : Builder σ) : Prop :=
  ∃ (P : σ → Prop) (action observation : Space), Rollout.Truthful P action observation ∧
    ∀ seed e, build seed = .ok e → P e

/-- A truthful builder is dependable. -/
theorem Builder.Truthful.dependable {build : Builder σ} (h : build.Truthful) :
    build.Dependable := by
  obtain ⟨P, action, observation, ht, hP⟩ := h
  exact ⟨P, action, observation.frameShape, ht.toDependable, hP⟩

/-- A constructor of embedded environments is as truthful as the one of the environments. -/
theorem Builder.Truthful.map {τ : Type} [Env τ] {wrap : σ → τ} {build : Builder σ}
    (h : build.Truthful) (hw : Embeds wrap) :
    Builder.Truthful fun seed => (build seed).map wrap := by
  obtain ⟨P, action, observation, ht, hP⟩ := h
  refine ⟨_, action, observation, ht.wrapped hw, ?_⟩
  intro seed w hb
  obtain ⟨e, he, rfl⟩ := map_eq_ok_iff.mp hb
  exact ⟨e, rfl, hP seed e he⟩

/-- A constructor that never builds anything is truthful. -/
theorem Builder.truthful_of_error {build : Builder σ} (h : ∀ seed e, build seed ≠ .ok e) :
    Builder.Truthful build := by
  refine ⟨fun _ => False, .discrete 0, .discrete 0, ⟨⟨?_, ?_, ?_, ?_⟩, ?_⟩, ?_⟩
  · exact fun _ h => h.elim
  · exact fun _ h => h.elim
  · exact fun _ _ h => h.elim
  · exact fun _ h => h.elim
  · exact fun _ h => h.elim
  · exact fun seed e he => h seed e he

namespace Registry

/-- Every name of a registry stands for a dependable constructor. -/
def Dependable (registry : Registry σ) : Prop :=
  ∀ name, Builder.Dependable (registry.build name)

/-- Every name of a registry stands for a truthful constructor. -/
def Truthful (registry : Registry σ) : Prop :=
  ∀ name, Builder.Truthful (registry.build name)

/-- A registry of truthful builders is dependable. -/
theorem Truthful.dependable {registry : Registry σ} (h : registry.Truthful) :
    registry.Dependable :=
  fun name => (h name).dependable

theorem Truthful.empty : (Registry.empty : Registry σ).Truthful := by
  intro name
  refine Builder.truthful_of_error ?_
  intro seed e h
  cases h

/-- A registry stays truthful with another truthful constructor. -/
theorem Truthful.register {registry : Registry σ} (h : registry.Truthful) (name : String)
    {build : Builder σ} (hb : Builder.Truthful build) :
    (registry.register name build).Truthful := by
  intro name'
  by_cases hname : name' = name
  · have heq : (registry.register name build).build name' = build :=
      funext fun seed => by rw [build_register, if_pos hname]
    rw [heq]
    exact hb
  · have heq : (registry.register name build).build name' = registry.build name' :=
      funext fun seed => by rw [build_register, if_neg hname]
    rw [heq]
    exact h name'

end Registry

/-! ## A session -/

namespace Session

/-- The registry of a session is dependable, and the current environment is in such states. -/
structure Dependable (s : Session σ) : Prop where
  registry : s.registry.Dependable
  active : ∀ a, s.active = some a → ∃ (P : σ → Prop) (space : Space) (shape : List Nat),
    Rollout.Dependable P space shape ∧ ∀ e ∈ a.batch.instances, P e

variable {s : Session σ} {a : Active σ}

theorem Dependable.start {registry : Registry σ} (h : registry.Dependable)
    (config : SessionConfig) : (Session.start registry config).Dependable where
  registry := h
  active a ha := by cases ha

theorem Dependable.withBatch (h : s.Dependable) {b : Batch σ}
    (hb : Rollout.Dependable P space shape) (hP : ∀ e ∈ b.instances, P e) :
    (s.withBatch a b).Dependable where
  registry := h.registry
  active a' ha := by
    cases ha
    exact ⟨P, space, shape, hb, hP⟩

/-- A make keeps a session dependable, and changes nothing if it fails. -/
theorem Dependable.make (h : s.Dependable) (name : String) (count : UInt64) :
    (s.make name count).after.Dependable ∧
      ∀ r, (s.make name count).result = .error r → (s.make name count).after = s := by
  refine ⟨?_, fun r hr => make_of_error hr⟩
  rcases hr : (s.make name count).result with r | u
  · rw [make_of_error hr]
    exact h
  · obtain ⟨-, -, batch, hbuild, hafter⟩ := make_of_ok hr
    rw [hafter]
    refine ⟨h.registry, ?_⟩
    intro a ha
    cases ha
    obtain ⟨P, space, shape, hd, hP⟩ := h.registry name
    refine ⟨P, space, shape, hd, ?_⟩
    intro e he
    obtain ⟨seed, hseed⟩ := Batch.exists_build_of_mem_instances hbuild he
    exact hP seed e hseed

/-- A reset keeps a session dependable, and changes nothing if it fails. -/
theorem Dependable.reset (h : s.Dependable) :
    s.reset.after.Dependable ∧ ∀ r, s.reset.result = .error r → s.reset.after = s := by
  rcases ha : s.active with _ | a
  · rw [Session.reset, ha]
    exact ⟨h, fun _ _ => rfl⟩
  · obtain ⟨P, space, shape, hd, hP⟩ := h.active a ha
    obtain ⟨⟨t, ht, -⟩, hP'⟩ := hd.reset_batch hP
    rw [(reset_eq ha).1, (reset_eq ha).2, ht]
    refine ⟨h.withBatch hd hP', ?_⟩
    intro r hr
    cases hr

/-- A step of dependable instances succeeds if its actions fit, with or without a drawing. -/
theorem step_of_fits (hd : Rollout.Dependable P space shape) (ha : s.active = some a)
    (hP : ∀ e ∈ a.batch.instances, P e) {actions : Tensor Numeric.Double} {act : BatchAction}
    (hact : batchAction a.batch.actionSpace actions = .ok act) (hfit : Batch.Fits act a.batch)
    (render : Bool) :
    ∃ r b, (s.step actions render).result = .ok (.ofBatch r) ∧ r.Sized a.batch.count shape ∧
      (s.step actions render).after = s.withBatch a b ∧ ∀ e ∈ b.instances, P e := by
  obtain ⟨⟨r, hr, hsized⟩, hP'⟩ := hd.step_batch hP hfit
  cases render with
  | false =>
    have hstep := step_of_ok ha hact hr
    exact ⟨r, _, hstep.1, hsized, hstep.2, hP'⟩
  | true =>
    have hstep := step_of_ok_of_render ha hact hr
    obtain ⟨⟨us, hus⟩, hP''⟩ := hd.draw_instances hP'
    rw [hus] at hstep
    refine ⟨r, _, hstep.1, hsized, hstep.2, ?_⟩
    rw [Batch.instances_render]
    exact hP''

/-- A step keeps a session dependable, and changes nothing if it fails. -/
theorem Dependable.step (h : s.Dependable) (actions : Tensor Numeric.Double) (render : Bool) :
    (s.step actions render).after.Dependable ∧
      ∀ r, (s.step actions render).result = .error r → (s.step actions render).after = s := by
  rcases ha : s.active with _ | a
  · rw [Session.step, ha]
    exact ⟨h, fun _ _ => rfl⟩
  · obtain ⟨P, space, shape, hd, hP⟩ := h.active a ha
    by_cases hfit : ∃ act, batchAction a.batch.actionSpace actions = .ok act ∧
        Batch.Fits act a.batch
    · obtain ⟨act, hact, hfit⟩ := hfit
      -- the actions fit, so neither the step nor the drawing can fail
      obtain ⟨r, b, hr, -, hafter, hP'⟩ := step_of_fits hd ha hP hact hfit render
      rw [hr, hafter]
      refine ⟨h.withBatch hd hP', ?_⟩
      intro e he
      cases he
    · rw [not_exists] at hfit
      have hrefused : ∃ r, (s.step actions render).result = .error r ∧
          (s.step actions render).after = s :=
        step_of_not_fits ha fun act hact hf => hfit act ⟨hact, hf⟩
      obtain ⟨r, -, hafter⟩ := hrefused
      rw [hafter]
      exact ⟨h, fun _ _ => rfl⟩

end Session

end Rollout
