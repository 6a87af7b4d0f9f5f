/-
# What `info` says is true

The reply to `info` describes the actions that a step accepts and the observations
that resets and steps give.  The check of a tensor of actions goes through several
stages; here they are put together, `exists_fits_iff`, and compared with the report.
-/
import Rollout.Proofs.SessionRuns
import Rollout.Proofs.StandardWorlds
import Rollout.Server

namespace Rollout

open Numeric (Double truncate)

/-! ## Reports -/

namespace SpaceReport

/-- A tensor is a batch of `count` actions by a report: a row or a column of numbers that are cut
to indices below the reported number, or a row of the reported shape for every instance. -/
def Accepts (report : SpaceReport) (count : Nat) (t : Tensor Double) : Prop :=
  (report.actionType = "Discrete" ∧ (t.shape = [count] ∨ t.shape = [count, 1]) ∧
    ∃ size : Nat, report.actionShape = [size] ∧
      ∀ x ∈ t.data, 0 ≤ truncate x ∧ truncate x < size) ∨
  (report.actionType = "Box" ∧ t.shape = count :: report.actionShape)

/-- The shape of the observations of `count` instances by a report. -/
def observationsShape (report : SpaceReport) (count : Nat) : List Nat :=
  if report.observationType = "Discrete" then [count, 1] else count :: report.observationShape

variable {action observation : Space} {count : Nat}

/-- The observations of a batch have a row for each instance. -/
theorem observationsShape_ofSpaces :
    (ofSpaces action observation).observationsShape count = count :: observation.frameShape := by
  cases observation with
  | discrete size => rfl
  | box low high shape => rfl

/-- A report of a numbered space accepts one index below its size for each instance. -/
theorem accepts_discrete_iff {size : Nat} {t : Tensor Double} :
    (ofSpaces (.discrete size) observation).Accepts count t ↔
      (t.shape = [count] ∨ t.shape = [count, 1]) ∧
        ∀ x ∈ t.data, 0 ≤ truncate x ∧ truncate x < size := by
  have htype : (ofSpaces (.discrete size) observation).actionType = "Discrete" := rfl
  have hbox : (ofSpaces (.discrete size) observation).actionType ≠ "Box" := by
    show "Discrete" ≠ "Box"
    decide
  have hshape : (ofSpaces (.discrete size) observation).actionShape = [size] := rfl
  unfold Accepts
  rw [hshape]
  constructor
  · rintro (⟨-, hs, _, ⟨⟩, hd⟩ | ⟨h, -⟩)
    · exact ⟨hs, hd⟩
    · exact absurd h hbox
  · rintro ⟨hs, hd⟩
    exact Or.inl ⟨htype, hs, size, rfl, hd⟩

/-- A report of a box accepts a row of its shape for each instance. -/
theorem accepts_box_iff {low high : List Float32} {shape : List Nat} {t : Tensor Double} :
    (ofSpaces (.box low high shape) observation).Accepts count t ↔ t.shape = count :: shape := by
  have htype : (ofSpaces (.box low high shape) observation).actionType = "Box" := rfl
  have hdiscrete : (ofSpaces (.box low high shape) observation).actionType ≠ "Discrete" := by
    show "Box" ≠ "Discrete"
    decide
  unfold Accepts
  constructor
  · rintro (⟨h, -⟩ | ⟨-, hs⟩)
    · exact absurd h hdiscrete
    · exact hs
  · intro hs
    exact Or.inr ⟨htype, hs⟩

end SpaceReport

/-! ## The actions that fit -/

namespace Batch

variable {σ : Type} [Env σ] {b : Batch σ}

/-- Rows fit a batch exactly if the tensor has its shape. -/
theorem fits_continuous_iff {low high : List Float32} {shape : List Nat}
    (hspace : b.actionSpace = .box low high shape) {values : Tensor Numeric.Single} :
    Fits (.continuous values) b ↔ values.shape = b.count :: shape := by
  unfold Fits
  rw [checkAll_eq_ok_iff, hspace]
  have hfault : ∀ row : Tensor Numeric.Single,
      (Space.box low high shape).fault? (.continuous row) = none ↔ row.shape = shape := by
    intro row
    unfold Space.fault?
    by_cases hr : row.shape = shape
    · simp [hr]
    · simp [hr]
  simp only [BatchAction.length, BatchAction.toList, List.forall_mem_map, hfault]
  constructor
  · rintro ⟨hl, hrows⟩
    -- a batch has an instance, so there is a row that has the shape
    have hpos : 0 < values.rows.length := by
      rw [Tensor.length_rows, hl]
      exact List.length_pos_iff.mpr b.nonempty
    have hrow := Tensor.shape_eq_of_mem_rows (List.getElem_mem hpos)
    rw [hl, hrows _ (List.getElem_mem hpos)] at hrow
    exact hrow
  · intro hs
    have hl : values.leading = b.count := by rw [Tensor.leading, hs, List.headD_cons]
    refine ⟨hl, ?_⟩
    intro row hr
    have hrow := Tensor.shape_eq_of_mem_rows hr
    rw [hs] at hrow
    exact (List.cons.inj hrow).2.symm

/-- **Accepted tensors.**  A tensor makes a batch of actions that fit exactly if a report of the
action space accepts it. -/
theorem exists_fits_iff {action : Space} (hspace : b.actionSpace = action) (observation : Space)
    (t : Tensor Double) :
    (∃ act, Session.batchAction b.actionSpace t = .ok act ∧ Fits act b) ↔
      (SpaceReport.ofSpaces action observation).Accepts b.count t := by
  rw [hspace]
  cases action with
  | discrete size =>
    rw [SpaceReport.accepts_discrete_iff]
    constructor
    · rintro ⟨act, hact, hfit⟩
      obtain ⟨indices, hi, rfl⟩ := map_eq_ok_iff.mp hact
      obtain ⟨⟨count, hs⟩, rfl⟩ := Session.discreteActions_eq_ok_iff.mp hi
      obtain ⟨hl, hd⟩ := (fits_discrete_iff hspace).mp hfit
      have hcount : count = b.count := by
        rw [← hl, List.length_map, Session.length_data_of_shape hs]
      rw [hcount] at hs
      exact ⟨hs, List.forall_mem_map.mp hd⟩
    · rintro ⟨hs, hd⟩
      refine ⟨.discrete (t.data.map truncate), ?_, ?_⟩
      · exact map_eq_ok_iff.mpr ⟨_, Session.discreteActions_eq_ok_iff.mpr ⟨⟨_, hs⟩, rfl⟩, rfl⟩
      · rw [fits_discrete_iff hspace, List.length_map, Session.length_data_of_shape hs]
        exact ⟨rfl, List.forall_mem_map.mpr hd⟩
  | box low high shape =>
    rw [SpaceReport.accepts_box_iff]
    constructor
    · rintro ⟨act, hact, hfit⟩
      cases hact
      exact (fits_continuous_iff hspace).mp hfit
    · intro hs
      exact ⟨.continuous (t.map Double.narrow), rfl, (fits_continuous_iff hspace).mpr hs⟩

end Batch

/-! ## Sessions of truthful environments -/

/-- A dependable environment keeps its states in every call. -/
theorem Dependable.kept {σ : Type} [Env σ] {P : σ → Prop} {space : Space} {shape : List Nat}
    (h : Dependable P space shape) : Kept P space where
  actionSpace := h.actionSpace
  reset e he := by
    obtain ⟨o, -, -, hP⟩ := h.reset e he
    exact hP
  step a e he ha := by
    obtain ⟨r, -, -, hP⟩ := h.step a e he ha
    exact hP
  render e he := (h.render e he).2

namespace Session

variable {σ : Type} [Env σ] {s : Session σ} {a : Active σ} {P : σ → Prop}

/-- A step looks at a tensor of actions only through the actions that it makes. -/
theorem step_congr (ha : s.active = some a) {t t' : Tensor Double}
    (h : batchAction a.batch.actionSpace t = batchAction a.batch.actionSpace t') (render : Bool) :
    s.step t render = s.step t' render := by
  unfold step
  rw [ha]
  simp only [h]

variable {action observation : Space}

/-- A batch of truthful instances reports their spaces. -/
theorem info_of_truthful (h : Truthful P action observation) (ha : s.active = some a)
    (hP : ∀ e ∈ a.batch.instances, P e) :
    (Server.info s).result = .ok (.info (.ofSpaces action observation)) := by
  have hfirst : P a.batch.first := hP _ (List.head_mem a.batch.nonempty)
  have hobservation : a.batch.observationSpace = observation := h.observationSpace _ hfirst
  have hinfo : s.info = .ok (action, observation) := by
    unfold info
    rw [ha, ← h.actionSpace_batch hP, ← hobservation]
  unfold Server.info
  rw [hinfo]

/-- A step of truthful instances succeeds exactly on the tensors that the report accepts, and gives
as much as the report says. -/
theorem step_of_truthful (h : Truthful P action observation) (ha : s.active = some a)
    (hP : ∀ e ∈ a.batch.instances, P e) (t : Tensor Double) (render : Bool) :
    ((∃ r, (s.step t render).result = .ok r) ↔
      (SpaceReport.ofSpaces action observation).Accepts a.batch.count t) ∧
    ∀ r, (s.step t render).result = .ok r →
      ∃ step, r = .ofBatch step ∧ step.Sized a.batch.count observation.frameShape := by
  rw [← Batch.exists_fits_iff (h.actionSpace_batch hP) observation]
  by_cases hfit : ∃ act, batchAction a.batch.actionSpace t = .ok act ∧ Batch.Fits act a.batch
  · obtain ⟨act, hact, hfit⟩ := hfit
    obtain ⟨step, b, hr, hsized, -⟩ := step_of_fits h.toDependable ha hP hact hfit render
    refine ⟨iff_of_true ⟨_, hr⟩ ⟨act, hact, hfit⟩, ?_⟩
    intro r hr'
    rw [hr] at hr'
    cases hr'
    exact ⟨step, rfl, hsized⟩
  · -- what the report does not accept is refused before any instance is asked
    have hrefused : ∃ r, (s.step t render).result = .error r ∧ (s.step t render).after = s :=
      step_of_not_fits ha fun act hact hf => hfit ⟨act, hact, hf⟩
    obtain ⟨f, hf, -⟩ := hrefused
    have hfails : ∀ r, (s.step t render).result ≠ .ok r := by
      intro r hr
      rw [hf] at hr
      cases hr
    exact ⟨iff_of_false (not_exists.mpr hfails) hfit, fun r hr => absurd hr (hfails r)⟩

/-- A reset of truthful instances succeeds, and gives as much as the report says. -/
theorem reset_of_truthful (h : Truthful P action observation) (ha : s.active = some a)
    (hP : ∀ e ∈ a.batch.instances, P e) :
    ∃ o, s.reset.result = .ok o ∧ o.shape = a.batch.count :: observation.frameShape := by
  obtain ⟨⟨o, ho, hshape⟩, -⟩ := h.reset_batch hP
  refine ⟨o, ?_, hshape⟩
  rw [(reset_eq ha).1, ho]
  rfl

/-- In every session of the standard environments that is reached, the instances are in states in
which they are truthful. -/
theorem Reachable.truthful {config : SessionConfig} {s : Session World} {a : Active World}
    (h : Reachable World.registry config s) (ha : s.active = some a) :
    ∃ (P : World → Prop) (action observation : Space), Truthful P action observation ∧
      ∀ e ∈ a.batch.instances, P e := by
  obtain ⟨P, action, observation, ht, hbuild⟩ := World.truthful_registry a.name
  have hwithin : s.Within a.name P := ht.kept.within hbuild h
  exact ⟨P, action, observation, ht, hwithin a ha rfl⟩

/-- **The reply to `info` is true.**  In every session of the standard environments that is
reached, with an environment of `count` instances, `info` has a report of the spaces, and
- a step succeeds exactly if the report accepts its actions;
- a row and a column of numbers that are cut to the same integers are the same actions, with the
  same result, state and frames drawn;
- a reset succeeds, and its observations have the reported shape, as those of a step have;
- a step gives columns of rewards and of ends of episodes, and a reward of every instance. -/
theorem info_is_true {config : SessionConfig} {s : Session World}
    (h : Reachable World.registry config s) {count : Nat} (hc : s.count? = some count) :
    ∃ report, (Server.info s).result = .ok (.info report) ∧
      (∀ actions render, (∃ r, (s.step actions render).result = .ok r) ↔
        report.Accepts count actions) ∧
      (report.actionType = "Discrete" → ∀ actions actions' render,
        actions.shape = [count] → actions'.shape = [count, 1] →
        actions.data.map truncate = actions'.data.map truncate →
        s.step actions render = s.step actions' render) ∧
      (∃ o, s.reset.result = .ok o ∧ o.shape = report.observationsShape count) ∧
      ∀ actions render r, (s.step actions render).result = .ok r →
        r.observation.shape = report.observationsShape count ∧ r.reward.shape = [count, 1] ∧
        r.done.shape = [count, 1] ∧ r.raw.length = count := by
  obtain ⟨a, ha, rfl⟩ := Option.map_eq_some_iff.mp hc
  obtain ⟨P, action, observation, ht, hP⟩ := h.truthful ha
  refine ⟨_, info_of_truthful ht ha hP, ?_, ?_, ?_, ?_⟩
  · intro actions render
    exact (step_of_truthful ht ha hP actions render).1
  · intro htype actions actions' render hrow hcolumn hdata
    apply step_congr ha
    rw [ht.actionSpace_batch hP]
    cases action with
    | discrete size => exact batchAction_congr (Or.inl hrow) (Or.inr hcolumn) hdata
    | box low high shape =>
      have hbox : "Box" = "Discrete" := htype
      exact absurd hbox (by decide)
  · rw [SpaceReport.observationsShape_ofSpaces]
    exact reset_of_truthful ht ha hP
  · intro actions render r hr
    obtain ⟨step, rfl, hsized⟩ := (step_of_truthful ht ha hP actions render).2 r hr
    rw [SpaceReport.observationsShape_ofSpaces]
    refine ⟨hsized.observations, ?_, ?_, hsized.raw⟩
    · exact congrArg (fun n => [n, 1]) hsized.rewards
    · exact congrArg (fun n => [n, 1]) hsized.done

/-- A column of the numbers 1.9 and -0.5. -/
def unevenColumn : Tensor Double := .column [⟨0x3ffe666666666666⟩, ⟨0xbfe0000000000000⟩]

/-- Two open grids take a column of 1.9 and -0.5 as the indices one and zero. -/
theorem info_is_true_unevenColumn :
    let s := ((Session.start World.registry .usual).make "GridWorld-v0" 2).after
    ∃ r, (s.step unevenColumn true).result = .ok r ∧ r.observation.shape = [2, 1] ∧
      r.raw.length = 2 := by
  intro s
  have hc : s.count? = some 2 := by decide +kernel
  obtain ⟨report, hinfo, hstep, -, -, hsized⟩ := info_is_true (.make _ _ .start) hc
  have hreport : (Server.info s).result.toOption.any
      (· == .info (.ofSpaces (.discrete 4) (.discrete 16))) = true := by decide +kernel
  rw [hinfo] at hreport
  obtain rfl := Response.info.inj (eq_of_beq hreport)
  have haccepts : (SpaceReport.ofSpaces (.discrete 4) (.discrete 16)).Accepts 2 unevenColumn := by
    rw [SpaceReport.accepts_discrete_iff]
    exact ⟨Or.inr rfl, by decide⟩
  obtain ⟨r, hr⟩ := (hstep unevenColumn true).mpr haccepts
  obtain ⟨hobservation, -, -, hraw⟩ := hsized _ _ r hr
  exact ⟨r, hr, hobservation, hraw⟩

end Session

end Rollout
