/-
# The calls of a session

What the methods of a session do to the current environment, in terms of what the
batch does: one lemma for every way in which a call can go.
-/
import Rollout.Session
import Rollout.Proofs.BatchCalls

namespace Rollout.Session

variable {σ : Type} {s : Session σ} {a : Active σ}

/-! ## Sessions with another batch -/

/-- A session is as before exactly if its batch is. -/
theorem withBatch_eq_self_iff (ha : s.active = some a) {b : Batch σ} :
    s.withBatch a b = s ↔ b.instances = a.batch.instances ∧ b.scaler = a.batch.scaler := by
  obtain ⟨registry, config, active⟩ := s
  obtain ⟨name, batch⟩ := a
  cases ha
  constructor
  · intro h
    simp only [withBatch, mk.injEq, Option.some.injEq, Active.mk.injEq, true_and] at h
    rw [h]
    exact ⟨rfl, rfl⟩
  · rintro ⟨hi, hs⟩
    rw [withBatch, Batch.ext hi hs]

theorem withBatch_self (ha : s.active = some a) : s.withBatch a a.batch = s :=
  (withBatch_eq_self_iff ha).mpr ⟨rfl, rfl⟩

/-! ## Actions -/

/-- A shape comes down to one axis if it is a row or a column. -/
theorem squeeze_eq_singleton_iff {shape : List Nat} {count : Nat} :
    squeeze shape = [count] ↔ shape = [count] ∨ shape = [count, 1] := by
  unfold squeeze
  match shape with
  | [] => simp
  | [n] => simp
  | [n, m] =>
    by_cases hm : m = 1
    · simp [hm]
    · simp [hm]
  | n :: m :: k :: rest =>
    -- what is left has two axes at least
    constructor
    · intro h
      split at h
      · have hl := congrArg List.length h
        simp at hl
      · cases h
    · rintro (⟨⟨⟩⟩ | ⟨⟨⟩⟩)

/-- Numbered actions are the numbers of a row or a column, cut to integers. -/
theorem discreteActions_eq_ok_iff {t : Tensor Numeric.Double} {indices : List Int} :
    discreteActions t = .ok indices ↔
      (∃ count, t.shape = [count] ∨ t.shape = [count, 1]) ∧
        indices = t.data.map Numeric.truncate := by
  unfold discreteActions
  constructor
  · intro h
    split at h
    · rename_i count hs
      cases h
      exact ⟨⟨count, squeeze_eq_singleton_iff.mp hs⟩, rfl⟩
    · cases h
  · rintro ⟨⟨count, hs⟩, rfl⟩
    rw [squeeze_eq_singleton_iff.mpr hs]

/-- A row or a column has as many numbers as it is long. -/
theorem length_data_of_shape {t : Tensor Numeric.Double} {count : Nat}
    (h : t.shape = [count] ∨ t.shape = [count, 1]) : t.data.length = count := by
  have hl := t.length_data
  rcases h with h | h
  · rw [h] at hl
    simpa [volume] using hl
  · rw [h] at hl
    simpa [volume] using hl

/-- The actions of a numbered space are the numbers of the tensor, cut to integers. -/
theorem batchAction_discrete_eq_ok {size : Nat} {t : Tensor Numeric.Double} {act : BatchAction}
    (h : batchAction (.discrete size) t = .ok act) :
    act = .discrete (t.data.map Numeric.truncate) := by
  obtain ⟨indices, hi, rfl⟩ := map_eq_ok_iff.mp h
  rw [(discreteActions_eq_ok_iff.mp hi).2]

/-- A row and a column of numbers that are cut to the same indices are the same actions. -/
theorem batchAction_congr {size : Nat} {t t' : Tensor Numeric.Double} {count : Nat}
    (ht : t.shape = [count] ∨ t.shape = [count, 1])
    (ht' : t'.shape = [count] ∨ t'.shape = [count, 1])
    (h : t.data.map Numeric.truncate = t'.data.map Numeric.truncate) :
    batchAction (.discrete size) t = batchAction (.discrete size) t' := by
  have hrow := discreteActions_eq_ok_iff.mpr ⟨⟨count, ht⟩, rfl⟩
  have hrow' := discreteActions_eq_ok_iff.mpr ⟨⟨count, ht'⟩, h⟩
  show (discreteActions t).map BatchAction.discrete = (discreteActions t').map .discrete
  rw [hrow, hrow']

variable [Env σ]

/-! ## Making -/

/-- A make that is refused, by its count or because an instance cannot be built, leaves the
session as it was. -/
theorem make_of_error {name : String} {count : UInt64} {r : Rejection}
    (h : (s.make name count).result = .error r) : (s.make name count).after = s := by
  rw [make] at h ⊢
  split
  · rfl
  · rename_i hc
    rw [if_neg hc] at h
    rcases hb : Batch.build s.registry name s.config.seed count.toNat with f | batch
    · rfl
    · simp only [hb] at h
      cases h

/-- A make that succeeds has built as many instances as asked for, within the bounds. -/
theorem make_of_ok {name : String} {count : UInt64} (h : (s.make name count).result = .ok ()) :
    0 < count ∧ count ≤ s.config.mostInstances ∧
    ∃ batch, Batch.build s.registry name s.config.seed count.toNat = .ok batch ∧
      (s.make name count).after
        = { s with active := some ⟨name, { batch with scaler := newScaler s.config }⟩ } := by
  rw [make] at h ⊢
  split
  · rename_i hc
    rw [if_pos hc] at h
    cases h
  · rename_i hc
    rw [if_neg hc] at h
    rw [not_or] at hc
    refine ⟨UInt64.pos_iff_ne_zero.mpr hc.1, UInt64.not_lt.mp hc.2, ?_⟩
    rcases hb : Batch.build s.registry name s.config.seed count.toNat with f | batch
    · simp only [hb] at h
      cases h
    · exact ⟨batch, rfl, rfl⟩

/-! ## Resets -/

/-- A reset of a session is a reset of its batch. -/
theorem reset_eq (ha : s.active = some a) :
    s.reset.result = a.batch.reset.1.mapError .env ∧
      s.reset.after = s.withBatch a a.batch.reset.2 := by
  rcases hr : a.batch.reset with ⟨f | o, b⟩
  · simp only [reset, ha, hr, Call.refuse, and_true]
    rfl
  · simp only [reset, ha, hr, Call.give, and_true]
    rfl

/-! ## Steps -/

variable {actions : Tensor Numeric.Double} {render : Bool} {act : BatchAction}

/-- Actions that do not fit the batch are refused before any instance moves. -/
theorem step_of_not_fits (ha : s.active = some a)
    (h : ∀ act, batchAction a.batch.actionSpace actions = .ok act → ¬ Batch.Fits act a.batch) :
    ∃ r, (s.step actions render).result = .error r ∧ (s.step actions render).after = s := by
  rcases hact : batchAction a.batch.actionSpace actions with fault | act
  · exact ⟨.param fault, by simp only [step, ha, hact, Call.refuse, and_self]⟩
  · obtain ⟨f, hf⟩ := Batch.step_of_not_fits (h act hact)
    refine ⟨.env f, ?_⟩
    simp only [step, ha, hact, hf, Call.refuse, withBatch_self ha, and_self]

/-- A step of a session whose batch fails. -/
theorem step_of_error (ha : s.active = some a)
    (hact : batchAction a.batch.actionSpace actions = .ok act) {f : Failure}
    (h : (a.batch.step act).1 = .error f) :
    (s.step actions render).result = .error (.env f) ∧
      (s.step actions render).after = s.withBatch a (a.batch.step act).2 := by
  rcases hs : a.batch.step act with ⟨r, b⟩
  rw [hs] at h
  cases h
  simp only [step, ha, hact, hs, Call.refuse, and_self]

/-- A step of a session whose batch succeeds, without drawing. -/
theorem step_of_ok (ha : s.active = some a)
    (hact : batchAction a.batch.actionSpace actions = .ok act) {r : BatchStep}
    (h : (a.batch.step act).1 = .ok r) :
    (s.step actions false).result = .ok (.ofBatch r) ∧
      (s.step actions false).after = s.withBatch a (a.batch.step act).2 := by
  rcases hs : a.batch.step act with ⟨r', b⟩
  rw [hs] at h
  cases h
  simp only [step, ha, hact, hs, Call.give, Bool.false_eq_true, if_false, and_self]

/-- A step of a session whose batch succeeds, with all instances drawn after it. -/
theorem step_of_ok_of_render (ha : s.active = some a)
    (hact : batchAction a.batch.actionSpace actions = .ok act) {r : BatchStep}
    (h : (a.batch.step act).1 = .ok r) :
    (s.step actions true).result
        = ((sweep drawOne (a.batch.step act).2.instances (a.batch.step act).2.instances).1.map
            fun _ => .ofBatch r).mapError .env ∧
      (s.step actions true).after = s.withBatch a (a.batch.step act).2.render.2 := by
  rcases hs : a.batch.step act with ⟨r', b⟩
  rw [hs] at h
  cases h
  have hd : b.render.1.result = (sweep drawOne b.instances b.instances).1.map fun _ => () :=
    (drawAll_eq_sweep b.instances).2
  simp only [step, ha, hact, hs, if_true, draw]
  rcases hw : (sweep drawOne b.instances b.instances).1 with f | us
  · rw [hw] at hd
    rcases hb : b.render with ⟨⟨frames, result⟩, b'⟩
    rw [hb] at hd
    cases hd
    exact ⟨rfl, rfl⟩
  · rw [hw] at hd
    rcases hb : b.render with ⟨⟨frames, result⟩, b'⟩
    rw [hb] at hd
    cases hd
    exact ⟨rfl, rfl⟩

/-- A step that succeeds has stepped the batch, and drawn it if it had to. -/
theorem step_eq_ok (ha : s.active = some a) {r : SessionStep}
    (h : (s.step actions render).result = .ok r) :
    ∃ act result, batchAction a.batch.actionSpace actions = .ok act ∧
      (a.batch.step act).1 = .ok result ∧ r = .ofBatch result ∧
      ((s.step actions render).after = s.withBatch a (a.batch.step act).2 ∨
        (s.step actions render).after = s.withBatch a (a.batch.step act).2.render.2) := by
  rcases hact : batchAction a.batch.actionSpace actions with fault | act
  · simp only [step, ha, hact, Call.refuse] at h
    cases h
  · rcases hb : (a.batch.step act).1 with f | result
    · rw [(step_of_error ha hact hb).1] at h
      cases h
    · refine ⟨act, result, rfl, hb, ?_⟩
      cases render with
      | false =>
        have hstep := step_of_ok ha hact hb
        rw [hstep.1] at h
        cases h
        exact ⟨rfl, Or.inl hstep.2⟩
      | true =>
        have hstep := step_of_ok_of_render ha hact hb
        refine ⟨?_, Or.inr hstep.2⟩
        rw [hstep.1] at h
        rcases hw : (sweep drawOne (a.batch.step act).2.instances
          (a.batch.step act).2.instances).1 with f | us
        · rw [hw] at h
          cases h
        · rw [hw] at h
          cases h
          rfl

end Rollout.Session
