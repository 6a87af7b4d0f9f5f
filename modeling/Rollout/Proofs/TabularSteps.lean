/-
# Steps of a tabular environment

Sampling a distribution gives an index of it, whatever its numbers are.  So an
environment with a closed table always has a state to go to: a reset and a step
with an action of the space succeed, and the next state lies in the table.
-/
import Rollout.Proofs.TableEntries
import Rollout.World.Tabular

namespace Rollout

namespace Tabular

variable {ps : List Float} {e : Tabular}

/-! ## Construction -/

/-- What an environment that was built holds. -/
theorem of_build_eq_ok {t : TransitionTable} {seed : UInt64} (h : build t ps seed = .ok e) :
    ps.length = t.states ∧ e.table = t ∧ e.initial = ps ∧ e.state = 0 := by
  rw [build] at h
  split at h
  · rename_i hl
    cases h
    exact ⟨hl, rfl, rfl, rfl⟩
  · cases h

/-! ## Sampling -/

/-- A distribution that is not empty gives one of its indices. -/
theorem exists_pick_eq_some (r sum : Float) (h : ps ≠ []) :
    ∃ i, pick r sum ps = some i ∧ i < ps.length := by
  -- the running sum may come out as anything: the last index is taken if nothing exceeds `r`
  induction ps generalizing sum with
  | nil => exact absurd rfl h
  | cons p rest ih =>
    rw [pick]
    split
    · exact ⟨0, rfl, Nat.zero_lt_succ _⟩
    · by_cases hrest : rest = []
      · rw [hrest]
        exact ⟨0, rfl, Nat.zero_lt_succ _⟩
      · obtain ⟨i, hi, hlt⟩ := ih (sum + p) hrest
        rw [hi]
        exact ⟨i + 1, rfl, Nat.succ_lt_succ hlt⟩

theorem exists_sample_eq_some (g : Generator) (h : ps ≠ []) :
    ∃ i, (sample ps g).1 = some i ∧ i < ps.length :=
  exists_pick_eq_some g.double.1 0.0 h

/-! ## Resets -/

/-- A reset succeeds if there is a state to start in. -/
theorem reset_eq_ok (h : e.initial ≠ []) :
    ∃ state, state < e.initial.length ∧
      reset e = (.ok (observe state), { e with
        random := (sample e.initial e.random).2, state, lastAction := none, steps := 0 }) := by
  obtain ⟨state, hs, hlt⟩ := exists_sample_eq_some e.random h
  refine ⟨state, hlt, ?_⟩
  simp only [reset, hs]

/-- What a reset that succeeded has changed. -/
theorem of_reset_eq_ok {o : Observation} (h : (reset e).1 = .ok o) :
    ∃ random state, (sample e.initial e.random).1 = some state ∧ o = observe state ∧
      (reset e).2 = { e with random, state, lastAction := none, steps := 0 } := by
  unfold reset at h ⊢
  rcases hs : sample e.initial e.random with ⟨index, random⟩
  rw [hs] at h
  cases index with
  | none => cases h
  | some state =>
    cases h
    exact ⟨random, state, rfl, rfl, rfl⟩

/-- A reset that fails has drawn a random number. -/
theorem of_reset_eq_error {f : Failure} (h : (reset e).1 = .error f) :
    ∃ random, (reset e).2 = { e with random } := by
  unfold reset at h ⊢
  rcases hs : sample e.initial e.random with ⟨index, random⟩
  rw [hs] at h
  cases index with
  | none => exact ⟨random, rfl⟩
  | some state => cases h

/-- A reset keeps the table and the initial distribution. -/
theorem dynamics_reset (e : Tabular) :
    (reset e).2.table = e.table ∧ (reset e).2.initial = e.initial := by
  rcases hr : (reset e).1 with f | o
  · obtain ⟨random, hafter⟩ := of_reset_eq_error hr
    rw [hafter]
    exact ⟨rfl, rfl⟩
  · obtain ⟨random, state, -, -, hafter⟩ := of_reset_eq_ok hr
    rw [hafter]
    exact ⟨rfl, rfl⟩

/-! ## Steps -/

/-- Whether the next step is the last one before the episode is cut. -/
def atLimit (e : Tabular) : Bool :=
  match e.limit with
  | some limit => decide (limit ≤ e.steps + 1)
  | none => false

/-- What following a sampled outcome gives. -/
theorem follow_of_choice {index : Int} {os : List Transition} {o : Transition}
    (h : ((sample (os.map Transition.probability) e.random).1).bind (os[·]?) = some o) :
    e.follow index os
      = (.ok ⟨observe o.next, (Numeric.Double.ofFloat o.reward).narrow, o.done, e.atLimit⟩,
        { e with
          random := (sample (os.map Transition.probability) e.random).2, state := o.next,
          lastAction := some index, steps := e.steps + 1 }) := by
  simp only [follow, h]
  rfl

/-- A step that succeeded followed the sampled one of the outcomes of its action. -/
theorem of_step_eq_ok {a : Action} {r : Step} (h : (step a e).1 = .ok r) :
    ∃ (index : Nat) (os : List Transition) (k : Nat) (o : Transition) (random : Generator),
      a = .discrete index ∧ e.table.entry? e.state index = some os ∧
      (sample (os.map Transition.probability) e.random).1 = some k ∧ os[k]? = some o ∧
      r = ⟨observe o.next, (Numeric.Double.ofFloat o.reward).narrow, o.done, e.atLimit⟩ ∧
      (step a e).2 = { e with
        random, state := o.next, lastAction := some index, steps := e.steps + 1 } := by
  unfold step at h ⊢
  rcases hc : e.actionSpace.check a with f | u
  · rw [hc] at h
    cases h
  · rw [hc] at h
    obtain ⟨index, -, rfl⟩ := Space.fault?_discrete_eq_none_iff.mp (Space.check_eq_ok_iff.mp hc)
    rcases hentry : e.table.entry? e.state index with _ | os
    · simp only [Int.toNat_natCast, hentry] at h
      cases h
    · simp only [Int.toNat_natCast, hentry] at h ⊢
      rcases hchoice : ((sample (os.map Transition.probability) e.random).1).bind (os[·]?)
        with _ | o
      · simp only [follow, hchoice] at h
        cases h
      · obtain ⟨k, hs, hk⟩ := Option.bind_eq_some_iff.mp hchoice
        rw [follow_of_choice hchoice] at h ⊢
        cases h
        exact ⟨index, os, k, o, _, rfl, hentry, hs, hk, rfl, rfl⟩

/-- A step that fails has drawn a random number at most. -/
theorem of_step_eq_error {a : Action} {f : Failure} (h : (step a e).1 = .error f) :
    ∃ random, (step a e).2 = { e with random } := by
  unfold step at h ⊢
  rcases hc : e.actionSpace.check a with f | u
  · exact ⟨e.random, rfl⟩
  · rw [hc] at h
    cases a with
    | continuous values => exact ⟨e.random, rfl⟩
    | discrete index =>
      rcases hentry : e.table.entry? e.state index.toNat with _ | os
      · simp only [hentry]
        exact ⟨e.random, rfl⟩
      · simp only [hentry] at h ⊢
        rcases hchoice : ((sample (os.map Transition.probability) e.random).1).bind (os[·]?)
          with _ | o
        · simp only [follow, hchoice]
          exact ⟨_, rfl⟩
        · rw [follow_of_choice hchoice] at h
          cases h

/-- A step keeps the table and the initial distribution. -/
theorem dynamics_step (a : Action) (e : Tabular) :
    (step a e).2.table = e.table ∧ (step a e).2.initial = e.initial := by
  rcases hs : (step a e).1 with f | r
  · obtain ⟨random, hafter⟩ := of_step_eq_error hs
    rw [hafter]
    exact ⟨rfl, rfl⟩
  · obtain ⟨_, _, _, _, random, -, -, -, -, -, hafter⟩ := of_step_eq_ok hs
    rw [hafter]
    exact ⟨rfl, rfl⟩

/-- One of the outcomes is sampled, if there is one. -/
theorem exists_choice {os : List Transition} (h : os ≠ []) (g : Generator) :
    ∃ o ∈ os, ((sample (os.map Transition.probability) g).1).bind (os[·]?) = some o := by
  have hps : os.map Transition.probability ≠ [] := fun hm => h (List.map_eq_nil_iff.mp hm)
  obtain ⟨i, hi, hlt⟩ := exists_sample_eq_some g hps
  rw [List.length_map] at hlt
  refine ⟨os[i], List.getElem_mem hlt, ?_⟩
  rw [hi]
  exact List.getElem?_eq_getElem hlt

/-- With a closed table, a step from a state of the table succeeds for every action of the space,
and leads to a state of the table. -/
theorem step_eq_ok (ht : e.table.Closed) (hs : e.state < e.table.states) {a : Action}
    (ha : (Space.discrete e.table.actions).fault? a = none) :
    ∃ r, (step a e).1 = .ok r ∧ r.observation = observe (step a e).2.state ∧
      (step a e).2.table = e.table ∧ (step a e).2.initial = e.initial ∧
      (step a e).2.state < e.table.states := by
  obtain ⟨i, hi, rfl⟩ := Space.fault?_discrete_eq_none_iff.mp ha
  obtain ⟨os, hos, hentry⟩ := TransitionTable.exists_entry?_eq_some hs hi
  obtain ⟨hne, hnext⟩ := ht os hos
  obtain ⟨o, ho, hchoice⟩ := exists_choice hne e.random
  have hstep : step (.discrete i) e = e.follow i os := by
    simp only [step, actionSpace, Space.check_eq_ok_iff.mpr ha, Int.toNat_natCast, hentry]
  rw [hstep, follow_of_choice hchoice]
  exact ⟨_, rfl, rfl, rfl, rfl, hnext o ho⟩

end Tabular

end Rollout
