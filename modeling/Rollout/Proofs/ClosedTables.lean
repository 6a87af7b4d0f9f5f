/-
# Closed tables

A table is closed if every entry has an outcome and no outcome leads out of the table.
An environment with such a table never gets stuck: from the state in which it is built
it goes on from one state of the table to the next, whatever the probabilities say.  A
step is refused for its action only.  If there are not too many states the client is
shown the state itself, and not one near it (`closed_table_keeps_going`).
-/
import Rollout.Proofs.FailedCalls
import Rollout.Proofs.IntegerWords

namespace Rollout.Tabular

variable {t : TransitionTable} {initial : List Float} {e : Tabular}

/-! ## Observations -/

/-- The state that an observation shows. -/
def stateOf? (o : Observation) : Option Nat :=
  match o.shape, o.data with
  | [1], [x] => x.datum.natural?
  | _, _ => none

/-- States below `2 ^ 24` are shown as they are. -/
theorem stateOf?_observe {state : Nat} (h : state < 2 ^ 24) :
    stateOf? (observe state) = some state :=
  Numeric.natural?_ofNat h

/-! ## States of the table -/

/-- The environment has this table and this initial distribution, and is in a state of the table. -/
structure OnTable (t : TransitionTable) (initial : List Float) (e : Tabular) : Prop where
  table : e.table = t
  initial : e.initial = initial
  state : e.state < t.states

namespace OnTable

theorem of_build_eq_ok {seed : UInt64} (h : build t initial seed = .ok e) (hpos : 0 < t.states) :
    OnTable t initial e := by
  obtain ⟨-, htable, hinitial, hstate⟩ := Tabular.of_build_eq_ok h
  exact ⟨htable, hinitial, hstate ▸ hpos⟩

/-- A reset succeeds, and leads to a state of the table. -/
theorem reset_eq_ok (h : OnTable t initial e) (hlength : initial.length = t.states) :
    (reset e).1 = .ok (observe (reset e).2.state) ∧ OnTable t initial (reset e).2 := by
  have hpos : 0 < e.initial.length := by
    rw [h.initial, hlength]
    exact Nat.zero_lt_of_lt h.state
  obtain ⟨state, hstate, hreset⟩ := Tabular.reset_eq_ok (List.length_pos_iff.mp hpos)
  rw [h.initial, hlength] at hstate
  rw [hreset]
  exact ⟨rfl, h.table, h.initial, hstate⟩

/-- A step that succeeds shows the next state, which is one of the table. -/
theorem of_step_eq_ok (h : OnTable t initial e) (ht : t.Closed) {a : Action} {r : Step}
    (hr : (step a e).1 = .ok r) :
    r.observation = observe (step a e).2.state ∧ OnTable t initial (step a e).2 := by
  obtain ⟨index, os, k, o, random, -, hentry, -, hk, rfl, hafter⟩ := Tabular.of_step_eq_ok hr
  rw [h.table] at hentry
  have hnext := (ht os (TransitionTable.of_entry?_eq_some hentry).2).2 o (List.mem_of_getElem? hk)
  rw [hafter]
  exact ⟨rfl, h.table, h.initial, hnext⟩

/-- A step fails exactly with an action that is no index of the space. -/
theorem exists_step_eq_error_iff (h : OnTable t initial e) (ht : t.Closed) {a : Action} :
    (∃ f, (step a e).1 = .error f) ↔ ¬ ∃ i : Nat, i < t.actions ∧ a = .discrete i := by
  rw [← Space.fault?_discrete_eq_none_iff]
  have hspace : e.actionSpace = .discrete t.actions := by rw [actionSpace, h.table]
  rcases hfault : (Space.discrete t.actions).fault? a with _ | fault
  · have hclosed : e.table.Closed := h.table ▸ ht
    have hstate : e.state < e.table.states := h.table ▸ h.state
    obtain ⟨r, hr, -⟩ := step_eq_ok hclosed hstate (h.table ▸ hfault)
    rw [hr]
    refine iff_of_false ?_ (not_not_intro rfl)
    rintro ⟨f, hf⟩
    cases hf
  · have hfails : Fails e (.step a) (.action a fault) := .action (hspace ▸ hfault)
    refine iff_of_true ⟨_, EnvReply.failure?_step_eq_some_iff.mp hfails.call_eq.1⟩ ?_
    intro hnone
    cases hnone

/-- No call leaves the table. -/
theorem call (h : OnTable t initial e) (ht : t.Closed) (hlength : initial.length = t.states)
    (c : EnvCall) : OnTable t initial (Env.call c e).2 := by
  cases c with
  | seed s => exact ⟨h.table, h.initial, h.state⟩
  | reset => exact (h.reset_eq_ok hlength).2
  | step a =>
    show OnTable t initial (step a e).2
    rcases hs : (step a e).1 with f | r
    · obtain ⟨random, hafter⟩ := of_step_eq_error hs
      rw [hafter]
      exact ⟨h.table, h.initial, h.state⟩
    · exact (h.of_step_eq_ok ht hs).2
  | render => exact h

end OnTable

/-! ## Runs -/

/-- **A closed table keeps going.**  Let an environment be built with a closed table of at most
`2 ^ 24` states and any numbers as its initial distribution, one for each state, and be given any
time limit and any picture.  After any calls, some of which may have failed, it is in a state of the
table; a reset succeeds; and a step fails exactly if its action is no index below the number of
actions.  What a reset or a step shows is the next state, and the state can be read off it. -/
theorem closed_table_keeps_going (hpos : 0 < t.states) (hsize : t.states ≤ 2 ^ 24) (ht : t.Closed)
    (hlength : initial.length = t.states) (seed : UInt64) (limit : Option Nat)
    (picture : Option (List String)) :
    ∃ e₀, build t initial seed = .ok e₀ ∧ ∀ calls : List EnvCall,
      let e := Env.afterAll calls { e₀ with limit, picture }
      e.state < t.states ∧
      (∃ o, (Env.reset e).1 = .ok o ∧ o = observe (Env.reset e).2.state ∧
        stateOf? o = some (Env.reset e).2.state) ∧
      (∀ a, (∃ f, (Env.step a e).1 = .error f) ↔ ¬ ∃ i : Nat, i < t.actions ∧ a = .discrete i) ∧
      ∀ a r, (Env.step a e).1 = .ok r → r.observation = observe (Env.step a e).2.state ∧
        stateOf? r.observation = some (Env.step a e).2.state := by
  obtain ⟨e₀, hbuild⟩ : ∃ e₀, build t initial seed = .ok e₀ := by
    rw [build, if_pos hlength]
    exact ⟨_, rfl⟩
  refine ⟨e₀, hbuild, ?_⟩
  intro calls e
  have hstart : OnTable t initial { e₀ with limit, picture } := by
    have h := OnTable.of_build_eq_ok hbuild hpos
    exact ⟨h.table, h.initial, h.state⟩
  have he : OnTable t initial e :=
    Env.afterAll_induction hstart fun c _ _ h => h.call ht hlength c
  refine ⟨he.state, ?_, fun a => he.exists_step_eq_error_iff ht, ?_⟩
  · obtain ⟨hreset, hafter⟩ := he.reset_eq_ok hlength
    exact ⟨_, hreset, rfl, stateOf?_observe (Nat.lt_of_lt_of_le hafter.state hsize)⟩
  · intro a r hr
    obtain ⟨hshown, hafter⟩ := he.of_step_eq_ok ht hr
    refine ⟨hshown, ?_⟩
    rw [hshown]
    exact stateOf?_observe (Nat.lt_of_lt_of_le hafter.state hsize)

/-- A round of three states, with probabilities that are no numbers or zero. -/
def round : TransitionTable :=
  .ofFn 3 1 fun state _ => [⟨0.0 / 0.0, (state + 1) % 3, 1.0, false⟩, ⟨0.0, state, 0.0, true⟩]

/-- The round is walked with an initial distribution that makes no more sense, and a step that is
refused. -/
theorem closed_table_keeps_going_round :
    round.Closed ∧ ∃ e₀, build round [0.0 / 0.0, -1.0, 0.0] 5 = .ok e₀ ∧
      let e := Env.afterAll [.step (.discrete 0), .reset, .step (.discrete 1)]
        { e₀ with limit := some 2, picture := none }
      (∃ f, (Env.step (.discrete 1) e).1 = .error f) ∧
      ∃ r, (Env.step (.discrete 0) e).1 = .ok r ∧
        stateOf? r.observation = some (Env.step (.discrete 0) e).2.state := by
  have hclosed : round.Closed := by
    refine TransitionTable.closed_ofFn ?_
    intro state action _ _
    refine ⟨List.cons_ne_nil _ _, ?_⟩
    intro o ho
    simp only [List.mem_cons, List.not_mem_nil, or_false] at ho
    rcases ho with rfl | rfl
    · exact Nat.mod_lt _ (by decide)
    · assumption
  have hlength : ([0.0 / 0.0, -1.0, 0.0] : List Float).length = round.states := rfl
  obtain ⟨e₀, hbuild, hruns⟩ :=
    closed_table_keeps_going (by decide) (by decide) hclosed hlength 5 (some 2) none
  refine ⟨hclosed, e₀, hbuild, ?_⟩
  intro e
  obtain ⟨-, -, herror, hshown⟩ := hruns [.step (.discrete 0), .reset, .step (.discrete 1)]
  constructor
  · refine (herror (.discrete 1)).mpr ?_
    rintro ⟨i, hi, heq⟩
    cases heq
    exact absurd hi (by decide)
  · rcases hstep : (Env.step (.discrete 0) e).1 with f | r
    · exact absurd ⟨0, by decide, rfl⟩ ((herror (.discrete 0)).mp ⟨f, hstep⟩)
    · exact ⟨r, rfl, (hshown (.discrete 0) r hstep).2⟩

end Rollout.Tabular
