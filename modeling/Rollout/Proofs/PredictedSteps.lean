/-
# What `dynamics` says of steps

The reply to `dynamics` is read off the table of the first instance; a step samples
the table of every instance.  The two agree in all sessions that are reached: each
instance moves as one of the outcomes in the reply for its state and action says.
The one thing that the reply does not know is the time limit.  For it, `SinceReset`
counts the steps of an instance by its history, not by a counter of its own.
-/
import Rollout.Proofs.Lockstep
import Rollout.Proofs.SessionRuns
import Rollout.Proofs.StandardWorlds

namespace Rollout

open Numeric (Double truncate)

/-! ## Steps since the last reset -/

section SinceReset

variable {σ : Type} [Env σ]

/-- **Steps since the last reset.**  An instance of `build` has taken so many steps since it was
built or last reset; calls that failed do not count. -/
inductive SinceReset (build : Builder σ) : σ → Nat → Prop
  | built {seed : UInt64} {e : σ} (h : build seed = .ok e) : SinceReset build e 0
  | reset {e e' : σ} {n : Nat} {o : Observation} (h : SinceReset build e n)
    (hr : Env.reset e = (.ok o, e')) : SinceReset build e' 0
  | failedReset {e e' : σ} {n : Nat} {f : Failure} (h : SinceReset build e n)
    (hr : Env.reset e = (.error f, e')) : SinceReset build e' n
  | step {e e' : σ} {n : Nat} {a : Action} {r : Step} (h : SinceReset build e n)
    (hs : Env.step a e = (.ok r, e')) : SinceReset build e' (n + 1)
  | failedStep {e e' : σ} {n : Nat} {a : Action} {f : Failure} (h : SinceReset build e n)
    (hs : Env.step a e = (.error f, e')) : SinceReset build e' n
  | render {e : σ} {n : Nat} (h : SinceReset build e n) : SinceReset build (Env.render e).2 n

/-- Every call of an instance keeps that there is such a number. -/
theorem SinceReset.kept {build : Builder σ} {space : Space}
    (hspace : ∀ e n, SinceReset build e n → Env.actionSpace e = space) :
    Kept (fun e => ∃ n, SinceReset build e n) space where
  actionSpace := by
    rintro e ⟨n, h⟩
    exact hspace e n h
  reset := by
    rintro e ⟨n, h⟩
    rcases hr : Env.reset e with ⟨f | o, e'⟩
    · exact ⟨n, h.failedReset hr⟩
    · exact ⟨0, h.reset hr⟩
  step := by
    rintro a e ⟨n, h⟩ -
    rcases hs : Env.step a e with ⟨f | r, e'⟩
    · exact ⟨n, h.failedStep hs⟩
    · exact ⟨n + 1, h.step hs⟩
  render := by
    rintro e ⟨n, h⟩
    exact ⟨n, h.render⟩

end SinceReset

/-! ## Tabular instances -/

/-- The instance has this table, this time limit and this counter of steps. -/
structure Tabular.Counts (table : TransitionTable) (limit : Option Nat) (n : Nat) (d : Tabular) :
    Prop where
  table : d.table = table
  limit : d.limit = limit
  steps : d.steps = n

section Tabular

variable {σ : Type} {wrap : Tabular → σ} {table : TransitionTable} {limit : Option Nat}

/-- Calls move an instance without another table or limit. -/
theorem Tabular.Counts.after {d d' : Tabular} {random : Generator} {state n steps : Nat}
    {lastAction : Option Int} (h : d.Counts table limit n)
    (hd : d' = { d with random, state, lastAction, steps }) : d'.Counts table limit steps := by
  rw [hd]
  exact ⟨h.table, h.limit, rfl⟩

/-- A constructor that builds tabular environments, all of one table and one time limit. -/
def Builder.GivesTabular (build : Builder σ) (wrap : Tabular → σ) (table : TransitionTable)
    (limit : Option Nat) : Prop :=
  ∀ seed e, build seed = .ok e → ∃ d : Tabular, e = wrap d ∧ d.Counts table limit 0

/-- Builders of a table, an initial distribution, a time limit and a picture are such. -/
theorem Builder.givesTabular_build (wrap : Tabular → σ) (table : TransitionTable)
    (initial : List Float) (limit : Option Nat) (picture : Option (List String)) :
    Builder.GivesTabular (fun seed =>
      (Tabular.build table initial seed).map fun d => wrap { d with limit, picture })
      wrap table limit := by
  intro seed e he
  obtain ⟨d, hd, rfl⟩ := map_eq_ok_iff.mp he
  unfold Tabular.build at hd
  split at hd
  · cases hd
    exact ⟨_, rfl, rfl, rfl, rfl⟩
  · cases hd

variable [Env σ] {build : Builder σ} {e : σ} {n : Nat}

/-- A tabular instance keeps its table and its limit, and its counter is the number of steps since
the last reset. -/
theorem SinceReset.tabular (hw : Embeds wrap) (hbuild : build.GivesTabular wrap table limit)
    (h : SinceReset build e n) : ∃ d : Tabular, e = wrap d ∧ d.Counts table limit n := by
  -- a call that fails moves the random numbers only, so that it leaves the counter as it was
  induction h with
  | built h => exact hbuild _ _ h
  | reset h hr ih =>
    obtain ⟨d, rfl, hd⟩ := ih
    rw [hw.reset, Prod.mk.injEq] at hr
    obtain ⟨random, state, -, -, hd'⟩ := Tabular.of_reset_eq_ok hr.1
    exact ⟨_, hr.2.symm, hd.after hd'⟩
  | failedReset h hr ih =>
    obtain ⟨d, rfl, hd⟩ := ih
    rw [hw.reset, Prod.mk.injEq] at hr
    obtain ⟨random, hd'⟩ := Tabular.of_reset_eq_error hr.1
    exact ⟨_, hr.2.symm, hd.steps ▸ hd.after hd'⟩
  | step h hs ih =>
    obtain ⟨d, rfl, hd⟩ := ih
    rw [hw.step, Prod.mk.injEq] at hs
    obtain ⟨_, _, _, _, random, -, -, -, -, -, hd'⟩ := Tabular.of_step_eq_ok hs.1
    exact ⟨_, hs.2.symm, hd.steps ▸ hd.after hd'⟩
  | failedStep h hs ih =>
    obtain ⟨d, rfl, hd⟩ := ih
    rw [hw.step, Prod.mk.injEq] at hs
    obtain ⟨random, hd'⟩ := Tabular.of_step_eq_error hs.1
    exact ⟨_, hs.2.symm, hd.steps ▸ hd.after hd'⟩
  | render h ih =>
    obtain ⟨d, rfl, hd⟩ := ih
    rw [hw.render]
    exact ⟨d, rfl, hd⟩

end Tabular

/-! ## Predictions -/

/-- **What outcomes predict** of an instance that a step moves to `moved`, and that shows `shown`
and is `after` in the end.  The four lists are equally long.  The step took one of the outcomes: its
next state, its reward, and its end unless the time limit cut the episode.  If the episode goes on,
the frame is the one of the next state; if it is over, the frame is the one of the reset that
followed. -/
structure Dynamics.Predicts (outcomes : Dynamics) (cut : Bool) (shown : Outcome)
    (moved after : Tabular) : Prop where
  nextStates : outcomes.nextState.length = outcomes.probability.length
  rewards : outcomes.reward.length = outcomes.probability.length
  ends : outcomes.done.length = outcomes.probability.length
  taken : ∃ (k : Nat) (reward : Double) (ended : Bool),
    outcomes.nextState[k]? = some moved.state ∧ outcomes.reward[k]? = some reward ∧
    outcomes.done[k]? = some ended ∧ shown.reward = reward.narrow ∧ shown.done = (ended || cut)
  goesOn : shown.done = false → shown.observation = Tabular.observe moved.state ∧ after = moved
  startsAgain : shown.done = true → Env.reset moved = (.ok shown.observation, after)

/-- Whether a time limit cuts an episode after so many steps. -/
def cutAfter (limit : Option Nat) (steps : Nat) : Bool := limit.any fun m => decide (m ≤ steps)

theorem Tabular.atLimit_eq {table : TransitionTable} {limit : Option Nat} {n : Nat} {d : Tabular}
    (h : d.Counts table limit n) : d.atLimit = cutAfter limit (n + 1) := by
  unfold atLimit cutAfter
  rw [h.limit, h.steps]
  rcases limit with _ | m
  · rfl
  · rfl

/-- What an instance shows of a step and of the reset that may have followed. -/
theorem Shows.of_step {σ : Type} [Env σ] {e e' : σ} {a : Action} {shown : Outcome}
    (h : Shows e (.step a) (.step shown) e') :
    ∃ r, (Env.step a e).1 = .ok r ∧ shown.reward = r.reward ∧ shown.done = r.done ∧
      (shown.done = false → shown.observation = r.observation ∧ e' = (Env.step a e).2) ∧
      (shown.done = true → Env.reset (Env.step a e).2 = (.ok shown.observation, e')) := by
  cases h with
  | goesOn hs hd =>
    rename_i r
    have hdone : r.done = false := by
      rw [← Bool.not_eq_true, Step.done, Bool.or_eq_true]
      exact hd
    refine ⟨r, by rw [hs], rfl, hdone.symm, ?_, ?_⟩
    · intro _
      exact ⟨rfl, by rw [hs]⟩
    · intro h
      cases h
  | startsAgain hs hd hr =>
    rename_i r _
    have hdone : r.done = true := by
      rw [Step.done, Bool.or_eq_true]
      exact hd
    refine ⟨r, by rw [hs], rfl, hdone.symm, ?_, ?_⟩
    · intro h
      cases h
    · intro _
      rw [hs]
      exact hr

/-- What embeds an environment shows what the environment shows. -/
theorem Embeds.shows {σ τ : Type} [Env σ] [Env τ] {wrap : σ → τ} (hw : Embeds wrap) {e : σ}
    {w : τ} {c : InstanceCall} {reply : InstanceReply} (h : Shows (wrap e) c reply w) :
    ∃ e', w = wrap e' ∧ Shows e c reply e' := by
  cases h with
  | reset hr =>
    rw [hw.reset, Prod.mk.injEq] at hr
    exact ⟨_, hr.2.symm, .reset (Prod.ext hr.1 rfl)⟩
  | goesOn hs hd =>
    rw [hw.step, Prod.mk.injEq] at hs
    exact ⟨_, hs.2.symm, .goesOn (Prod.ext hs.1 rfl) hd⟩
  | startsAgain hs hd hr =>
    rw [hw.step, Prod.mk.injEq] at hs
    rw [← hs.2, hw.reset, Prod.mk.injEq] at hr
    exact ⟨_, hr.2.symm, .startsAgain (Prod.ext hs.1 rfl) hd (Prod.ext hr.1 rfl)⟩

/-- A tabular instance on its own does what the outcomes of its state and its action predict. -/
theorem Tabular.predicts_of_shows {d d' : Tabular} {a : Action} {shown : Outcome}
    (h : Shows d (.step a) (.step shown) d') :
    ∃ (index : Nat) (os : List Transition), a = .discrete index ∧
      d.table.entry? d.state index = some os ∧
      (Session.dynamicsOf os).Predicts d.atLimit shown (step a d).2 d' := by
  obtain ⟨r, hr, hreward, hdone, hgoes, hover⟩ := h.of_step
  obtain ⟨index, os, k, o, random, rfl, hentry, -, hk, rfl, hmoved⟩ := of_step_eq_ok hr
  have hstate : (step (.discrete index) d).2.state = o.next := by rw [hmoved]
  have hlength : ∀ {α β : Type} (f : Transition → α) (g : Transition → β),
      (os.map f).length = (os.map g).length := by
    intro α β f g
    rw [List.length_map, List.length_map]
  have hget : ∀ {α : Type} (f : Transition → α), (os.map f)[k]? = some (f o) := by
    intro α f
    rw [List.getElem?_map, hk, Option.map_some]
  refine ⟨index, os, rfl, hentry, hlength _ _, hlength _ _, hlength _ _, ?_, ?_, hover⟩
  · rw [hstate]
    exact ⟨k, _, _, hget _, hget fun o => Double.ofFloat o.reward, hget _, hreward, hdone⟩
  · rw [hstate]
    exact hgoes

/-! ## Sessions -/

/-- What instance `i` shows in a step. -/
def SessionStep.row (i : Nat) (r : SessionStep) : Option Outcome :=
  match r.observation.rows[i]?, r.raw[i]?, r.done.data[i]? with
  | some observation, some reward, some done => some ⟨observation, reward, done⟩
  | _, _, _ => none

/-- What an instance shows of its end stands in the flags of the step. -/
theorem SessionStep.done_of_row {r : SessionStep} {i : Nat} {shown : Outcome}
    (h : r.row i = some shown) : r.done.data[i]? = some shown.done := by
  unfold row at h
  split at h
  · cases h
    assumption
  · cases h

/-- What a step of a batch shows of an instance, the step of the session shows of it too. -/
theorem SessionStep.row_of_batch {result : BatchStep} {i : Nat} {shown : InstanceReply}
    (h : (BatchReply.step result).row i = some shown) :
    ∃ outcome, shown = .step outcome ∧ (SessionStep.ofBatch result).row i = some outcome := by
  simp only [BatchReply.row] at h
  split at h
  · rename_i observation reward done ho hr hd
    cases h
    have ho' : (SessionStep.ofBatch result).observation.rows[i]? = some observation := ho
    have hr' : (SessionStep.ofBatch result).raw[i]? = some reward := hr
    have hd' : (SessionStep.ofBatch result).done.data[i]? = some done := hd
    refine ⟨_, rfl, ?_⟩
    unfold SessionStep.row
    rw [ho', hr', hd']
  · cases h

namespace Session

variable {σ : Type} {s : Session σ} {a : Active σ} {i : Nat} {e : σ}

/-- Instance `i` of the current environment. -/
def instance? (i : Nat) (s : Session σ) : Option σ := s.active.bind (·.batch.instances[i]?)

theorem instance?_of_active (ha : s.active = some a) : s.instance? i = a.batch.instances[i]? := by
  rw [instance?, ha, Option.bind_some]

variable [Env σ]

/-- If no drawing changes an instance, a step that succeeds leaves the instances as the batch
stepped them, and shows every one what its own call shows. -/
theorem shows_of_step_eq_ok (ha : s.active = some a) {actions : Tensor Double} {render : Bool}
    {r : SessionStep} (hr : (s.step actions render).result = .ok r)
    (hdraw : ∀ act, Batch.Fits act a.batch → ∀ e ∈ (a.batch.step act).2.instances,
      (Env.render e).2 = e) :
    ∃ act, batchAction a.batch.actionSpace actions = .ok act ∧
      ∀ i e, s.instance? i = some e → ∃ own outcome e', act.toList[i]? = some own ∧
        r.row i = some outcome ∧ (s.step actions render).after.instance? i = some e' ∧
        Shows e (.step own) (.step outcome) e' := by
  obtain ⟨act, result, hact, hb, rfl, hafter⟩ := step_eq_ok ha hr
  refine ⟨act, hact, ?_⟩
  intro i e he
  rw [instance?_of_active ha] at he
  have hcall : (a.batch.call (.step act)).1 = .ok (.step result) := by
    show (a.batch.step act).1.map BatchReply.step = _
    rw [hb]
    rfl
  obtain ⟨own, shown, e', hown, hshown, he', hs⟩ := Batch.shows_of_call_eq_ok hcall he
  obtain ⟨own', hown', rfl⟩ := Option.map_eq_some_iff.mp hown
  obtain ⟨outcome, rfl, hrow⟩ := SessionStep.row_of_batch hshown
  refine ⟨own', outcome, e', hown', hrow, ?_, hs⟩
  have hkept : (a.batch.step act).2.render.2.instances = (a.batch.step act).2.instances := by
    rw [Batch.instances_render, sweep_snd_eq_self_iff]
    intro j x e _ he _
    exact hdraw act (Batch.step_eq_ok hb).1 e (List.mem_of_getElem? he)
  rcases hafter with hafter | hafter
  · rw [hafter]
    exact he'
  · rw [hafter]
    show (a.batch.step act).2.render.2.instances[i]? = some e'
    rw [hkept]
    exact he'

/-- The answer of a table to a question for the outcomes of a state and an action. -/
def answer (table : TransitionTable) (state action : UInt64) : Except Rejection Dynamics :=
  match table.entry? state.toNat action.toNat with
  | none => .error (.noTransition state action)
  | some os => .ok (dynamicsOf os)

theorem dynamics_eq_answer {table : TransitionTable} (ha : s.active = some a)
    (ht : a.batch.table? = some table) (state action : UInt64) :
    s.dynamics state action = answer table state action := by
  unfold dynamics answer
  rcases h : table.entry? state.toNat action.toNat with _ | os
  · simp only [ha, ht, h]
  · simp only [ha, ht, h]

end Session

/-- A number that is cut to an integer fits a word. -/
theorem truncate_lt (x : Double) : truncate x < 2 ^ 63 := by
  unfold truncate
  split
  · decide
  · split
    · decide
    · decide
  · show max _ (min _ _) < _
    omega

/-- The outcomes that a question finds for a tabular instance and its action predict what it
shows. -/
theorem Tabular.predicts_of_answer {d d' : Tabular} {a : Action} {shown : Outcome}
    {table : TransitionTable} {limit : Option Nat} {n : Nat} (hd : d.Counts table limit n)
    (hstates : table.states < 2 ^ 64) {actions : Tensor Double} {i : Nat}
    (ha : (actions.data.map fun x => Action.discrete (truncate x))[i]? = some a)
    (h : Shows d (.step a) (.step shown) d') :
    ∃ (state action : UInt64) (outcomes : Dynamics), state.toNat = d.state ∧
      (actions.data.map truncate)[i]? = some (action.toNat : Int) ∧
      Session.answer table state action = .ok outcomes ∧
      outcomes.Predicts (cutAfter limit (n + 1)) shown
        (Env.step (.discrete action.toNat) d).2 d' := by
  obtain ⟨index, os, rfl, hentry, hpredicts⟩ := predicts_of_shows h
  rw [List.getElem?_map] at ha
  obtain ⟨x, hx, hindex⟩ := Option.map_eq_some_iff.mp ha
  rw [Action.discrete.injEq] at hindex
  -- state and action are words: one is below the table's size, the other was cut to one
  have hstate : d.state < 2 ^ 64 := by
    have hlt := (TransitionTable.of_entry?_eq_some hentry).1.1
    rw [hd.table] at hlt
    omega
  have haction : index < 2 ^ 64 := by
    have hlt := truncate_lt x
    omega
  have hs : (UInt64.ofNat d.state).toNat = d.state := UInt64.toNat_ofNat_of_lt' hstate
  have hi : (UInt64.ofNat index).toNat = index := UInt64.toNat_ofNat_of_lt' haction
  refine ⟨.ofNat d.state, .ofNat index, Session.dynamicsOf os, hs, ?_, ?_, ?_⟩
  · rw [List.getElem?_map, hx, Option.map_some, hindex, hi]
  · unfold Session.answer
    rw [hs, hi, ← hd.table, hentry]
  · rw [hi, ← atLimit_eq hd]
    exact hpredicts

namespace Session

variable {σ : Type} [Env σ] {s : Session σ} {registry : Registry σ} {config : SessionConfig}
  {name : String} {wrap : Tabular → σ} {table : TransitionTable} {limit : Option Nat}

/-- Every instance of a tabular environment has been stepped some number of times since its last
reset, in every session that is reached. -/
theorem Reachable.exists_sinceReset (hw : Embeds wrap)
    (hbuild : Builder.GivesTabular (registry.build name) wrap table limit)
    (h : Reachable registry config s) :
    Kept (fun e => ∃ n, SinceReset (registry.build name) e n) (.discrete table.actions) ∧
      s.Within name fun e => ∃ n, SinceReset (registry.build name) e n := by
  have hkept : Kept (fun e => ∃ n, SinceReset (registry.build name) e n)
      (.discrete table.actions) := by
    refine SinceReset.kept ?_
    intro e n he
    obtain ⟨d, rfl, hd⟩ := he.tabular hw hbuild
    rw [hw.actionSpace, ← hd.table]
    rfl
  exact ⟨hkept, hkept.within (fun seed e he => ⟨0, .built he⟩) h⟩

/-- **`dynamics` predicts steps.**  Let a name stand for tabular environments of one table and one
time limit, whatever their seeds and initial distributions.  In every session that is reached, with
any number of instances of that name, `dynamics` gives the answer of the table; and in a step that
succeeds, for every instance the question for its state and its action is answered, and the answer
predicts what the instance shows and where it goes.  The episode is cut once the instance, however
it came there, has taken as many steps since its last reset as the limit says. -/
theorem dynamics_predicts_steps (hw : Embeds wrap) (hstates : table.states < 2 ^ 64)
    (hbuild : Builder.GivesTabular (registry.build name) wrap table limit)
    (h : Reachable registry config s) (hname : s.envName? = some name) :
    (∀ state action, s.dynamics state action = answer table state action) ∧
    ∀ actions render r, (s.step actions render).result = .ok r → ∀ i e, s.instance? i = some e →
      (∃ n, SinceReset (registry.build name) e n) ∧
      ∀ n, SinceReset (registry.build name) e n →
        ∃ (d d' : Tabular) (state action : UInt64) (outcomes : Dynamics) (shown : Outcome),
          e = wrap d ∧ (s.step actions render).after.instance? i = some (wrap d') ∧
          state.toNat = d.state ∧ (actions.data.map truncate)[i]? = some (action.toNat : Int) ∧
          s.dynamics state action = .ok outcomes ∧ r.row i = some shown ∧
          outcomes.Predicts (cutAfter limit (n + 1)) shown
            (Env.step (.discrete action.toNat) d).2 d' := by
  obtain ⟨a, ha, rfl⟩ := Option.map_eq_some_iff.mp hname
  obtain ⟨hkept, hwithin⟩ := h.exists_sinceReset hw hbuild
  have hsince : ∀ e ∈ a.batch.instances, ∃ n, SinceReset (registry.build a.name) e n :=
    hwithin a ha rfl
  have hfirst : a.batch.first ∈ a.batch.instances := List.head_mem a.batch.nonempty
  -- the question goes to the first instance, whose table is the one of all instances
  have htable : a.batch.table? = some table := by
    obtain ⟨n, hn⟩ := hsince _ hfirst
    obtain ⟨d, hd, hcounts⟩ := hn.tabular hw hbuild
    show Env.table? a.batch.first = some table
    rw [hd, hw.table?, ← hcounts.table]
    rfl
  have hanswer := dynamics_eq_answer ha htable
  refine ⟨hanswer, ?_⟩
  intro actions render r hr i e he
  have hspace : a.batch.actionSpace = .discrete table.actions := hkept.actionSpace _ (hsince _ hfirst)
  have hdraw : ∀ act, Batch.Fits act a.batch → ∀ e ∈ (a.batch.step act).2.instances,
      (Env.render e).2 = e := by
    -- the instances that were moved are tabular too, and those are drawn without a change
    intro act _ e he
    obtain ⟨n, hn⟩ := hkept.step_batch hsince act e he
    obtain ⟨d, rfl, -⟩ := hn.tabular hw hbuild
    rw [hw.render]
    rfl
  obtain ⟨act, hact, hshows⟩ := shows_of_step_eq_ok ha hr hdraw
  rw [hspace] at hact
  obtain rfl := batchAction_discrete_eq_ok hact
  obtain ⟨own, shown, e', hown, hrow, he', hs⟩ := hshows i e he
  refine ⟨hsince e (List.mem_of_getElem? (instance?_of_active ha ▸ he)), ?_⟩
  intro n hn
  obtain ⟨d, rfl, hd⟩ := hn.tabular hw hbuild
  obtain ⟨d', rfl, hs'⟩ := hw.shows hs
  rw [BatchAction.toList, List.map_map] at hown
  obtain ⟨state, action, outcomes, hstate, haction, hquestion, hpredicts⟩ :=
    Tabular.predicts_of_answer hd hstates hown hs'
  rw [← hanswer] at hquestion
  exact ⟨d, d', state, action, outcomes, shown, rfl, he', hstate, haction, hquestion, hrow,
    hpredicts⟩

/-- A coin that shows zero or one, for two throws. -/
def coins : Registry World :=
  Registry.empty.register "Coin" fun seed =>
    (Tabular.build (.ofFn 2 1 fun _ _ => [⟨0.5, 0, 0.0, false⟩, ⟨0.5, 1, 1.0, false⟩])
      [0.5, 0.5] seed).map fun d => .tabular { d with limit := some 2, picture := none }

/-- All coins are thrown. -/
def throwCoins (s : Session World) : Call (Session World) SessionStep := s.step (.fill [2] ⟨0⟩) true

/-- How often each coin was thrown, by its own counter. -/
def throwCounts (s : Session World) : List (Option Nat) :=
  (s.active.toList.flatMap (·.batch.instances)).map fun
    | .tabular d => some d.steps
    | _ => none

/-- All coins are tabular environments of one table, with a limit of two steps. -/
theorem givesTabular_coins : Builder.GivesTabular (coins.build "Coin") World.tabular
    (.ofFn 2 1 fun _ _ => [⟨0.5, 0, 0.0, false⟩, ⟨0.5, 1, 1.0, false⟩]) (some 2) := by
  have hcoin : coins.build "Coin" = _ :=
    funext fun seed => by rw [coins, Registry.build_register, if_pos rfl]
  rw [hcoin]
  exact Builder.givesTabular_build _ _ _ _ _

/-- The counter of a coin is the number of its throws since the last reset. -/
theorem eq_of_throwCounts {s : Session World} {k n i : Nat} (hk : s.throwCounts = [some k, some k])
    {e : World} (he : s.instance? i = some e) (hn : SinceReset (coins.build "Coin") e n) :
    n = k := by
  obtain ⟨d, rfl, hd⟩ := hn.tabular World.embeds_tabular givesTabular_coins
  obtain ⟨a, ha, hi⟩ := Option.bind_eq_some_iff.mp he
  have hmem : some d.steps ∈ s.throwCounts := by
    refine List.mem_map.mpr ⟨_, List.mem_flatMap.mpr ⟨a, ?_, List.mem_of_getElem? hi⟩, rfl⟩
    rw [ha]
    exact List.mem_singleton_self a
  rw [hk] at hmem
  simp only [List.mem_cons, List.not_mem_nil, or_false, or_self, Option.some.injEq] at hmem
  rw [← hd.steps, hmem]

/-- Two coins are thrown twice.  After the first throw each shows its next state, which is one of
those in the reply; the second is cut, so that both show the frame of their reset. -/
theorem dynamics_predicts_steps_coins :
    let s := ((Session.start coins .usual).make "Coin" 2).after
    let s' := s.throwCoins.after
    (s.instance? 1).isSome ∧
    (∃ r, s.throwCoins.result = .ok r ∧ ∀ i e, s.instance? i = some e →
      ∃ (d : Tabular) (state action : UInt64) (outcomes : Dynamics) (shown : Outcome),
        s'.instance? i = some (.tabular d) ∧ s.dynamics state action = .ok outcomes ∧
        d.state ∈ outcomes.nextState ∧ r.row i = some shown ∧ shown.done = false ∧
        shown.observation = Tabular.observe d.state) ∧
    ∃ r, s'.throwCoins.result = .ok r ∧ ∀ i e, s'.instance? i = some e →
      ∃ (d d' : Tabular) (action : Nat) (shown : Outcome),
        e = .tabular d ∧ r.row i = some shown ∧ shown.done = true ∧
        Env.reset (Env.step (.discrete action) d).2 = (.ok shown.observation, d') := by
  intro s s'
  have hsteps := (dynamics_predicts_steps World.embeds_tabular (by decide) givesTabular_coins
    (.make _ _ .start : Reachable coins .usual s) (by decide +kernel)).2
  have hsteps' := (dynamics_predicts_steps World.embeds_tabular (by decide) givesTabular_coins
    (.step _ _ (.make _ _ .start) : Reachable coins .usual s') (by decide +kernel)).2
  have hdones : s.throwCoins.result.toOption.map (·.done.data) = some [false, false] := by
    decide +kernel
  have hok : s'.throwCoins.result.toOption.isSome = true := by decide +kernel
  have hcounts' : s'.throwCounts = [some 1, some 1] := by decide +kernel
  refine ⟨by decide +kernel, ?_, ?_⟩
  · rcases hr : s.throwCoins.result with f | r
    · rw [hr] at hdones
      cases hdones
    · refine ⟨r, rfl, ?_⟩
      intro i e he
      obtain ⟨⟨n, hn⟩, hall⟩ := hsteps _ _ r hr i e he
      obtain ⟨d, d', state, action, outcomes, shown, -, he', -, -, hanswer, hrow, hpredicts⟩ :=
        hall n hn
      have hdone : shown.done = false := by
        rw [hr] at hdones
        have hdata : r.done.data = [false, false] := Option.some.inj hdones
        have hmem := List.mem_of_getElem? (SessionStep.done_of_row hrow)
        simpa only [hdata, List.mem_cons, List.not_mem_nil, or_false, or_self] using hmem
      obtain ⟨hobs, rfl⟩ := hpredicts.goesOn hdone
      obtain ⟨k, _, _, hnext, -⟩ := hpredicts.taken
      exact ⟨_, state, action, outcomes, shown, he', hanswer, List.mem_of_getElem? hnext, hrow,
        hdone, hobs⟩
  · rcases hr : s'.throwCoins.result with f | r
    · rw [hr] at hok
      cases hok
    · refine ⟨r, rfl, ?_⟩
      intro i e he
      obtain ⟨⟨n, hn⟩, hall⟩ := hsteps' _ _ r hr i e he
      obtain ⟨d, d', _, action, _, shown, hd, -, -, -, -, hrow, hpredicts⟩ := hall n hn
      obtain ⟨_, _, ended, -, -, -, -, hdone⟩ := hpredicts.taken
      have hcut : cutAfter (some 2) (n + 1) = true := by
        rw [eq_of_throwCounts hcounts' he hn]
        rfl
      rw [hcut, Bool.or_true] at hdone
      exact ⟨d, d', action.toNat, shown, hd, hrow, hdone, hpredicts.startsAgain hdone⟩

end Session

end Rollout
