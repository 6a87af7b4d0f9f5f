/-
# Time limits

An environment with a time limit counts the steps of the episode, and ends the episode
with the step that reaches the limit.  The counter is its own; the reset that clears it
is the batch's, or the caller's.  Here the two meet: whatever resets and steps a batch
is asked for, the counter of an instance is the number of steps that the replies show
since its last reset, and it never reaches the limit.  So no instance goes on for as
many steps as its limit without an end: `time_limits_bound_episodes`.
-/
import Rollout.Proofs.PredictedSteps

namespace Rollout

variable {i k : Nat} {calls : List BatchCall} {replies : List BatchReply}

/-! ## Steps that the replies show -/

/-- The reply is to a step after which the episode goes on. -/
def InstanceReply.goesOn : InstanceReply → Bool
  | .frame _ => false
  | .step o => !o.done

/-- The reply is to a step after which the episode of instance `i` goes on. -/
def BatchReply.goesOn (i : Nat) : BatchReply → Bool
  | .frames _ => false
  | .step result => result.done[i]? == some false

/-- **The steps of instance `i` since its last reset**, which the batch was asked for or made itself
after the end of an episode. -/
def stepsSince (i : Nat) (replies : List BatchReply) : Nat :=
  (replies.reverse.takeWhile (·.goesOn i)).length

/-- The replies since the last reset, latest first: one more, or none. -/
theorem takeWhile_goesOn_concat (i : Nat) (replies : List BatchReply) (r : BatchReply) :
    (replies ++ [r]).reverse.takeWhile (·.goesOn i)
      = if r.goesOn i then r :: replies.reverse.takeWhile (·.goesOn i) else [] := by
  rw [List.reverse_append, List.reverse_singleton, List.singleton_append, List.takeWhile_cons]

/-- One more reply counts one step more, or ends the count. -/
theorem stepsSince_take_succ {r : BatchReply} (hr : replies[k]? = some r) :
    stepsSince i (replies.take (k + 1))
      = if r.goesOn i then stepsSince i (replies.take k) + 1 else 0 := by
  rw [stepsSince, List.take_add_one, hr, Option.toList_some, takeWhile_goesOn_concat]
  split
  · rw [List.length_cons, stepsSince]
  · rfl

/-- As many steps have been counted as went on one after another. -/
theorem le_stepsSince {m : Nat}
    (h : ∀ j < m, ∃ r, replies[k + j]? = some r ∧ r.goesOn i = true) :
    m ≤ stepsSince i (replies.take (k + m)) := by
  induction m with
  | zero => exact Nat.zero_le _
  | succ m ih =>
    obtain ⟨r, hr, hgoes⟩ := h m (Nat.lt_succ_self m)
    rw [← Nat.add_assoc, stepsSince_take_succ hr, if_pos hgoes]
    exact Nat.succ_le_succ (ih fun j hj => h j (Nat.lt_succ_of_lt hj))

/-- The end that a reply shows in a row is the one that it lists. -/
theorem BatchReply.done_of_row {result : BatchStep} {shown : InstanceReply}
    (h : (BatchReply.step result).row i = some shown) :
    ∃ o, shown = .step o ∧ result.done[i]? = some o.done := by
  simp only [row] at h
  split at h
  · rename_i hd
    cases h
    exact ⟨_, rfl, hd⟩
  · cases h

/-- Whether an episode goes on is read off what its instance shows. -/
theorem BatchReply.goesOn_of_row {r : BatchReply} {shown : InstanceReply}
    (h : r.row i = some shown) : r.goesOn i = shown.goesOn := by
  cases r with
  | frames observations =>
    obtain ⟨o, -, rfl⟩ := Option.map_eq_some_iff.mp h
    rfl
  | step result =>
    obtain ⟨o, rfl, hd⟩ := done_of_row h
    rw [goesOn, hd, InstanceReply.goesOn]
    cases o.done with
    | false => rfl
    | true => rfl

/-! ## Runs, call by call -/

namespace Batch

variable {σ : Type} [Env σ] {b : Batch σ}

/-- The batch after calls made one after another. -/
def afterAll (b : Batch σ) (calls : List BatchCall) : Batch σ :=
  calls.foldl (fun b c => (b.call c).2) b

theorem afterAll_take_succ {c : BatchCall} (hc : calls[k]? = some c) :
    b.afterAll (calls.take (k + 1)) = ((b.afterAll (calls.take k)).call c).2 := by
  rw [afterAll, List.take_add_one, hc, Option.toList_some, List.foldl_append]
  rfl

/-- The call at each place of a run succeeds with the reply at that place. -/
theorem call_of_replies?_eq_some (h : b.replies? calls = some replies) {c : BatchCall}
    (hc : calls[k]? = some c) :
    ∃ r, replies[k]? = some r ∧ ((b.afterAll (calls.take k)).call c).1 = .ok r := by
  induction calls generalizing b replies k with
  | nil => cases hc
  | cons c' calls ih =>
    obtain ⟨r, rest, hr, hrest, rfl⟩ := replies?_cons_eq_some_iff.mp h
    cases k with
    | zero =>
      cases hc
      exact ⟨r, rfl, hr⟩
    | succ k => exact ih hrest hc

theorem length_of_replies?_eq_some (h : b.replies? calls = some replies) :
    replies.length = calls.length := by
  induction calls generalizing b replies with
  | nil =>
    cases h
    rfl
  | cons c calls ih =>
    obtain ⟨r, rest, -, hrest, rfl⟩ := replies?_cons_eq_some_iff.mp h
    rw [List.length_cons, List.length_cons, ih hrest]

/-- The reply at each place of a run is the one to the call at that place. -/
theorem exists_call_of_replies?_eq_some (h : b.replies? calls = some replies) {r : BatchReply}
    (hr : replies[k]? = some r) :
    ∃ c, calls[k]? = some c ∧ ((b.afterAll (calls.take k)).call c).1 = .ok r := by
  have hlt : k < calls.length := by
    rw [← length_of_replies?_eq_some h]
    exact (List.getElem?_eq_some_iff.mp hr).1
  have hc := List.getElem?_eq_getElem hlt
  obtain ⟨r', hr', hcall⟩ := call_of_replies?_eq_some h hc
  rw [hr, Option.some.injEq] at hr'
  exact ⟨_, hc, hr' ▸ hcall⟩

/-- A step that succeeds tells of every instance whether its episode has ended. -/
theorem exists_done_of_call_eq_ok {act : BatchAction} {r : BatchReply}
    (h : (b.call (.step act)).1 = .ok r) (hi : i < b.count) :
    ∃ result done, r = .step result ∧ result.done[i]? = some done := by
  have hsized := sized_of_call_eq_ok h
  obtain ⟨result, -, rfl⟩ := map_eq_ok_iff.mp h
  have hlt : i < result.done.length := by
    rw [hsized.2.2]
    exact hi
  exact ⟨result, _, rfl, List.getElem?_eq_getElem hlt⟩

end Batch

/-! ## Counters with a limit -/

section Timed

variable {σ τ : Type} [Env σ] [Env τ] {count : σ → Nat} {limit : Nat} {P : σ → Prop} {e e' : σ}
  {b : Batch σ}

/-- **A counter with a time limit**, in the states of `P`: a reset clears it, a step moves it by one,
and the step with which it reaches the limit ends the episode. -/
structure Timed (count : σ → Nat) (limit : Nat) (P : σ → Prop) : Prop where
  reset : ∀ {e e' o}, P e → Env.reset e = (.ok o, e') → P e' ∧ count e' = 0
  step : ∀ {e e' a r}, P e → Env.step a e = (.ok r, e') →
    P e' ∧ count e' = count e + 1 ∧ (limit ≤ count e' → r.done = true)

/-- No step ends an episode before the limit. -/
def EndsAtLimit (count : σ → Nat) (limit : Nat) (P : σ → Prop) : Prop :=
  ∀ e a r e', P e → Env.step a e = (.ok r, e') → r.done = true → limit ≤ count e'

/-- What embeds an environment with a time limit has its time limit. -/
theorem Timed.embed {wrap : σ → τ} {count' : τ → Nat} (h : Timed count limit P) (hw : Embeds wrap)
    (hcount : ∀ e, count' (wrap e) = count e) :
    Timed count' limit fun w => ∃ e, w = wrap e ∧ P e where
  reset := by
    rintro _ w' o ⟨e, rfl, he⟩ hr
    rw [hw.reset, Prod.mk.injEq] at hr
    obtain ⟨he', hzero⟩ := h.reset he (Prod.ext hr.1 rfl)
    rw [← hr.2, hcount]
    exact ⟨⟨_, rfl, he'⟩, hzero⟩
  step := by
    rintro _ w' a r ⟨e, rfl, he⟩ hs
    rw [hw.step, Prod.mk.injEq] at hs
    obtain ⟨he', hnext, hlimit⟩ := h.step he (Prod.ext hs.1 rfl)
    rw [← hs.2, hcount, hcount]
    exact ⟨⟨_, rfl, he'⟩, hnext, hlimit⟩

/-- What embeds an environment that ends no episode early ends none early. -/
theorem EndsAtLimit.embed {wrap : σ → τ} {count' : τ → Nat} (h : EndsAtLimit count limit P)
    (hw : Embeds wrap) (hcount : ∀ e, count' (wrap e) = count e) :
    EndsAtLimit count' limit fun w => ∃ e, w = wrap e ∧ P e := by
  rintro _ a r w' ⟨e, rfl, he⟩ hs hdone
  rw [hw.step, Prod.mk.injEq] at hs
  rw [← hs.2, hcount]
  exact h e a r _ he (Prod.ext hs.1 rfl) hdone

namespace Timed

/-! ### One call -/

/-- A call leaves the counter below the limit, one higher if the episode goes on. -/
theorem of_shows (h : Timed count limit P) (hpos : 0 < limit) (he : P e) {c : InstanceCall}
    {shown : InstanceReply} (hs : Shows e c shown e') :
    P e' ∧ count e' = (if shown.goesOn then count e + 1 else 0) ∧ count e' < limit := by
  -- the counter stands at zero after a reset, and a step that brought it to the limit has one
  cases hs with
  | reset hr =>
    obtain ⟨he', hzero⟩ := h.reset he hr
    exact ⟨he', hzero, hzero ▸ hpos⟩
  | goesOn hstep hover =>
    obtain ⟨he', hnext, hlimit⟩ := h.step he hstep
    refine ⟨he', hnext, Nat.lt_of_not_le fun hge => hover ?_⟩
    have hdone := hlimit hge
    rwa [Step.done, Bool.or_eq_true] at hdone
  | startsAgain hstep _ hr =>
    obtain ⟨he', hzero⟩ := h.reset (h.step he hstep).1 hr
    exact ⟨he', hzero, hzero ▸ hpos⟩

/-- If only the limit ends an episode, it ends with the step that reaches the limit. -/
theorem done_iff_of_shows (h : Timed count limit P) (hends : EndsAtLimit count limit P) (he : P e)
    (hlt : count e < limit) {c : InstanceCall} {o : Outcome} (hs : Shows e c (.step o) e') :
    o.done = true ↔ count e + 1 = limit := by
  cases hs with
  | goesOn hstep hover =>
    obtain ⟨-, hnext, hlimit⟩ := h.step he hstep
    refine iff_of_false Bool.false_ne_true fun heq => hover ?_
    have hdone := hlimit (by omega)
    rwa [Step.done, Bool.or_eq_true] at hdone
  | startsAgain hstep hover _ =>
    obtain ⟨-, hnext, -⟩ := h.step he hstep
    have hge := hends _ _ _ _ he hstep (by rwa [Step.done, Bool.or_eq_true])
    exact iff_of_true rfl (by omega)

/-! ### Runs -/

/-- After every call of a run the counter is the number of steps since the last reset, and below the
limit. -/
theorem of_replies? (h : Timed count limit P) (hpos : 0 < limit)
    (hrun : b.replies? calls = some replies) (hi : b.instances[i]? = some e) (he : P e)
    (hzero : count e = 0) (hk : k ≤ calls.length) :
    ∃ e', (b.afterAll (calls.take k)).instances[i]? = some e' ∧ P e' ∧
      count e' = stepsSince i (replies.take k) ∧ count e' < limit := by
  induction k with
  | zero => exact ⟨e, hi, he, hzero, hzero ▸ hpos⟩
  | succ k ih =>
    obtain ⟨e₁, hi₁, he₁, hcount₁, -⟩ := ih (Nat.le_of_succ_le hk)
    have hc := List.getElem?_eq_getElem hk
    obtain ⟨r, hr, hcall⟩ := Batch.call_of_replies?_eq_some hrun hc
    obtain ⟨own, shown, e₂, -, hshown, hi₂, hs⟩ := Batch.shows_of_call_eq_ok hcall hi₁
    obtain ⟨he₂, hcount₂, hlt₂⟩ := h.of_shows hpos he₁ hs
    refine ⟨e₂, ?_, he₂, ?_, hlt₂⟩
    · rw [Batch.afterAll_take_succ hc]
      exact hi₂
    · rw [stepsSince_take_succ hr, BatchReply.goesOn_of_row hshown, hcount₂, hcount₁]

/-- As many steps one after another as the limit says end an episode. -/
theorem exists_done_of_replies? (h : Timed count limit P) (hpos : 0 < limit)
    (hrun : b.replies? calls = some replies) (hi : b.instances[i]? = some e) (he : P e)
    (hzero : count e = 0) (hsteps : ∀ j < limit, ∃ act, calls[k + j]? = some (.step act)) :
    ∃ j < limit, ∃ result, replies[k + j]? = some (.step result) ∧
      result.done[i]? = some true := by
  refine Classical.byContradiction fun hnone => ?_
  have hgoes : ∀ j < limit, ∃ r, replies[k + j]? = some r ∧ r.goesOn i = true := by
    intro j hj
    obtain ⟨act, hact⟩ := hsteps j hj
    have hlt := (List.getElem?_eq_some_iff.mp hact).1
    obtain ⟨e', hi', -⟩ := h.of_replies? hpos hrun hi he hzero (Nat.le_of_lt hlt)
    obtain ⟨r, hr, hcall⟩ := Batch.call_of_replies?_eq_some hrun hact
    obtain ⟨result, done, rfl, hdone⟩ :=
      Batch.exists_done_of_call_eq_ok hcall (List.getElem?_eq_some_iff.mp hi').1
    refine ⟨_, hr, ?_⟩
    cases done with
    | false => rw [BatchReply.goesOn, hdone, beq_self_eq_true]
    | true => exact absurd ⟨j, hj, result, hr, hdone⟩ hnone
  -- the counter would have reached the limit with the last of these steps
  obtain ⟨act, hlast⟩ := hsteps (limit - 1) (by omega)
  have hlt := (List.getElem?_eq_some_iff.mp hlast).1
  obtain ⟨e', -, -, hcount, hbelow⟩ :=
    h.of_replies? hpos hrun hi he hzero (by omega : k + limit ≤ calls.length)
  have hge := le_stepsSince hgoes
  omega

/-- If only the limit ends an episode, the steps that end one are those that reach the limit. -/
theorem done_iff_of_replies? (h : Timed count limit P) (hends : EndsAtLimit count limit P)
    (hpos : 0 < limit) (hrun : b.replies? calls = some replies) (hi : b.instances[i]? = some e)
    (he : P e) (hzero : count e = 0) {result : BatchStep}
    (hr : replies[k]? = some (.step result)) :
    result.done[i]? = some true ↔ stepsSince i (replies.take k) + 1 = limit := by
  obtain ⟨c, hc, hcall⟩ := Batch.exists_call_of_replies?_eq_some hrun hr
  obtain ⟨e', hi', he', hcount, hbelow⟩ := h.of_replies? hpos hrun hi he hzero
    (Nat.le_of_lt (List.getElem?_eq_some_iff.mp hc).1)
  obtain ⟨own, shown, e'', -, hshown, -, hs⟩ := Batch.shows_of_call_eq_ok hcall hi'
  obtain ⟨o, rfl, hdone⟩ := BatchReply.done_of_row hshown
  rw [hdone, Option.some.injEq, ← hcount]
  exact h.done_iff_of_shows hends he' hbelow hs

end Timed

end Timed

/-! ## The limits of the environments -/

/-- A tabular environment with a limit counts its steps up to it. -/
theorem Tabular.timed (limit : Nat) :
    Timed Tabular.steps limit fun e => e.limit = some limit where
  reset := by
    intro e e' o he hr
    have hok : (reset e).1 = .ok o := congrArg Prod.fst hr
    have hafter : (reset e).2 = e' := congrArg Prod.snd hr
    obtain ⟨random, state, -, -, hreset⟩ := of_reset_eq_ok hok
    rw [← hafter, hreset]
    exact ⟨he, rfl⟩
  step := by
    intro e e' a r he hs
    have hok : (step a e).1 = .ok r := congrArg Prod.fst hs
    have hafter : (step a e).2 = e' := congrArg Prod.snd hs
    obtain ⟨index, os, j, o, random, -, -, -, -, rfl, hstep⟩ := of_step_eq_ok hok
    rw [← hafter, hstep]
    refine ⟨he, rfl, ?_⟩
    intro hge
    have hlimit : e.atLimit = true := by
      unfold atLimit
      rw [he]
      exact decide_eq_true hge
    rw [Step.done, hlimit, Bool.or_true]

theorem CartPole.timed : Timed CartPole.steps 500 fun _ => True where
  reset := by
    intro e e' o _ hr
    cases hr
    exact ⟨trivial, rfl⟩
  step := by
    intro e e' a r _ hs
    change step a e = _ at hs
    rw [step] at hs
    split at hs
    · cases hs
    · cases hs
      refine ⟨trivial, rfl, ?_⟩
      intro hge
      rw [Step.done]
      have hlimit : decide (stepLimit ≤ _) = true := decide_eq_true hge
      rw [hlimit, Bool.and_true, Bool.or_not_self]

/-- What a step of the pendulum gives. -/
theorem Pendulum.of_step_eq_ok {e e' : Pendulum} {a : Action} {r : Step}
    (h : Env.step a e = (.ok r, e')) :
    e'.steps = e.steps + 1 ∧ (r.done = true ↔ 200 ≤ e'.steps) := by
  change step a e = _ at h
  unfold step at h
  split at h
  · cases h
  · cases h
  · cases h
    refine ⟨rfl, ?_⟩
    rw [Step.done, Bool.false_or, decide_eq_true_iff]
    rfl

/-- A pendulum counts its steps up to 200. -/
theorem Pendulum.timed : Timed Pendulum.steps 200 fun _ => True where
  reset := by
    intro e e' o _ hr
    cases hr
    exact ⟨trivial, rfl⟩
  step _ hs := ⟨trivial, (of_step_eq_ok hs).1, (of_step_eq_ok hs).2.mpr⟩

/-- No step ends the episode of a pendulum before. -/
theorem Pendulum.endsAtLimit : EndsAtLimit Pendulum.steps 200 fun _ => True :=
  fun _ _ _ _ _ hs => (of_step_eq_ok hs).2.mp

namespace World

/-- The counter of a standard environment. -/
def steps : World → Nat
  | .tabular e => e.steps
  | .cartPole e => e.steps
  | .pendulum e => e.steps

theorem timed_pendulum : Timed World.steps 200 fun w => ∃ e, w = .pendulum e ∧ True :=
  Pendulum.timed.embed embeds_pendulum fun _ => rfl

theorem endsAtLimit_pendulum :
    EndsAtLimit World.steps 200 fun w => ∃ e, w = .pendulum e ∧ True :=
  Pendulum.endsAtLimit.embed embeds_pendulum fun _ => rfl

/-- **Environments with a time limit**, as they are built. -/
inductive Limited : Nat → World → Prop
  | tabular {table : TransitionTable} {initial : List Float} {seed : UInt64} {e : Tabular}
      {limit : Nat} {picture : Option (List String)} (hpos : 0 < limit)
      (h : Tabular.build table initial seed = .ok e) :
      Limited limit (.tabular { e with limit := some limit, picture })
  | cartPole (seed : UInt64) : Limited 500 (.cartPole (.start seed))
  | pendulum (seed : UInt64) : Limited 200 (.pendulum (.start seed))

namespace Limited

variable {limit : Nat} {w : World}

theorem limit_pos (h : Limited limit w) : 0 < limit := by
  cases h with
  | tabular hpos _ => exact hpos
  | cartPole seed => decide
  | pendulum seed => decide

/-- What has just been built has counted no step. -/
theorem steps_eq_zero (h : Limited limit w) : w.steps = 0 := by
  cases h with
  | tabular _ h =>
    unfold Tabular.build at h
    split at h
    · cases h
      rfl
    · cases h
  | cartPole seed => rfl
  | pendulum seed => rfl

/-- An environment with a time limit counts up to it. -/
theorem exists_timed (h : Limited limit w) : ∃ P, Timed World.steps limit P ∧ P w := by
  cases h with
  | tabular _ _ =>
    exact ⟨_, (Tabular.timed limit).embed embeds_tabular fun _ => rfl, _, rfl, rfl⟩
  | cartPole seed =>
    exact ⟨_, CartPole.timed.embed embeds_cartPole fun _ => rfl, _, rfl, trivial⟩
  | pendulum seed =>
    exact ⟨_, timed_pendulum, _, rfl, trivial⟩

end Limited

/-- A grid is built with a limit of a hundred steps. -/
theorem limited_grid {seed : UInt64} {d : Tabular} (h : Grid.build seed = .ok d) :
    Limited 100 (.tabular d) := by
  obtain ⟨e, he, rfl⟩ := map_eq_ok_iff.mp h
  exact .tabular (by decide) he

/-- A frozen lake of any map is built with a limit of a hundred steps. -/
theorem limited_frozenLake {map : List String} {slippery : Bool} {seed : UInt64} {d : Tabular}
    (h : FrozenLake.build map slippery seed = .ok d) : Limited 100 (.tabular d) := by
  rw [FrozenLake.build] at h
  rcases hm : FrozenLake.Cells.ofMap? map with _ | c
  · rw [hm] at h
    cases h
  · simp only [hm] at h
    split at h
    · cases h
    · obtain ⟨e, he, rfl⟩ := map_eq_ok_iff.mp h
      exact .tabular (by decide) he

end World

/-! ## Batches -/

namespace Batch

open World (Limited)

/-- **Time limits bound every episode.**  The open grid and the frozen lakes have a limit of one
hundred steps, the cart five hundred and the pendulum two hundred, and every table can be given one.
Let a batch, whose rewards may be scaled, make a run of resets and steps that succeed.  Then for each
of its instances that was built with a time limit the counter is the number of steps since the last
reset after every call, and below the limit.  Among as many steps one after another as the limit
says the instance reports an end; and the pendulum reports one exactly with the step that is the
two hundredth since its last reset. -/
theorem time_limits_bound_episodes :
    (∀ seed d, Grid.build seed = .ok d → Limited 100 (.tabular d)) ∧
    (∀ map slippery seed d, FrozenLake.build map slippery seed = .ok d →
      Limited 100 (.tabular d)) ∧
    (∀ seed, Limited 500 (.cartPole (.start seed)) ∧ Limited 200 (.pendulum (.start seed))) ∧
    ∀ (b : Batch World) (calls : List BatchCall) (replies : List BatchReply),
      b.replies? calls = some replies →
      ∀ i w limit, b.instances[i]? = some w → Limited limit w →
        (∀ k ≤ calls.length, ∃ w', (b.afterAll (calls.take k)).instances[i]? = some w' ∧
          w'.steps = stepsSince i (replies.take k) ∧ w'.steps < limit) ∧
        (∀ k, (∀ j < limit, ∃ act, calls[k + j]? = some (.step act)) →
          ∃ j < limit, ∃ result, replies[k + j]? = some (.step result) ∧
            result.done[i]? = some true) ∧
        ∀ e, w = .pendulum e → ∀ k result, replies[k]? = some (.step result) →
          (result.done[i]? = some true ↔ stepsSince i (replies.take k) + 1 = 200) := by
  refine ⟨fun _ _ => World.limited_grid, fun _ _ _ _ => World.limited_frozenLake,
    fun seed => ⟨.cartPole seed, .pendulum seed⟩, ?_⟩
  intro b calls replies hrun i w limit hi hw
  obtain ⟨P, htimed, hP⟩ := hw.exists_timed
  refine ⟨?_, ?_, ?_⟩
  · intro k hk
    obtain ⟨w', hi', -, hcount, hlt⟩ :=
      htimed.of_replies? hw.limit_pos hrun hi hP hw.steps_eq_zero hk
    exact ⟨w', hi', hcount, hlt⟩
  · intro k
    exact htimed.exists_done_of_replies? hw.limit_pos hrun hi hP hw.steps_eq_zero
  · rintro e rfl k result hr
    exact World.timed_pendulum.done_iff_of_replies? World.endsAtLimit_pendulum (by decide) hrun hi
      ⟨e, rfl, trivial⟩ hw.steps_eq_zero hr

/-- Two walks on the open grid that are cut after two steps. -/
def shortWalks (e : Tabular) : Batch World :=
  let w : World := .tabular { e with limit := some 2, picture := none }
  ⟨[w, w], none, List.cons_ne_nil _ _⟩

/-- A step, a reset, and two steps. -/
def shortRun : List BatchCall :=
  [.step (.discrete [2, 1]), .reset, .step (.discrete [1, 0]), .step (.discrete [3, 3])]

/-- The counter of the second walk stands at one before the last step, which is cut. -/
theorem time_limits_bound_episodes_shortWalks :
    ∃ e replies, Tabular.build Grid.table (1.0 :: List.replicate 15 0.0) 0 = .ok e ∧
      (shortWalks e).replies? shortRun = some replies ∧
      (∃ w, ((shortWalks e).afterAll (shortRun.take 3)).instances[1]? = some w ∧ w.steps = 1) ∧
      ∃ j < 2, ∃ result, replies[2 + j]? = some (.step result) ∧ result.done[1]? = some true := by
  have hcount : (Tabular.build Grid.table (1.0 :: List.replicate 15 0.0) 0).toOption.bind (fun e =>
      ((shortWalks e).replies? shortRun).map fun replies => stepsSince 1 (replies.take 3))
        = some 1 := by
    decide +kernel
  rcases he : Tabular.build Grid.table (1.0 :: List.replicate 15 0.0) 0 with f | e
  · rw [he] at hcount
    cases hcount
  · rw [he] at hcount
    obtain ⟨replies, hrun, hone⟩ := Option.map_eq_some_iff.mp hcount
    obtain ⟨hcounts, hends, -⟩ := time_limits_bound_episodes.2.2.2 (shortWalks e) shortRun replies
      hrun 1 _ 2 rfl (.tabular (by decide) he)
    obtain ⟨w, hw, hsteps, -⟩ := hcounts 3 (by decide)
    refine ⟨e, replies, rfl, hrun, ⟨w, hw, hsteps.trans hone⟩, hends 2 ?_⟩
    intro j hj
    obtain rfl | rfl : j = 0 ∨ j = 1 := by omega
    · exact ⟨_, rfl⟩
    · exact ⟨_, rfl⟩

end Batch

end Rollout
