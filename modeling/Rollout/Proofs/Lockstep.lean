/-
# Batches refine independent instances

A batch drives its instances in lockstep.  Here an instance is followed on its
own: `Alone e calls replies` says what a single instance that starts in the state
`e` shows for a row of calls.  The main statement, `rows_of_replies?`, reads every
row of a batch's replies as the replies of such an instance, whatever the batch
is asked to do and for as long as its calls succeed.
-/
import Rollout.Proofs.BatchCalls
import Rollout.World.Standard

namespace Rollout

open Numeric (Single)

variable {σ : Type} [Env σ]

/-! ## Calls and replies -/

/-- What a batch is asked to do. -/
inductive BatchCall where
  | reset
  | step (act : BatchAction)

/-- What a batch gives back. -/
inductive BatchReply where
  /-- The frames of a reset. -/
  | frames (observations : Tensor Single)
  | step (result : BatchStep)

/-- What a single instance is asked to do. -/
inductive InstanceCall where
  | reset
  | step (a : Action)

/-- What a single instance gives back. -/
inductive InstanceReply where
  /-- The frame of a reset. -/
  | frame (observation : Observation)
  | step (outcome : Outcome)
  deriving DecidableEq

/-- The call of instance `i`; there is none if the actions do not reach so far. -/
def BatchCall.row (i : Nat) : BatchCall → Option InstanceCall
  | .reset => some .reset
  | .step act => act.toList[i]?.map .step

/-- The reply of instance `i`: its row of the observations, and its reward before scaling and
its end of episode in a step. -/
def BatchReply.row (i : Nat) : BatchReply → Option InstanceReply
  | .frames observations => observations.rows[i]?.map .frame
  | .step result =>
    match result.observations.rows[i]?, result.raw[i]?, result.done[i]? with
    | some observation, some reward, some done => some (.step ⟨observation, reward, done⟩)
    | _, _, _ => none

/-- Every list of a reply has one element per instance. -/
def BatchReply.Sized (count : Nat) : BatchReply → Prop
  | .frames observations => observations.leading = count
  | .step result => result.observations.leading = count ∧ result.raw.length = count ∧
      result.done.length = count

namespace Batch

/-- A call of a batch. -/
def call (b : Batch σ) : BatchCall → Except Failure BatchReply × Batch σ
  | .reset => (b.reset.1.map .frames, b.reset.2)
  | .step act => ((b.step act).1.map .step, (b.step act).2)

/-- The replies to calls made one after another, if all of them succeed. -/
def replies? (b : Batch σ) : List BatchCall → Option (List BatchReply)
  | [] => some []
  | c :: calls =>
    match b.call c with
    | (.error _, _) => none
    | (.ok r, b') => (b'.replies? calls).map (r :: ·)

end Batch

/-! ## Instances on their own -/

/-- **One call of a single instance.**  After a step that terminated or truncated the episode
the instance is reset at once: its frame is then the one of the reset, while the reward and the
end are those of the finished step. -/
inductive Shows : σ → InstanceCall → InstanceReply → σ → Prop
  | reset {e e' : σ} {o : Observation} :
      Env.reset e = (.ok o, e') → Shows e .reset (.frame o) e'
  | goesOn {e e' : σ} {a : Action} {s : Step} :
      Env.step a e = (.ok s, e') → ¬ (s.terminated ∨ s.truncated) →
      Shows e (.step a) (.step ⟨s.observation, s.reward, false⟩) e'
  | startsAgain {e e' e'' : σ} {a : Action} {s : Step} {o : Observation} :
      Env.step a e = (.ok s, e') → s.terminated ∨ s.truncated → Env.reset e' = (.ok o, e'') →
      Shows e (.step a) (.step ⟨o, s.reward, true⟩) e''

/-- **A single instance**, built alone and called again and again. -/
inductive Alone : σ → List InstanceCall → List InstanceReply → Prop
  | nil (e : σ) : Alone e [] []
  | cons {e e' : σ} {c : InstanceCall} {r : InstanceReply} {calls : List InstanceCall}
      {replies : List InstanceReply} :
      Shows e c r e' → Alone e' calls replies → Alone e (c :: calls) (r :: replies)

/-- A call of a single instance has one outcome. -/
theorem Shows.unique {e e' e'' : σ} {c : InstanceCall} {r r' : InstanceReply}
    (h : Shows e c r e') (h' : Shows e c r' e'') : r = r' ∧ e' = e'' := by
  cases h with
  | reset hr =>
    cases h' with
    | reset hr' =>
      rw [hr] at hr'
      cases hr'
      exact ⟨rfl, rfl⟩
  | goesOn hs hd =>
    cases h' with
    | goesOn hs' hd' =>
      rw [hs] at hs'
      cases hs'
      exact ⟨rfl, rfl⟩
    | startsAgain hs' hd' hr' =>
      rw [hs] at hs'
      cases hs'
      exact absurd hd' hd
  | startsAgain hs hd hr =>
    cases h' with
    | goesOn hs' hd' =>
      rw [hs] at hs'
      cases hs'
      exact absurd hd hd'
    | startsAgain hs' hd' hr' =>
      rw [hs] at hs'
      cases hs'
      rw [hr] at hr'
      cases hr'
      exact ⟨rfl, rfl⟩

/-- A single instance has one row of replies. -/
theorem Alone.unique {e : σ} {calls : List InstanceCall} {replies replies' : List InstanceReply}
    (h : Alone e calls replies) (h' : Alone e calls replies') : replies = replies' := by
  induction h generalizing replies' with
  | nil e =>
    cases h' with
    | nil => rfl
  | cons hs _ ih =>
    cases h' with
    | cons hs' ht' =>
      obtain ⟨rfl, rfl⟩ := hs.unique hs'
      rw [ih ht']

/-- What a batch does with an instance in a step is what the instance does alone. -/
theorem shows_of_stepOrRestart {a : Action} {e : σ} {o : Outcome}
    (h : (stepOrRestart a e).1 = .ok o) :
    Shows e (.step a) (.step o) (stepOrRestart a e).2 := by
  rcases hs : Env.step a e with ⟨f | s, e'⟩
  · rw [stepOrRestart, hs] at h
    cases h
  · by_cases hd : s.done
    · rcases hr : Env.reset e' with ⟨f | frame, e''⟩
      · simp only [stepOrRestart, hs, if_pos hd, hr] at h
        cases h
      · simp only [stepOrRestart, hs, if_pos hd, hr] at h ⊢
        cases h
        refine .startsAgain hs ?_ hr
        rwa [Step.done, Bool.or_eq_true] at hd
    · simp only [stepOrRestart, hs, if_neg hd] at h ⊢
      cases h
      refine .goesOn hs ?_
      rwa [Step.done, Bool.or_eq_true] at hd

/-! ## One call of a batch -/

namespace Batch

variable {b b' : Batch σ}

/-- A call that succeeds moves instance `i` as its own call does, and row `i` of the reply is
its own reply. -/
theorem shows_of_call_eq_ok {c : BatchCall} {r : BatchReply} (h : (b.call c).1 = .ok r)
    {i : Nat} {e : σ} (he : b.instances[i]? = some e) :
    ∃ own shown e', c.row i = some own ∧ r.row i = some shown ∧
      (b.call c).2.instances[i]? = some e' ∧ Shows e own shown e' := by
  cases c with
  | reset =>
    obtain ⟨t, hr, rfl⟩ := map_eq_ok_iff.mp h
    obtain ⟨os, hs, ht⟩ := reset_eq_ok hr
    obtain ⟨o, ho, hrun⟩ := getElem?_of_sweep_eq_ok hs he he
    refine ⟨.reset, .frame o, (Env.reset e).2, rfl, ?_, ?_, ?_⟩
    · rw [BatchReply.row, Tensor.rows_of_stack_eq_ok ht, ho, Option.map_some]
    · exact getElem?_sweep_of_reached he he (reached_of_sweep_eq_ok hs)
    · exact .reset (Prod.ext hrun rfl)
  | step act =>
    obtain ⟨result, hr, rfl⟩ := map_eq_ok_iff.mp h
    obtain ⟨hfit, outcomes, t, hs, ht, rfl⟩ := step_eq_ok hr
    obtain ⟨a, ha⟩ := hfit.exists_action he
    obtain ⟨o, ho, hrun⟩ := getElem?_of_sweep_eq_ok hs ha he
    refine ⟨.step a, .step o, (stepOrRestart a e).2, ?_, ?_, ?_, shows_of_stepOrRestart hrun⟩
    · rw [BatchCall.row, ha, Option.map_some]
    · simp only [BatchReply.row, stepResult, Tensor.rows_of_stack_eq_ok ht, List.getElem?_map,
        ho, Option.map_some]
    · rw [call, instances_step_of_fits hfit]
      exact getElem?_sweep_of_reached ha he (reached_of_sweep_eq_ok hs)

/-- A reply has one element per instance. -/
theorem sized_of_call_eq_ok {c : BatchCall} {r : BatchReply} (h : (b.call c).1 = .ok r) :
    r.Sized b.count := by
  cases c with
  | reset =>
    obtain ⟨t, hr, rfl⟩ := map_eq_ok_iff.mp h
    obtain ⟨os, hs, ht⟩ := reset_eq_ok hr
    rw [BatchReply.Sized, Tensor.leading_of_stack_eq_ok ht, length_of_sweep_eq_ok hs rfl, count]
  | step act =>
    obtain ⟨result, hr, rfl⟩ := map_eq_ok_iff.mp h
    obtain ⟨hfit, outcomes, t, hs, ht, rfl⟩ := step_eq_ok hr
    have hl : outcomes.length = b.count :=
      length_of_sweep_eq_ok hs (act.length_toList.trans hfit.1)
    refine ⟨?_, ?_, ?_⟩
    · rw [stepResult, Tensor.leading_of_stack_eq_ok ht, List.length_map, hl]
    · rw [stepResult, List.length_map, hl]
    · rw [stepResult, List.length_map, hl]

/-- A call keeps the number of instances. -/
theorem count_call (b : Batch σ) (c : BatchCall) : (b.call c).2.count = b.count := by
  cases c with
  | reset => exact length_sweep ..
  | step act => exact length_instances_step act b

/-- A batch without a scaler keeps having none. -/
theorem scaler_call_of_none (c : BatchCall) {r : BatchReply} (h : (b.call c).1 = .ok r)
    (hsc : b.scaler = none) : (b.call c).2.scaler = none ∧
      ∀ result, r = .step result → result.rewards = result.raw := by
  cases c with
  | reset =>
    obtain ⟨t, -, rfl⟩ := map_eq_ok_iff.mp h
    refine ⟨?_, fun result hr => by cases hr⟩
    rw [call, b.reset_eq.2.2, hsc, Option.map_none]
  | step act =>
    obtain ⟨result, hr, rfl⟩ := map_eq_ok_iff.mp h
    obtain ⟨hfit, outcomes, t, hs, ht, rfl⟩ := step_eq_ok hr
    constructor
    · rw [call, (step_of_stack_ok hfit hs ht).2, stepScaler, hsc, scaleRewards]
    · rintro _ ⟨⟩
      rw [stepResult, hsc, scaleRewards]

/-! ## Runs -/

/-- What a run of one call more gives. -/
theorem replies?_cons_eq_some_iff {c : BatchCall} {calls : List BatchCall}
    {replies : List BatchReply} :
    b.replies? (c :: calls) = some replies ↔ ∃ r rest, (b.call c).1 = .ok r ∧
      (b.call c).2.replies? calls = some rest ∧ replies = r :: rest := by
  rw [replies?]
  rcases hc : b.call c with ⟨f | r, b'⟩
  · simp
  · constructor
    · intro h
      obtain ⟨rest, hr, rfl⟩ := Option.map_eq_some_iff.mp h
      exact ⟨r, rest, rfl, hr, rfl⟩
    · rintro ⟨_, rest, ⟨⟩, hr, rfl⟩
      exact Option.map_eq_some_iff.mpr ⟨rest, hr, rfl⟩

/-- **Runs, row by row.**  Row `i` of the replies is what instance `i` shows alone. -/
theorem alone_of_replies?_eq_some {calls : List BatchCall} {replies : List BatchReply}
    (h : b.replies? calls = some replies) {i : Nat} {e : σ} (he : b.instances[i]? = some e) :
    ∃ own shown, calls.map (·.row i) = own.map some ∧ replies.map (·.row i) = shown.map some ∧
      Alone e own shown := by
  induction calls generalizing b replies e with
  | nil =>
    cases h
    exact ⟨[], [], rfl, rfl, .nil e⟩
  | cons c calls ih =>
    obtain ⟨r, rest, hc, hrest, rfl⟩ := replies?_cons_eq_some_iff.mp h
    obtain ⟨own, shown, e', hown, hshown, he', hs⟩ := shows_of_call_eq_ok hc he
    obtain ⟨owns, showns, howns, hshowns, ha⟩ := ih hrest he'
    refine ⟨own :: owns, shown :: showns, ?_, ?_, .cons hs ha⟩
    · rw [List.map_cons, hown, howns, List.map_cons]
    · rw [List.map_cons, hshown, hshowns, List.map_cons]

/-- Every reply of a run has one element per instance. -/
theorem sized_of_replies?_eq_some {calls : List BatchCall} {replies : List BatchReply}
    (h : b.replies? calls = some replies) : ∀ r ∈ replies, r.Sized b.count := by
  induction calls generalizing b replies with
  | nil =>
    cases h
    simp
  | cons c calls ih =>
    obtain ⟨r, rest, hc, hrest, rfl⟩ := replies?_cons_eq_some_iff.mp h
    intro r' hr'
    rcases List.mem_cons.mp hr' with rfl | hmem
    · exact sized_of_call_eq_ok hc
    · rw [← b.count_call c]
      exact ih hrest r' hmem

/-- Without a scaler every reward is handed out as it is. -/
theorem rewards_eq_raw_of_replies? {calls : List BatchCall} {replies : List BatchReply}
    (h : b.replies? calls = some replies) (hsc : b.scaler = none) :
    ∀ result, .step result ∈ replies → result.rewards = result.raw := by
  induction calls generalizing b replies with
  | nil =>
    cases h
    simp
  | cons c calls ih =>
    obtain ⟨r, rest, hc, hrest, rfl⟩ := replies?_cons_eq_some_iff.mp h
    obtain ⟨hnext, hraw⟩ := scaler_call_of_none c hc hsc
    intro result hr
    rcases List.mem_cons.mp hr with heq | hmem
    · exact hraw result heq.symm
    · exact ih hrest hnext result hmem

/-- Instance `i` of a batch that was built is the one that the name builds alone with the seed
`seed + i` modulo `2 ^ 64`. -/
theorem exists_instance_of_build_eq_ok {registry : Registry σ} {name : String} {seed : UInt64}
    {count : Nat} (h : build registry name seed count = .ok b) {i : Nat} (hi : i < count) :
    ∃ e, b.instances[i]? = some e ∧
      registry.build name (UInt64.ofNat (seed.toNat + i)) = .ok e := by
  obtain ⟨e, he, hb⟩ := (getElem?_of_buildInstances_eq_ok (of_build_eq_ok h).1).2 i hi
  refine ⟨e, he, ?_⟩
  rw [← hb, UInt64.ofNat_add, UInt64.ofNat_toNat]

/-- **Vectorisation refines independent instances.**  Let a batch of `count` instances of a name
be built from a seed, with or without a scaler put on it, and let it answer a row of calls, all
of which succeed.  Then row `i` of the replies (observations, ends of episodes and rewards before
scaling) is what one instance shows that is built alone with the seed `seed + i` modulo `2 ^ 64`
and gets the `i`-th actions; two runs in which instance `i` gets the same actions agree on row
`i`; and without a scaler the rewards are those of the instances. -/
theorem rows_of_replies? {registry : Registry σ} {name : String} {seed : UInt64} {count : Nat}
    (hb : build registry name seed count = .ok b) (scaler : Option Scaler)
    {calls : List BatchCall} {replies : List BatchReply}
    (h : replies? { b with scaler } calls = some replies) :
    0 < count ∧ (∀ r ∈ replies, r.Sized count) ∧
    (∀ i < count, ∃ e own shown,
      registry.build name (UInt64.ofNat (seed.toNat + i)) = .ok e ∧
      calls.map (·.row i) = own.map some ∧ replies.map (·.row i) = shown.map some ∧
      Alone e own shown) ∧
    (∀ i < count, ∀ calls' replies', replies? { b with scaler } calls' = some replies' →
      calls.map (·.row i) = calls'.map (·.row i) →
      replies.map (·.row i) = replies'.map (·.row i)) ∧
    (scaler = none → ∀ result, .step result ∈ replies → result.rewards = result.raw) := by
  have hcount : b.instances.length = count :=
    (getElem?_of_buildInstances_eq_ok (of_build_eq_ok hb).1).1
  refine ⟨?_, ?_, ?_, ?_, ?_⟩
  · rw [← hcount]
    exact List.length_pos_iff.mpr b.nonempty
  · rw [← hcount]
    exact sized_of_replies?_eq_some (b := { b with scaler }) h
  · intro i hi
    obtain ⟨e, he, hbuilt⟩ := exists_instance_of_build_eq_ok hb hi
    obtain ⟨own, shown, hown, hshown, ha⟩ := alone_of_replies?_eq_some h he
    exact ⟨e, own, shown, hbuilt, hown, hshown, ha⟩
  · intro i hi calls' replies' h' hsame
    obtain ⟨e, he, -⟩ := exists_instance_of_build_eq_ok hb hi
    obtain ⟨own, shown, hown, hshown, ha⟩ := alone_of_replies?_eq_some h he
    obtain ⟨own', shown', hown', hshown', ha'⟩ := alone_of_replies?_eq_some h' he
    have heq : own = own' := by
      refine (List.map_inj_right fun x y => Option.some.inj).mp ?_
      rw [← hown, ← hown', hsame]
    subst heq
    rw [hshown, hshown', ha.unique ha']
  · intro hsc
    exact rewards_eq_raw_of_replies? h hsc

/-- A walk of two open grids: the first goes to the last cell, the second into a wall. -/
def twoWalks : List BatchCall :=
  .reset :: [[2, 0], [2, 0], [2, 0], [1, 0], [1, 0], [1, 0]].map fun indices =>
    .step (.discrete indices)

/-- Two open grids seeded across the end of the words: the episode of the first ends with the
last call, its row shows the first cell again, and it is the row of the grid walking alone. -/
theorem rows_of_replies?_twoWalks :
    ∃ (b : Batch World) (replies : List BatchReply),
      build World.registry "GridWorld-v0" 0xffffffffffffffff 2 = .ok b ∧
      replies? { b with scaler := none } twoWalks = some replies ∧
      (replies.map (·.row 0)).getLast?
        = some (some (.step ⟨.vector [.ofNat 0], .ofFloat 0.0, true⟩)) ∧
      ∀ i < 2, ∃ e own shown,
        World.registry.build "GridWorld-v0"
          (UInt64.ofNat ((0xffffffffffffffff : UInt64).toNat + i)) = .ok e ∧
        twoWalks.map (·.row i) = own.map some ∧ replies.map (·.row i) = shown.map some ∧
        Alone e own shown := by
  have hrun : (match build World.registry "GridWorld-v0" 0xffffffffffffffff 2 with
      | .error _ => false
      | .ok b =>
        match replies? { b with scaler := none } twoWalks with
        | none => false
        | some replies => (replies.map (·.row 0)).getLast?
            == some (some (.step ⟨.vector [.ofNat 0], .ofFloat 0.0, true⟩))) = true := by
    decide +kernel
  rcases hb : build World.registry "GridWorld-v0" 0xffffffffffffffff 2 with f | b
  · rw [hb] at hrun
    cases hrun
  · rw [hb] at hrun
    rcases hr : replies? { b with scaler := none } twoWalks with _ | replies
    · simp only [hr] at hrun
      cases hrun
    · simp only [hr, beq_iff_eq] at hrun
      exact ⟨b, replies, rfl, hr, hrun, (rows_of_replies? hb none hr).2.2.1⟩

end Batch

end Rollout
