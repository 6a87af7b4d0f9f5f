/-
# Discounted returns

A scaler keeps one return for each instance: the rewards of the episode so far, discounted
from one step to the next.  The replies of a batch say which rewards these are, so the
scaler is known from the replies and from how it was at the start.  `returns_of_replies?`
reads every return off the row of its own instance, and tells when the moments take the
returns in.
-/
import Rollout.Proofs.TimeLimits

namespace Rollout

open Numeric (Single widen)

variable {i k : Nat} {calls : List BatchCall} {replies : List BatchReply}

/-! ## Rewards that the replies show -/

/-- The reward of instance `i` before scaling; a reset has none. -/
def BatchReply.reward? (i : Nat) : BatchReply → Option Float32
  | .frames _ => none
  | .step result => result.raw[i]?.map Single.toFloat

/-- **The rewards of instance `i` since its last reset**, which the batch was asked for or made
itself after the end of an episode. -/
def rewardsSince (i : Nat) (replies : List BatchReply) : List Float32 :=
  (replies.reverse.takeWhile (·.goesOn i)).reverse.filterMap (·.reward? i)

theorem rewardsSince_concat (i : Nat) (replies : List BatchReply) (r : BatchReply) :
    rewardsSince i (replies ++ [r])
      = if r.goesOn i then rewardsSince i replies ++ (r.reward? i).toList else [] := by
  rw [rewardsSince, takeWhile_goesOn_concat]
  split
  · rw [List.reverse_cons, List.filterMap_append, rewardsSince]
    rcases hr : r.reward? i with _ | reward
    · simp [hr]
    · simp [hr]
  · rfl

/-- What the return of instance `i` takes from a reply: whether its episode goes on, and its
reward. -/
def BatchReply.share (i : Nat) (r : BatchReply) : Bool × Option Float32 := (r.goesOn i, r.reward? i)

/-- Nothing else in the replies matters to the rewards since the last reset. -/
theorem rewardsSince_congr {j : Nat} {replies' : List BatchReply}
    (h : replies.map (·.share i) = replies'.map (·.share j)) :
    rewardsSince i replies = rewardsSince j replies' := by
  have hshares : ∀ (i : Nat) (replies : List BatchReply), rewardsSince i replies
      = ((replies.map (·.share i)).reverse.takeWhile (·.1)).reverse.filterMap (·.2) := by
    intro i replies
    rw [← List.map_reverse, List.takeWhile_map, ← List.map_reverse, List.filterMap_map]
    rfl
  rw [hshares, hshares, h]

/-- Rewards are added to a return one after another, and what there is before is discounted. -/
def discounted (discount : Float32) (rewards : List Float32) : Float32 :=
  rewards.foldl (fun ret reward => ret * discount + reward) 0.0

theorem discounted_concat (discount : Float32) (rewards : List Float32) (reward : Float32) :
    discounted discount (rewards ++ [reward])
      = discounted discount rewards * discount + reward := by
  rw [discounted, List.foldl_append, List.foldl_cons, List.foldl_nil, discounted]

namespace Scaler

variable {s : Scaler} {count : Nat}

/-! ## One batch of rewards -/

/-- The returns of so many instances to which the next rewards are added. -/
def carried (count : Nat) (s : Scaler) : List Float32 :=
  if s.returns.length = count then s.returns else List.replicate count 0.0

/-- Before the first reward, and after a reset, every return is zero. -/
theorem getElem?_carried_of_zero (h : ∀ ret ∈ s.returns, ret = 0.0) (hi : i < count) :
    (s.carried count)[i]? = some 0.0 := by
  rw [carried]
  split
  · rename_i hlength
    rw [← hlength] at hi
    rw [List.getElem?_eq_getElem hi, h _ (List.getElem_mem hi)]
  · rw [List.getElem?_replicate, if_pos hi]

theorem accumulate_eq (s : Scaler) (rewards : List Float32) : s.accumulate rewards
    = List.zipWith (fun ret reward => ret * s.discount + reward) (s.carried rewards.length)
      rewards := by
  have hzero : (rewards.map fun _ => (0.0 : Float32)) = List.replicate rewards.length 0.0 :=
    List.map_const'
  rw [accumulate, carried, hzero]

/-- The scaler after a reply of its batch. -/
def after (s : Scaler) : BatchReply → Scaler
  | .frames _ => s.reset
  | .step result => (s.apply result.raw result.done).2

@[simp] theorem returns_after_step (s : Scaler) (result : BatchStep) :
    (s.after (.step result)).returns
      = (s.accumulate (result.raw.map Single.toFloat)).mapIdx fun i ret =>
          if result.done.getD i false then 0.0 else ret := rfl

/-- The moments take the returns in before any is cleared. -/
@[simp] theorem moments_after_step (s : Scaler) (result : BatchStep) :
    (s.after (.step result)).moments
      = s.moments.update ((s.accumulate (result.raw.map Single.toFloat)).map widen) := rfl

/-- **Returns of the replies so far.**  The next rewards are added to the discounted rewards that
the replies show since the last reset of each instance. -/
structure Tracks (count : Nat) (discount : Float32) (replies : List BatchReply) (s : Scaler) :
    Prop where
  discount_eq : s.discount = discount
  returns : ∀ i < count, (s.carried count)[i]? = some (discounted discount (rewardsSince i replies))

/-- **What a step does to the returns.**  The reward of each instance is added to its return, the
moments take in the returns of all instances, in order, and then those whose episode has ended are
set to zero. -/
structure Settles (count : Nat) (discount : Float32) (earlier : List BatchReply)
    (result : BatchStep) (before after : Scaler) : Prop where
  length : after.returns.length = count
  returns : ∀ i < count, after.returns[i]? = some (if result.done[i]? = some true then 0.0
    else discounted discount (rewardsSince i (earlier ++ [.step result])))
  moments : after.moments = before.moments.update ((List.range count).map fun i =>
    widen (discounted discount
      (rewardsSince i earlier ++ ((BatchReply.step result).reward? i).toList)))

variable {discount : Float32} {result : BatchStep}

/-- A scaler that has seen no reward yet. -/
theorem tracks_of_zero (hzero : ∀ ret ∈ s.returns, ret = 0.0) (count : Nat) :
    s.Tracks count s.discount [] where
  discount_eq := rfl
  returns _ hi := getElem?_carried_of_zero hzero hi

theorem zero_of_mem_returns_reset (s : Scaler) : ∀ ret ∈ s.reset.returns, ret = 0.0 := by
  intro ret hret
  obtain ⟨_, -, rfl⟩ := List.mem_map.mp hret
  rfl

namespace Tracks

/-- A reset clears the returns. -/
theorem reset (h : s.Tracks count discount replies) (frames : Tensor Single) :
    s.reset.Tracks count discount (replies ++ [.frames frames]) where
  discount_eq := h.discount_eq
  returns i hi := by
    rw [getElem?_carried_of_zero s.zero_of_mem_returns_reset hi, rewardsSince_concat]
    rfl

/-- The rewards of a step are added to the returns, each to its own. -/
theorem accumulate_eq (h : s.Tracks count discount replies) (hraw : result.raw.length = count) :
    s.accumulate (result.raw.map Single.toFloat) = (List.range count).map fun i =>
      discounted discount
        (rewardsSince i replies ++ ((BatchReply.step result).reward? i).toList) := by
  rw [Scaler.accumulate_eq, List.length_map, hraw, h.discount_eq]
  refine List.ext_getElem? fun i => ?_
  rw [List.getElem?_zipWith, List.getElem?_map, List.getElem?_map]
  by_cases hi : i < count
  · have hreward : (BatchReply.step result).reward? i = some result.raw[i].toFloat := by
      rw [BatchReply.reward?, List.getElem?_eq_getElem (hraw ▸ hi), Option.map_some]
    rw [h.returns i hi, List.getElem?_eq_getElem (hraw ▸ hi), List.getElem?_range hi,
      Option.map_some, Option.map_some, hreward, Option.toList_some, discounted_concat]
  · have hnone : result.raw[i]? = none := List.getElem?_eq_none (by omega)
    have hrange : (List.range count)[i]? = none :=
      List.getElem?_eq_none (by rw [List.length_range]; omega)
    rw [hnone, hrange]
    split
    · rename_i h
      cases h
    · rfl

/-- **A step settles the returns** of all instances. -/
theorem settles (h : s.Tracks count discount replies)
    (hsized : (BatchReply.step result).Sized count) :
    Settles count discount replies result s (s.after (.step result)) where
  length := by
    simp [h.accumulate_eq hsized.2.1]
  returns i hi := by
    have hlt : i < result.done.length := hsized.2.2.symm ▸ hi
    rw [returns_after_step, List.getElem?_mapIdx, h.accumulate_eq hsized.2.1, List.getElem?_map,
      List.getElem?_range hi, rewardsSince_concat, BatchReply.goesOn, List.getD_eq_getElem?_getD,
      List.getElem?_eq_getElem hlt]
    cases result.done[i] with
    | false => rfl
    | true => rfl
  moments := by
    rw [moments_after_step, h.accumulate_eq hsized.2.1, List.map_map]
    rfl

end Tracks

/-- The end of an episode leaves no rewards to discount. -/
theorem Settles.getElem?_returns {before after : Scaler}
    (h : Settles count discount replies result before after) (hi : i < count) :
    after.returns[i]?
      = some (discounted discount (rewardsSince i (replies ++ [.step result]))) := by
  rw [h.returns i hi]
  split
  · rename_i hdone
    have hover : (BatchReply.step result).goesOn i = false := by
      rw [BatchReply.goesOn, hdone]
      rfl
    rw [rewardsSince_concat, hover]
    rfl
  · rfl

/-- After a step the returns are those that the next rewards are added to. -/
theorem Settles.tracks {before after : Scaler}
    (h : Settles count discount replies result before after) (hd : after.discount = discount) :
    after.Tracks count discount (replies ++ [.step result]) where
  discount_eq := hd
  returns i hi := by
    rw [carried, if_pos h.length, h.getElem?_returns hi]

/-- The scaler keeps to the replies. -/
theorem Tracks.after (h : s.Tracks count discount replies) {r : BatchReply}
    (hsized : r.Sized count) : (s.after r).Tracks count discount (replies ++ [r]) := by
  cases r with
  | frames observations => exact h.reset observations
  | step result => exact (h.settles hsized).tracks h.discount_eq

end Scaler

/-! ## Runs -/

namespace Batch

variable {σ : Type} [Env σ] {b : Batch σ} {s : Scaler}

/-- A call that succeeds shows all that the scaler is told. -/
theorem scaler_call {c : BatchCall} {r : BatchReply} (h : (b.call c).1 = .ok r)
    (hs : b.scaler = some s) : (b.call c).2.scaler = some (s.after r) := by
  cases c with
  | reset =>
    obtain ⟨t, -, rfl⟩ := map_eq_ok_iff.mp h
    rw [call, b.reset_eq.2.2, hs]
    rfl
  | step act =>
    obtain ⟨result, hr, rfl⟩ := map_eq_ok_iff.mp h
    obtain ⟨hfit, outcomes, t, hsweep, ht, rfl⟩ := step_eq_ok hr
    show (b.step act).2.scaler = _
    rw [(step_of_stack_ok hfit hsweep ht).2, stepScaler, hs]
    rfl

/-- The reply to a step is one. -/
theorem exists_step_of_replies? (hrun : b.replies? calls = some replies) {act : BatchAction}
    (hc : calls[k]? = some (.step act)) : ∃ result, replies[k]? = some (.step result) := by
  obtain ⟨r, hr, hcall⟩ := call_of_replies?_eq_some hrun hc
  obtain ⟨result, -, rfl⟩ := map_eq_ok_iff.mp hcall
  exact ⟨result, hr⟩

/-- Before and after every call of a run the scaler keeps to the replies. -/
theorem tracks_of_replies? (hs : b.scaler = some s) (hzero : ∀ ret ∈ s.returns, ret = 0.0)
    (hrun : b.replies? calls = some replies) (hk : k ≤ calls.length) :
    ∃ s', (b.afterAll (calls.take k)).scaler = some s' ∧
      s'.Tracks b.count s.discount (replies.take k) := by
  induction k with
  | zero => exact ⟨s, hs, Scaler.tracks_of_zero hzero b.count⟩
  | succ k ih =>
    obtain ⟨before, hbefore, htracks⟩ := ih (Nat.le_of_succ_le hk)
    have hc := List.getElem?_eq_getElem hk
    obtain ⟨r, hr, hcall⟩ := call_of_replies?_eq_some hrun hc
    refine ⟨before.after r, ?_, ?_⟩
    · rw [afterAll_take_succ hc]
      exact scaler_call hcall hbefore
    · rw [List.take_add_one, hr, Option.toList_some]
      exact htracks.after (sized_of_replies?_eq_some hrun r (List.mem_of_getElem? hr))

/-- Every reply of a run finds a scaler that keeps to the replies before, and tells it what it is
told. -/
theorem exists_scaler_of_replies? (hs : b.scaler = some s) (hzero : ∀ ret ∈ s.returns, ret = 0.0)
    (hrun : b.replies? calls = some replies) {r : BatchReply} (hr : replies[k]? = some r) :
    ∃ before, (b.afterAll (calls.take k)).scaler = some before ∧
      (b.afterAll (calls.take (k + 1))).scaler = some (before.after r) ∧
      before.Tracks b.count s.discount (replies.take k) ∧ r.Sized b.count := by
  obtain ⟨c, hc, hcall⟩ := exists_call_of_replies?_eq_some hrun hr
  obtain ⟨before, hbefore, htracks⟩ :=
    tracks_of_replies? hs hzero hrun (Nat.le_of_lt (List.getElem?_eq_some_iff.mp hc).1)
  refine ⟨before, hbefore, ?_, htracks,
    sized_of_replies?_eq_some hrun r (List.mem_of_getElem? hr)⟩
  rw [afterAll_take_succ hc]
  exact scaler_call hcall hbefore

/-- The return of an instance after a step is known from what it takes from the replies. -/
theorem getElem?_returns_of_replies? (hs : b.scaler = some s)
    (hzero : ∀ ret ∈ s.returns, ret = 0.0) (hrun : b.replies? calls = some replies)
    {result : BatchStep} (hr : replies[k]? = some (.step result)) (hi : i < b.count) :
    ∃ after, (b.afterAll (calls.take (k + 1))).scaler = some after ∧
      after.returns[i]? = some (discounted s.discount (rewardsSince i (replies.take (k + 1)))) := by
  obtain ⟨before, -, hafter, htracks, hsized⟩ := exists_scaler_of_replies? hs hzero hrun hr
  refine ⟨_, hafter, ?_⟩
  rw [(htracks.settles hsized).getElem?_returns hi, List.take_add_one, hr, Option.toList_some]

/-- **Discounted returns.**  Let a batch with a scaler, whose returns are zero, make a run of resets
and steps that succeed.  A reset sets all returns to zero and leaves the moments alone.  A step
settles the returns: the one of an instance whose episode has ended is zero, and every other one is
made of the rewards since the last reset of the instance, discounted from step to step; and the
moments are updated once, with the returns of all instances before any is set to zero.  In two runs,
of any two batches with the same discount, instances that get the same rewards and come to the same
ends have the same return. -/
theorem returns_of_replies? (hs : b.scaler = some s) (hzero : ∀ ret ∈ s.returns, ret = 0.0)
    (hrun : b.replies? calls = some replies) :
    (∀ k r, replies[k]? = some r → ∃ before after : Scaler,
      (b.afterAll (calls.take k)).scaler = some before ∧
      (b.afterAll (calls.take (k + 1))).scaler = some after ∧
      (∀ frames, r = .frames frames →
        after.moments = before.moments ∧ ∀ ret ∈ after.returns, ret = 0.0) ∧
      ∀ result, r = .step result →
        Scaler.Settles b.count s.discount (replies.take k) result before after) ∧
    ∀ {σ' : Type} [Env σ'] (b' : Batch σ') (s' : Scaler) (calls' : List BatchCall)
      (replies' : List BatchReply), b'.scaler = some s' → (∀ ret ∈ s'.returns, ret = 0.0) →
      b'.replies? calls' = some replies' → s'.discount = s.discount →
      ∀ i < b.count, ∀ j < b'.count, ∀ k result result', replies[k]? = some (.step result) →
        replies'[k]? = some (.step result') →
        (replies.take (k + 1)).map (·.share i) = (replies'.take (k + 1)).map (·.share j) →
        ∃ after after' : Scaler, (b.afterAll (calls.take (k + 1))).scaler = some after ∧
          (b'.afterAll (calls'.take (k + 1))).scaler = some after' ∧
          after.returns[i]? = after'.returns[j]? := by
  constructor
  · intro k r hr
    obtain ⟨before, hbefore, hafter, htracks, hsized⟩ := exists_scaler_of_replies? hs hzero hrun hr
    refine ⟨before, _, hbefore, hafter, ?_, ?_⟩
    · rintro frames rfl
      exact ⟨rfl, before.zero_of_mem_returns_reset⟩
    · rintro result rfl
      exact htracks.settles hsized
  · intro σ' _ b' s' calls' replies' hs' hzero' hrun' hdiscount i hi j hj k result result' hr hr'
      hshares
    obtain ⟨after, hafter, hret⟩ := getElem?_returns_of_replies? hs hzero hrun hr hi
    obtain ⟨after', hafter', hret'⟩ := getElem?_returns_of_replies? hs' hzero' hrun' hr' hj
    refine ⟨after, after', hafter, hafter', ?_⟩
    rw [hret, hret', hdiscount, rewardsSince_congr hshares]

/-- Two walks on the open grid, the first of which is cut after two steps. -/
def unequalWalks (e : Tabular) : Batch Tabular :=
  ⟨[{ e with limit := some 2 }, e], some (.ofDiscount 0.5), List.cons_ne_nil _ _⟩

/-- The second of them alone. -/
def loneWalk (e : Tabular) : Batch Tabular := ⟨[e], some (.ofDiscount 0.5), List.cons_ne_nil _ _⟩

/-- Three steps of both. -/
def unequalRun : List BatchCall :=
  [.step (.discrete [2, 1]), .step (.discrete [1, 0]), .step (.discrete [3, 3])]

/-- Three steps of the second alone. -/
def loneRun : List BatchCall :=
  [.step (.discrete [1]), .step (.discrete [0]), .step (.discrete [3])]

/-- The first walk is cut with the second step, after the moments have taken in its return of minus
one and a half; the return of the second walk is what it is without the first. -/
theorem returns_of_replies?_unequalWalks :
    ∃ e, Tabular.build Grid.table (1.0 :: List.replicate 15 0.0) 0 = .ok e ∧
      (∃ before after : Scaler,
        ((unequalWalks e).afterAll (unequalRun.take 1)).scaler = some before ∧
        ((unequalWalks e).afterAll (unequalRun.take 2)).scaler = some after ∧
        after.returns[0]? = some (0.0 : Float32) ∧ after.returns[1]? = some (-1.5 : Float32) ∧
        after.moments = before.moments.update [-1.5, -1.5]) ∧
      ∃ after after' : Scaler,
        ((unequalWalks e).afterAll (unequalRun.take 3)).scaler = some after ∧
        ((loneWalk e).afterAll (loneRun.take 3)).scaler = some after' ∧
        after.returns[1]? = after'.returns[0]? := by
  have hcheck : (Tabular.build Grid.table (1.0 :: List.replicate 15 0.0) 0).toOption.bind (fun e =>
      ((unequalWalks e).replies? unequalRun).bind fun replies =>
        ((loneWalk e).replies? loneRun).map fun lone =>
          (decide ((replies.take 3).map (·.share 1) = (lone.take 3).map (·.share 0)),
            discounted 0.5 (rewardsSince 0 (replies.take 2)),
            discounted 0.5 (rewardsSince 1 (replies.take 2)),
            (List.range 2).map fun i => widen (discounted 0.5
              (rewardsSince i (replies.take 1) ++ (replies[1]?.bind (·.reward? i)).toList))))
        = some (true, 0.0, -1.5, [-1.5, -1.5]) := by
    decide +kernel
  rcases he : Tabular.build Grid.table (1.0 :: List.replicate 15 0.0) 0 with f | e
  · rw [he] at hcheck
    cases hcheck
  rw [he, Except.toOption, Option.bind_some] at hcheck
  obtain ⟨replies, hrun, hcheck⟩ := Option.bind_eq_some_iff.mp hcheck
  obtain ⟨lone, hlone, hcheck⟩ := Option.map_eq_some_iff.mp hcheck
  simp only [Prod.mk.injEq, decide_eq_true_iff] at hcheck
  obtain ⟨hshares, hfirst, hother, hmoments⟩ := hcheck
  obtain ⟨hsettles, hshared⟩ :=
    returns_of_replies? (b := unequalWalks e) rfl (List.forall_mem_nil _) hrun
  obtain ⟨second, hsecond⟩ := exists_step_of_replies? hrun (k := 1) rfl
  obtain ⟨third, hthird⟩ := exists_step_of_replies? hrun (k := 2) rfl
  obtain ⟨last, hlast⟩ := exists_step_of_replies? hlone (k := 2) rfl
  refine ⟨e, rfl, ?_, ?_⟩
  · obtain ⟨before, after, hbefore, hafter, -, hstep⟩ := hsettles 1 _ hsecond
    have h := hstep second rfl
    refine ⟨before, after, hbefore, hafter, ?_, ?_, ?_⟩
    · rw [h.getElem?_returns (by decide : 0 < 2), ← hfirst, List.take_add_one (i := 1), hsecond]
      rfl
    · rw [h.getElem?_returns (by decide : 1 < 2), ← hother, List.take_add_one (i := 1), hsecond]
      rfl
    · rw [h.moments, ← hmoments, hsecond]
      rfl
  · exact hshared (loneWalk e) _ loneRun lone rfl (List.forall_mem_nil _) hlone rfl 1
      Nat.one_lt_two 0 Nat.zero_lt_one 2 third last hthird hlast hshares

end Batch

end Rollout
