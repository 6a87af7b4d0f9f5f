/-
# Impossible outcomes

A distribution is sampled by adding its probabilities up until the sum exceeds a random
float.  An index of probability zero leaves the sum as it was, so it is not the first
whose sum exceeds the float.  But rounding may keep all the sums from it, and so may
probabilities that do not add up to one; then the last index is taken, whatever its
probability is.  The main statement is that an impossible outcome comes about in this
way and in no other, along every run: `possible_iff_not_fallsOff`.
-/
import Rollout.Proofs.FloatOrder
import Rollout.Proofs.Lockstep
import Rollout.Proofs.TabularSteps
import Rollout.World.FrozenLake

namespace Rollout.Tabular

open Floats

variable {r sum : Float} {ps : List Float} {i : Nat} {g : Generator} {e : Tabular}

/-! ## Running sums -/

/-- The sum of the first `n` probabilities, added to `sum` one after another. -/
def runningSum (sum : Float) (ps : List Float) (n : Nat) : Float := (ps.take n).foldl (· + ·) sum

theorem runningSum_cons_succ (sum p : Float) (ps : List Float) (n : Nat) :
    runningSum sum (p :: ps) (n + 1) = runningSum (sum + p) ps n := rfl

/-- One probability more is added to the sum. -/
theorem runningSum_succ {p : Float} (hp : ps[i]? = some p) (sum : Float) :
    runningSum sum ps (i + 1) = runningSum sum ps i + p := by
  rw [runningSum, List.take_add_one, hp, Option.toList_some, List.foldl_append]
  rfl

/-- The index that is picked is one whose running sum exceeds the float, or the last one, and no
running sum does. -/
theorem pick_cases (h : pick r sum ps = some i) (hsum : ¬ r < sum) :
    r < runningSum sum ps (i + 1) ∧ ¬ r < runningSum sum ps i ∧ i < ps.length ∨
      i + 1 = ps.length ∧ ∀ n, ¬ r < runningSum sum ps n := by
  -- the sum goes along with the recursion, so it is generalised
  induction ps generalizing sum i with
  | nil => cases h
  | cons p rest ih =>
    rw [pick] at h
    split at h
    · rename_i hlt
      cases h
      exact Or.inl ⟨hlt, hsum, Nat.zero_lt_succ _⟩
    · rename_i hlt
      cases hrest : pick r (sum + p) rest with
      | some j =>
        rw [hrest] at h
        cases h
        rcases ih hrest hlt with ⟨hexceeds, hbefore, hj⟩ | ⟨hlast, hall⟩
        · exact Or.inl ⟨hexceeds, hbefore, Nat.succ_lt_succ hj⟩
        · refine Or.inr ⟨congrArg (· + 1) hlast, ?_⟩
          intro n
          cases n with
          | zero => exact hsum
          | succ n => exact hall n
      | none =>
        rw [hrest] at h
        cases h
        have hnil : rest = [] := by
          refine Decidable.byContradiction fun hne => ?_
          obtain ⟨j, hj, -⟩ := exists_pick_eq_some r (sum + p) hne
          rw [hrest] at hj
          cases hj
        subst hnil
        refine Or.inr ⟨rfl, ?_⟩
        intro n
        cases n with
        | zero => exact hsum
        | succ n =>
          rw [runningSum_cons_succ, runningSum, List.take_nil]
          exact hlt

/-! ## Falling off a distribution -/

/-- The float lies beyond all running sums of the distribution, whose last index is impossible. -/
structure FallsOff (r : Float) (ps : List Float) : Prop where
  beyond : ∀ n, ¬ r < runningSum 0.0 ps n
  last : ∃ p, ps.getLast? = some p ∧ (p == 0.0) = true

/-- **An index of probability zero is sampled exactly if the distribution is fallen off.** -/
theorem zero_iff_fallsOff (h : (sample ps g).1 = some i) :
    ∃ p, ps[i]? = some p ∧ ((p == 0.0) = true ↔ FallsOff g.double.1 ps) := by
  rcases pick_cases h (not_double_lt_zero g) with ⟨hexceeds, hbefore, hi⟩ | ⟨hlast, hall⟩
  · have hp : ps[i]? = some ps[i] := List.getElem?_eq_getElem hi
    refine ⟨ps[i], hp, ?_⟩
    constructor
    · intro hzero
      -- adding a zero does not make the sum exceed the float
      rw [runningSum_succ hp, lt_add_zero_iff hzero] at hexceeds
      exact absurd hexceeds hbefore
    · intro hoff
      exact absurd hexceeds (hoff.beyond (i + 1))
  · have hi : i < ps.length := by omega
    have hp : ps[i]? = some ps[i] := List.getElem?_eq_getElem hi
    have hgetLast : ps.getLast? = some ps[i] := by
      rw [List.getLast?_eq_getElem?, ← hlast, Nat.add_sub_cancel, hp]
    refine ⟨ps[i], hp, ?_⟩
    constructor
    · intro hzero
      exact ⟨hall, _, hgetLast, hzero⟩
    · intro hoff
      obtain ⟨p, hlast', hzero⟩ := hoff.last
      rw [hgetLast] at hlast'
      cases hlast'
      exact hzero

/-- No probability is negative, and one is positive. -/
structure Weighted (ps : List Float) : Prop where
  nonneg : ∀ p ∈ ps, 0.0 ≤ p
  pos : ∃ p ∈ ps, 0.0 < p

instance (ps : List Float) : Decidable (Weighted ps) :=
  decidable_of_iff ((∀ p ∈ ps, 0.0 ≤ p) ∧ ∃ p ∈ ps, 0.0 < p)
    ⟨fun h => ⟨h.1, h.2⟩, fun h => ⟨h.nonneg, h.pos⟩⟩

theorem Weighted.ne_nil (h : Weighted ps) : ps ≠ [] := by
  obtain ⟨p, hp, -⟩ := h.pos
  exact List.ne_nil_of_mem hp

/-- What is sampled is possible unless the distribution is fallen off. -/
theorem Weighted.pos_iff (h : Weighted ps) (hi : (sample ps g).1 = some i) :
    ∃ p, ps[i]? = some p ∧ (0.0 < p ↔ ¬ FallsOff g.double.1 ps) := by
  obtain ⟨p, hp, hzero⟩ := zero_iff_fallsOff hi
  refine ⟨p, hp, ?_⟩
  rw [zero_lt_iff (h.nonneg p (List.mem_of_getElem? hp)), hzero]

/-! ## Runs -/

/-- The environment after a call. -/
def after : InstanceCall → Tabular → Tabular
  | .reset, e => (reset e).2
  | .step a, e => (step a e).2

/-- The environment after calls made one after another. -/
def afterAll (calls : List InstanceCall) (e : Tabular) : Tabular :=
  calls.foldl (fun e c => after c e) e

/-- A call keeps the dynamics. -/
theorem dynamics_after (c : InstanceCall) (e : Tabular) :
    (after c e).table = e.table ∧ (after c e).initial = e.initial := by
  cases c with
  | reset => exact dynamics_reset e
  | step a => exact dynamics_step a e

/-- A run keeps the dynamics. -/
theorem dynamics_afterAll (calls : List InstanceCall) (e : Tabular) :
    (afterAll calls e).table = e.table ∧ (afterAll calls e).initial = e.initial := by
  induction calls generalizing e with
  | nil => exact ⟨rfl, rfl⟩
  | cons c calls ih =>
    obtain ⟨htable, hinitial⟩ := ih (after c e)
    obtain ⟨htable', hinitial'⟩ := dynamics_after c e
    exact ⟨htable.trans htable', hinitial.trans hinitial'⟩

/-- **Impossible outcomes.**  Along every run of an environment whose distributions have no negative
probability and a positive one, a reset starts in a state with a positive initial probability, and
a step that succeeds follows an outcome with a positive probability, exactly if the distribution is
not fallen off. -/
theorem possible_iff_not_fallsOff {e₀ : Tabular} (hinitial : Weighted e₀.initial)
    (htable : ∀ os ∈ e₀.table.entries, Weighted (os.map Transition.probability))
    (calls : List InstanceCall) :
    let e := afterAll calls e₀
    (∃ state p, (reset e).1 = .ok (observe state) ∧ (reset e).2.state = state ∧
      e₀.initial[state]? = some p ∧ (0.0 < p ↔ ¬ FallsOff e.random.double.1 e₀.initial)) ∧
    ∀ a r, (step a e).1 = .ok r →
      ∃ (index : Nat) (os : List Transition) (k : Nat) (o : Transition),
        a = .discrete index ∧ e₀.table.entry? e.state index = some os ∧
        (sample (os.map Transition.probability) e.random).1 = some k ∧ os[k]? = some o ∧
        r = ⟨observe o.next, (Numeric.Double.ofFloat o.reward).narrow, o.done, e.atLimit⟩ ∧
        (step a e).2.state = o.next ∧
        (0.0 < o.probability ↔ ¬ FallsOff e.random.double.1 (os.map Transition.probability)) := by
  intro e
  obtain ⟨ht, hi⟩ := dynamics_afterAll calls e₀
  constructor
  · have hne : e.initial ≠ [] := by
      rw [hi]
      exact hinitial.ne_nil
    obtain ⟨state, -, hreset⟩ := reset_eq_ok hne
    have hok : (reset e).1 = .ok (observe state) := by rw [hreset]
    obtain ⟨random, state', hs, hobserve, hafter⟩ := of_reset_eq_ok hok
    rw [hi] at hs
    obtain ⟨p, hp, hpos⟩ := hinitial.pos_iff hs
    exact ⟨state', p, by rw [hok, hobserve], by rw [hafter], hp, hpos⟩
  · intro a r hr
    obtain ⟨index, os, k, o, random, rfl, hentry, hs, hk, rfl, hafter⟩ := of_step_eq_ok hr
    rw [ht] at hentry
    have hweighted := htable os (TransitionTable.of_entry?_eq_some hentry).2
    obtain ⟨p, hp, hpos⟩ := hweighted.pos_iff hs
    rw [List.getElem?_map, hk] at hp
    cases hp
    exact ⟨index, os, k, o, rfl, hentry, hs, hk, rfl, by rw [hafter], hpos⟩

/-- A lake of seven starts with the goal behind them.  Seven sevenths do not add up to one. -/
def startsAndGoal : Except Failure Tabular :=
  FrozenLake.build ["SSSSSSSG"] false 6884282663029611472

/-- With this seed the first random float lies beyond the sevenths, so the walk starts at the goal,
which is no start. -/
theorem possible_iff_not_fallsOff_startsAndGoal :
    ∃ e, startsAndGoal = .ok e ∧ (reset e).2.state = 7 ∧ e.initial[7]? = some 0.0 ∧
      FallsOff e.random.double.1 e.initial := by
  have hchecks : (startsAndGoal.toOption.any fun e => decide ((reset e).2.state = 7 ∧
      e.initial[7]? = some 0.0 ∧ Weighted e.initial ∧
      ∀ os ∈ e.table.entries, Weighted (os.map Transition.probability))) = true := by decide +kernel
  rcases hbuild : startsAndGoal with f | e
  · rw [hbuild] at hchecks
    cases hchecks
  · rw [hbuild] at hchecks
    obtain ⟨hseven, hzero, hinitial, htable⟩ := of_decide_eq_true hchecks
    obtain ⟨⟨state, p, -, hstate, hp, hpos⟩, -⟩ := possible_iff_not_fallsOff hinitial htable []
    have hstate : state = 7 := hstate.symm.trans hseven
    rw [hstate, hzero] at hp
    cases hp
    have hnot : ¬ (0.0 : Float) < 0.0 := by decide +kernel
    exact ⟨e, rfl, hseven, hzero, Classical.byContradiction fun hoff => hnot (hpos.mpr hoff)⟩

end Rollout.Tabular
