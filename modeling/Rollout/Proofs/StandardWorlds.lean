/-
# The standard environments do not fail

Every environment with a closed table is dependable, and so are the cart and the
pendulum: with an action of their space they always have a next state.  Their frames
have the shapes of their observation spaces.
-/
import Rollout.Proofs.Dependable
import Rollout.Proofs.Lakes
import Rollout.Proofs.TabularSteps
import Rollout.World.Standard

namespace Rollout

/-! ## Tables -/

/-- An environment with a closed table and an initial distribution over its states is
truthful. -/
theorem Tabular.truthful {t : TransitionTable} {ps : List Float} (ht : t.Closed)
    (hps : ps.length = t.states) (hpos : 0 < t.states) :
    Truthful (fun e : Tabular => e.table = t ∧ e.initial = ps ∧ e.state < t.states)
      (.discrete t.actions) (.discrete t.states) where
  actionSpace := by
    rintro e ⟨rfl, -, -⟩
    rfl
  observationSpace := by
    rintro e ⟨rfl, -, -⟩
    rfl
  reset := by
    rintro e ⟨rfl, rfl, -⟩
    have hne : e.initial ≠ [] := List.ne_nil_of_length_pos (by omega)
    obtain ⟨state, hs, hr⟩ := reset_eq_ok hne
    have hr' : Env.reset e = _ := hr
    rw [hr']
    exact ⟨_, rfl, rfl, rfl, rfl, by rw [← hps]; exact hs⟩
  step := by
    rintro a e ⟨rfl, rfl, hs⟩ ha
    obtain ⟨r, hr, hobs, htable, hinitial, hstate⟩ := step_eq_ok ht hs ha
    exact ⟨r, hr, by rw [hobs]; rfl, htable, hinitial, hstate⟩
  render e he := ⟨rfl, he⟩

/-- The open grid is truthful. -/
theorem Grid.truthful_build : Builder.Truthful Grid.build := by
  have hps : (1.0 :: List.replicate 15 0.0 : List Float).length = table.states := rfl
  have hpos : 0 < table.states := by decide
  refine ⟨_, _, _, Tabular.truthful closed_table hps hpos, ?_⟩
  intro seed e he
  obtain ⟨htable, hinitial, hstate⟩ := of_build_eq_ok he
  refine ⟨htable, hinitial, ?_⟩
  rw [hstate]
  exact hpos

/-- Every frozen lake is truthful. -/
theorem FrozenLake.truthful_build (map : List String) (slippery : Bool) :
    Builder.Truthful (FrozenLake.build map slippery) := by
  -- the cells depend on the map only, so one table serves the instances of all seeds
  by_cases hm : ∃ c, Cells.ofMap? map = some c ∧ c.starts ≠ 0
  · obtain ⟨c, hc, hs⟩ := hm
    have hpos : 0 < c.size := Cells.size_pos_of_starts_ne_zero hs
    refine ⟨_, _, _, Tabular.truthful (c.closed_table slippery) c.length_initial hpos, ?_⟩
    intro seed e he
    obtain ⟨c', hc', -, htable, hinitial, hstate⟩ := of_build_eq_ok he
    rw [hc, Option.some.injEq] at hc'
    subst hc'
    refine ⟨htable, hinitial, ?_⟩
    rw [hstate]
    exact hpos
  · refine Builder.truthful_of_error ?_
    intro seed e he
    obtain ⟨c, hc, hs, -⟩ := of_build_eq_ok he
    exact hm ⟨c, hc, hs⟩

/-! ## Motions -/

theorem CartPole.truthful :
    Truthful (fun _ : CartPole => True) CartPole.actionSpace CartPole.observationSpace where
  actionSpace _ _ := rfl
  observationSpace _ _ := rfl
  reset e _ := ⟨_, rfl, rfl, trivial⟩
  step a e _ ha := by
    have hc : actionSpace.check a = .ok () := Space.check_eq_ok_iff.mpr ha
    have hstep : Env.step a e = step a e := rfl
    simp only [hstep, step, hc]
    exact ⟨_, rfl, rfl, trivial⟩
  render _ _ := ⟨rfl, trivial⟩

theorem CartPole.truthful_build : Builder.Truthful fun seed => .ok (CartPole.start seed) :=
  ⟨_, _, _, CartPole.truthful, fun _ _ _ => trivial⟩

theorem Pendulum.truthful :
    Truthful (fun _ : Pendulum => True) Pendulum.actionSpace Pendulum.observationSpace where
  actionSpace _ _ := rfl
  observationSpace _ _ := rfl
  reset e _ := ⟨_, rfl, rfl, trivial⟩
  step a e _ ha := by
    have hc : actionSpace.check a = .ok () := Space.check_eq_ok_iff.mpr ha
    have hstep : Env.step a e = step a e := rfl
    cases a with
    | discrete index => cases ha
    | continuous values =>
      simp only [hstep, step, hc]
      exact ⟨_, rfl, rfl, trivial⟩
  render _ _ := ⟨rfl, trivial⟩

theorem Pendulum.truthful_build : Builder.Truthful fun seed => .ok (Pendulum.start seed) :=
  ⟨_, _, _, Pendulum.truthful, fun _ _ _ => trivial⟩

/-! ## The registry -/

namespace World

/-- A tabular environment behaves among the standard ones as on its own. -/
theorem embeds_tabular : Embeds World.tabular where
  actionSpace _ := rfl
  observationSpace _ := rfl
  reset _ := rfl
  step _ _ := rfl
  render _ := rfl
  table? _ := rfl

/-- A cart with a pole behaves among the standard ones as on its own. -/
theorem embeds_cartPole : Embeds World.cartPole where
  actionSpace _ := rfl
  observationSpace _ := rfl
  reset _ := rfl
  step _ _ := rfl
  render _ := rfl
  table? _ := rfl

/-- A pendulum behaves among the standard ones as on its own. -/
theorem embeds_pendulum : Embeds World.pendulum where
  actionSpace _ := rfl
  observationSpace _ := rfl
  reset _ := rfl
  step _ _ := rfl
  render _ := rfl
  table? _ := rfl

/-- Every standard environment is truthful. -/
theorem truthful_registry : registry.Truthful := by
  refine (((Registry.Truthful.empty.register _ ?_).register _ ?_).register _ ?_).register _ ?_
  · exact Grid.truthful_build.map embeds_tabular
  · exact (FrozenLake.truthful_build FrozenLake.usual true).map embeds_tabular
  · exact CartPole.truthful_build.map embeds_cartPole
  · exact Pendulum.truthful_build.map embeds_pendulum

/-- Every standard environment is dependable. -/
theorem dependable_registry : registry.Dependable := truthful_registry.dependable

end World

end Rollout
