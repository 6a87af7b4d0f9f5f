/-
# Episodes on a lake

A walk over a lake never gets stuck: a reset and a step in one of the four directions
always succeed.  The goal and the holes cannot be left again, and only the step that
enters the goal from outside pays.  So an episode pays once at most, however it is
walked and wherever it starts: `episodes_pay_once`.
-/
import Rollout.Proofs.EnvironmentCalls
import Rollout.Proofs.LakeTables

namespace Rollout.FrozenLake

open Numeric (Single)

variable {map : List String} {width : Nat} {slippery : Bool} {e : Tabular} {c : EnvCall}

/-! ## Environments on a lake -/

/-- The environment walks over the lake of a map. -/
structure OnLake (map : List String) (width : Nat) (slippery : Bool) (e : Tabular) : Prop where
  rectangle : Rectangle map width
  table : e.table = (cellsOf map width).table slippery
  initial : e.initial = (cellsOf map width).initial
  state : e.state < map.length * width

/-- A lake that is built is one on its map. -/
theorem exists_onLake_of_build_eq_ok {seed : UInt64} (h : build map slippery seed = .ok e) :
    ∃ width, OnLake map width slippery e := by
  obtain ⟨width, hmap, -, htable, hinitial, hstate⟩ := exists_rectangle_of_build_eq_ok h
  exact ⟨width, hmap, htable, hinitial, hstate ▸ Nat.mul_pos hmap.length_pos hmap.pos⟩

/-! ## Pay -/

/-- **What a step pays** that goes from one state to another. -/
structure Pays (map : List String) (width state state' : Nat) (r : Step) : Prop where
  terminated : r.terminated = true ↔ Ends map width state'
  one : r.reward = .ofFloat 1.0 ↔ Holds map width state' 'G' ∧ ¬ Ends map width state
  zero : r.reward ≠ .ofFloat 1.0 → r.reward = .ofFloat 0.0
  stays : Ends map width state → state' = state

theorem narrow_one : (Numeric.Double.ofFloat 1.0).narrow = .ofFloat 1.0 := by decide +kernel

theorem narrow_zero : (Numeric.Double.ofFloat 0.0).narrow = .ofFloat 0.0 := by decide +kernel

theorem zero_ne_one : Single.ofFloat 0.0 ≠ .ofFloat 1.0 := by decide +kernel

/-- What is paid after the end. -/
theorem Pays.of_ends {state state' : Nat} {r : Step} (h : Pays map width state state' r)
    (hend : Ends map width state) : r.reward = .ofFloat 0.0 ∧ r.terminated = true := by
  refine ⟨h.zero fun hone => (h.one.mp hone).2 hend, h.terminated.mpr ?_⟩
  rw [h.stays hend]
  exact hend

/-- An outcome of a lake pays as it should. -/
theorem Rectangle.pays_of_mem_outcomes (h : Rectangle map width) {state direction : Nat}
    (hs : state < map.length * width) {o : Transition}
    (ho : o ∈ (cellsOf map width).outcomes slippery state direction)
    (observation : Observation) (truncated : Bool) :
    Pays map width state o.next
      ⟨observation, (Numeric.Double.ofFloat o.reward).narrow, o.done, truncated⟩ := by
  by_cases hend : Ends map width state
  · rw [h.outcomes_of_ends hend, List.mem_singleton] at ho
    subst ho
    refine ⟨iff_of_true rfl hend, iff_of_false ?_ fun hgoal => hgoal.2 hend, fun _ => narrow_zero,
      fun _ => rfl⟩
    rw [narrow_zero]
    exact zero_ne_one
  · obtain ⟨way, hleads⟩ := h.exists_leads_of_mem_outcomes hs hend ho
    refine ⟨hleads.done, ?_, ?_, fun hends => absurd hends hend⟩
    · by_cases hgoal : Holds map width o.next 'G'
      · rw [hleads.reward, if_pos hgoal]
        exact iff_of_true narrow_one ⟨hgoal, hend⟩
      · rw [hleads.reward, if_neg hgoal, narrow_zero]
        exact iff_of_false zero_ne_one fun h => hgoal h.1
    · intro hne
      by_cases hgoal : Holds map width o.next 'G'
      · rw [hleads.reward, if_pos hgoal] at hne
        exact absurd narrow_one hne
      · rw [hleads.reward, if_neg hgoal]
        exact narrow_zero

namespace OnLake

/-! ## Calls -/

/-- A step in one of the four directions succeeds, and pays as it should. -/
theorem step_eq_ok (h : OnLake map width slippery e) {a : Action}
    (ha : (Space.discrete 4).fault? a = none) :
    ∃ r, (Tabular.step a e).1 = .ok r ∧
      Pays map width e.state (Tabular.step a e).2.state r ∧
      r.observation = Tabular.observe (Tabular.step a e).2.state ∧
      OnLake map width slippery (Tabular.step a e).2 := by
  have hstates : e.table.states = map.length * width := by rw [h.table]; rfl
  have hactions : e.table.actions = 4 := by rw [h.table]; rfl
  have hclosed : e.table.Closed := by rw [h.table]; exact Cells.closed_table _ _
  -- that there is a next state follows from the closed table, what it pays from the entry
  obtain ⟨r, hr, hobservation, htable, hinitial, hnext⟩ :=
    Tabular.step_eq_ok hclosed (hstates ▸ h.state) (hactions ▸ ha)
  obtain ⟨direction, os, k, o, random, rfl, hentry, -, ho, hr', hafter⟩ := Tabular.of_step_eq_ok hr
  obtain ⟨i, hi, hindex⟩ := Space.fault?_discrete_eq_none_iff.mp ha
  have hd : direction < 4 := by
    cases hindex
    exact hi
  rw [h.table, h.rectangle.entry? h.state hd, Option.some.injEq] at hentry
  subst hentry
  refine ⟨r, hr, ?_, hobservation, h.rectangle, htable.trans h.table, hinitial.trans h.initial,
    hstates ▸ hnext⟩
  rw [hafter, hr']
  exact h.rectangle.pays_of_mem_outcomes h.state (List.mem_of_getElem? ho) _ _

/-- A reset succeeds, in whatever state. -/
theorem reset_eq_ok (h : OnLake map width slippery e) :
    ∃ o, (Tabular.reset e).1 = .ok o ∧ OnLake map width slippery (Tabular.reset e).2 := by
  have hlength : e.initial.length = map.length * width := by
    rw [h.initial, Cells.length_initial]
    rfl
  have hpos : 0 < e.initial.length := by
    rw [hlength]
    exact Nat.mul_pos h.rectangle.length_pos h.rectangle.pos
  obtain ⟨state, hstate, hreset⟩ := Tabular.reset_eq_ok (List.length_pos_iff.mp hpos)
  rw [hreset]
  exact ⟨_, rfl, h.rectangle, h.table, h.initial, hlength ▸ hstate⟩

/-- No call fails, and the environment stays on its lake. -/
theorem call (h : OnLake map width slippery e) (hc : c.Fits (.discrete 4)) :
    (Env.call c e).1.failure? = none ∧ OnLake map width slippery (Env.call c e).2 := by
  cases c with
  | seed s => exact ⟨rfl, h.rectangle, h.table, h.initial, h.state⟩
  | reset =>
    obtain ⟨o, ho, hafter⟩ := h.reset_eq_ok
    refine ⟨?_, hafter⟩
    show (EnvReply.frame (Tabular.reset e).1).failure? = none
    rw [ho]
    rfl
  | step a =>
    obtain ⟨r, hr, -, -, hafter⟩ := h.step_eq_ok hc
    refine ⟨?_, hafter⟩
    show (EnvReply.step (Tabular.step a e).1).failure? = none
    rw [hr]
    rfl
  | render => exact ⟨rfl, h⟩

/-- A call within an episode either is no step and keeps the state, or pays as it should. -/
theorem pays_of_call (h : OnLake map width slippery e) (hc : c.Fits (.discrete 4))
    (hreset : c ≠ .reset) :
    ((Env.call c e).1.step? = none ∧ (Env.call c e).2.state = e.state) ∨
      ∃ r, (Env.call c e).1.step? = some r ∧ Pays map width e.state (Env.call c e).2.state r := by
  cases c with
  | seed s => exact .inl ⟨rfl, rfl⟩
  | reset => exact absurd rfl hreset
  | step a =>
    obtain ⟨r, hr, hpays, -⟩ := h.step_eq_ok hc
    refine .inr ⟨r, ?_, hpays⟩
    show (EnvReply.step (Tabular.step a e).1).step? = some r
    rw [hr]
    rfl
  | render => exact .inl ⟨rfl, rfl⟩

/-! ## Runs -/

variable {calls : List EnvCall}

theorem afterAll (h : OnLake map width slippery e) (hcalls : ∀ c ∈ calls, c.Fits (.discrete 4)) :
    OnLake map width slippery (Env.afterAll calls e) :=
  Env.afterAll_induction h fun c hc _ he => (he.call (hcalls c hc)).2

/-- No call of a run fails. -/
theorem failure?_replies (h : OnLake map width slippery e)
    (hcalls : ∀ c ∈ calls, c.Fits (.discrete 4)) :
    ∀ reply ∈ Env.replies calls e, reply.failure? = none := by
  induction calls generalizing e with
  | nil => exact List.forall_mem_nil _
  | cons c calls ih =>
    rw [List.forall_mem_cons] at hcalls
    obtain ⟨hreply, hafter⟩ := h.call hcalls.1
    exact List.forall_mem_cons.mpr ⟨hreply, ih hafter hcalls.2⟩

/-- After the end nothing moves and nothing is paid. -/
theorem steps_of_ends (h : OnLake map width slippery e) (hend : Ends map width e.state)
    (hcalls : ∀ c ∈ calls, c.Fits (.discrete 4) ∧ c ≠ .reset) :
    (Env.afterAll calls e).state = e.state ∧
      ∀ r ∈ Env.steps calls e, r.reward = .ofFloat 0.0 ∧ r.terminated = true := by
  induction calls generalizing e with
  | nil => exact ⟨rfl, List.forall_mem_nil _⟩
  | cons c calls ih =>
    rw [List.forall_mem_cons] at hcalls
    obtain ⟨⟨hc, hreset⟩, hrest⟩ := hcalls
    have hafter := (h.call hc).2
    rw [Env.afterAll_cons, Env.steps_cons, List.forall_mem_append]
    rcases h.pays_of_call hc hreset with ⟨hnone, hstate⟩ | ⟨r, hr, hpays⟩
    · obtain ⟨hkept, hsteps⟩ := ih hafter (hstate ▸ hend) hrest
      rw [hnone]
      exact ⟨hkept.trans hstate, List.forall_mem_nil _, hsteps⟩
    · have hstate := hpays.stays hend
      obtain ⟨hkept, hsteps⟩ := ih hafter (hstate ▸ hend) hrest
      rw [hr]
      exact ⟨hkept.trans hstate, List.forall_mem_singleton.mpr (hpays.of_ends hend), hsteps⟩

/-- An episode pays once at most, from wherever it goes on. -/
theorem countP_pay_le_one (h : OnLake map width slippery e)
    (hcalls : ∀ c ∈ calls, c.Fits (.discrete 4) ∧ c ≠ .reset) :
    (Env.steps calls e).countP (·.reward = .ofFloat 1.0) ≤ 1 := by
  induction calls generalizing e with
  | nil => exact Nat.zero_le 1
  | cons c calls ih =>
    rw [List.forall_mem_cons] at hcalls
    obtain ⟨⟨hc, hreset⟩, hrest⟩ := hcalls
    have hafter := (h.call hc).2
    rw [Env.steps_cons, List.countP_append]
    rcases h.pays_of_call hc hreset with ⟨hnone, -⟩ | ⟨r, hr, hpays⟩
    · rw [hnone, Option.toList_none, List.countP_nil, Nat.zero_add]
      exact ih hafter hrest
    · rw [hr, Option.toList_some, List.countP_singleton]
      by_cases hone : r.reward = .ofFloat 1.0
      · -- the goal has been entered, and nothing is paid any more
        obtain ⟨-, hsteps⟩ := hafter.steps_of_ends (.inl (hpays.one.mp hone).1) hrest
        have hzero : (Env.steps calls (Env.call c e).2).countP (·.reward = .ofFloat 1.0) = 0 := by
          rw [List.countP_eq_zero]
          intro r' hr'
          rw [decide_eq_true_iff, (hsteps r' hr').1]
          exact zero_ne_one
        rw [if_pos (decide_eq_true hone)]
        omega
      · rw [if_neg (by simpa using hone), Nat.zero_add]
        exact ih hafter hrest

end OnLake

/-! ## Episodes -/

/-- **Lake episodes pay at most once.**  A lake is built and any run of calls made on it, with steps
in the four directions; none of them fails.  The next step tells in which cell the agent stands, and
has terminated exactly in the goal or a hole; it pays one exactly if it enters the goal from a cell
that is neither, and else nothing.  From there an episode pays once at most, and after a step that
has terminated all others of the episode stay, pay nothing and have terminated too. -/
theorem episodes_pay_once {seed : UInt64} {e₀ : Tabular} (h : build map slippery seed = .ok e₀)
    (calls : List EnvCall) (hcalls : ∀ c ∈ calls, c.Fits (.discrete 4)) :
    let e := Env.afterAll calls e₀
    (∀ reply ∈ Env.replies calls e₀, reply.failure? = none) ∧
    ∃ width, Rectangle map width ∧
      (∀ a, (Space.discrete 4).fault? a = none → ∃ r, (Tabular.step a e).1 = .ok r ∧
        let e' := (Tabular.step a e).2
        r.observation = Tabular.observe e'.state ∧ Pays map width e.state e'.state r ∧
        (r.terminated = true → ∀ later, (∀ c ∈ later, c.Fits (.discrete 4) ∧ c ≠ .reset) →
          (Env.afterAll later e').state = e'.state ∧
          ∀ r' ∈ Env.steps later e', r'.reward = .ofFloat 0.0 ∧ r'.terminated = true)) ∧
      ∀ episode, (∀ c ∈ episode, c.Fits (.discrete 4) ∧ c ≠ .reset) →
        (Env.steps episode e).countP (·.reward = .ofFloat 1.0) ≤ 1 := by
  intro e
  obtain ⟨width, hstart⟩ := exists_onLake_of_build_eq_ok h
  have hlake : OnLake map width slippery e := hstart.afterAll hcalls
  refine ⟨hstart.failure?_replies hcalls, width, hstart.rectangle, ?_,
    fun _ => hlake.countP_pay_le_one⟩
  intro a ha
  obtain ⟨r, hr, hpays, hobservation, hafter⟩ := hlake.step_eq_ok ha
  refine ⟨r, hr, hobservation, hpays, ?_⟩
  intro hterminated later hlater
  exact hafter.steps_of_ends (hpays.terminated.mp hterminated) hlater

/-- On a lake of a start and the goal the first step to the right pays, and no step after it. -/
theorem episodes_pay_once_twoCells :
    ∃ e₀, build ["SG"] false 0 = .ok e₀ ∧
      let e := Env.afterAll [.step (.discrete 1), .reset] e₀
      let episode := [.step (.discrete 2), .render, .step (.discrete 2), .step (.discrete 0)]
      (Env.steps episode e).map (fun r => (r.reward, r.terminated))
        = [(.ofFloat 1.0, true), (.ofFloat 0.0, true), (.ofFloat 0.0, true)] ∧
      (Env.steps episode e).countP (·.reward = .ofFloat 1.0) ≤ 1 := by
  have hshown : ((build ["SG"] false 0).toOption.map fun e₀ =>
      (Env.steps [.step (.discrete 2), .render, .step (.discrete 2), .step (.discrete 0)]
        (Env.afterAll [.step (.discrete 1), .reset] e₀)).map fun r => (r.reward, r.terminated))
      = some [(.ofFloat 1.0, true), (.ofFloat 0.0, true), (.ofFloat 0.0, true)] := by
    decide +kernel
  obtain ⟨e₀, he⟩ := exists_build_eq_ok_iff.mpr
    ⟨⟨2, (⟨by decide, by decide, by decide +kernel⟩ : Rectangle ["SG"] 2)⟩,
      (by decide +kernel : HasStart ["SG"])⟩
  rw [he] at hshown
  obtain ⟨-, -, -, -, hepisode⟩ :=
    episodes_pay_once he [.step (.discrete 1), .reset] (by decide)
  exact ⟨e₀, he, Option.some.inj hshown, hepisode _ (by decide)⟩

end Rollout.FrozenLake
