/-
# Calls that a tabular environment fails

A reset fails if there is no state to start in.  A step fails if the action does not
belong to the space, if the state lies outside the table, or if the action has no
outcome there.  A failing call leaves everything as it was but the generator: that
a distribution is empty is found out only after a random float has been drawn for it.
The main statement, `failed_calls_spend_draws`, tells the calls that leave no trace
in a run from those that move the generator on.
-/
import Rollout.Proofs.EnvironmentCalls
import Rollout.Proofs.TabularSteps

namespace Rollout

/-! ## Spent draws -/

/-- The next word changes the generator. -/
theorem Generator.word_snd_ne (g : Generator) : g.word.2 ≠ g := by
  intro h
  have hstate : g.state + 0xa0761d6478bd642f = g.state := congrArg Generator.state h
  have hzero : (0xa0761d6478bd642f : UInt64) = 0 := UInt64.add_eq_left.mp hstate
  exact absurd hzero (by decide)

/-- Whether a failure is found out only after a draw. -/
def Failure.spendsDraw : Failure → Bool
  | .noInitialState => true
  | .noOutcome _ _ => true
  | _ => false

/-- Whether a reply reports a failure that spent no draw. -/
def EnvReply.traceless (r : EnvReply) : Bool := r.failure?.any (!·.spendsDraw)

namespace Tabular

variable {e : Tabular} {c : EnvCall} {f : Failure}

/-! ## The ways to fail -/

/-- **The ways to fail**, each with the failure that is reported. -/
inductive Fails (e : Tabular) : EnvCall → Failure → Prop
  | noInitialState (h : e.initial = []) : Fails e .reset .noInitialState
  | action {a : Action} {fault : Action.Fault} (h : e.actionSpace.fault? a = some fault) :
      Fails e (.step a) (.action a fault)
  | noTransition {index : Nat} (hindex : index < e.table.actions)
      (h : e.table.states ≤ e.state) : Fails e (.step (.discrete index)) (.noTransition e.state)
  | noOutcome {index : Nat} (h : e.table.entry? e.state index = some []) :
      Fails e (.step (.discrete index)) (.noOutcome e.state index)

/-- The environment after a failure, of which only the generator may differ. -/
def afterFailure (e : Tabular) (f : Failure) : Tabular :=
  { e with random := if f.spendsDraw then e.random.word.2 else e.random }

theorem afterFailure_of_spendsDraw (h : f.spendsDraw = true) :
    e.afterFailure f = { e with random := e.random.word.2 } := by
  rw [afterFailure, if_pos h]

theorem afterFailure_of_not_spendsDraw (h : ¬ f.spendsDraw = true) : e.afterFailure f = e := by
  rw [afterFailure, if_neg h]

/-- A failure leaves the environment as it was exactly if no draw was spent on it. -/
theorem afterFailure_eq_self_iff : e.afterFailure f = e ↔ f.spendsDraw = false := by
  by_cases h : f.spendsDraw = true
  · rw [afterFailure_of_spendsDraw h, h]
    constructor
    · intro heq
      exact absurd (congrArg Tabular.random heq) e.random.word_snd_ne
    · intro hfalse
      cases hfalse
  · rw [afterFailure_of_not_spendsDraw h]
    exact iff_of_true rfl (Bool.not_eq_true _ ▸ h)

/-- An index of the space that has an entry is stepped by following its outcomes. -/
theorem step_of_entry {index : Nat} {os : List Transition}
    (h : e.table.entry? e.state index = some os) : step (.discrete index) e = e.follow index os := by
  have hindex : index < e.table.actions := (TransitionTable.of_entry?_eq_some h).1.2
  have hfault : e.actionSpace.fault? (.discrete index) = none :=
    Space.fault?_discrete_eq_none_iff.mpr ⟨index, hindex, rfl⟩
  simp only [step, Space.check_eq_ok_iff.mpr hfault, Int.toNat_natCast, h]

/-- A call that can fail in some way does so. -/
theorem Fails.call_eq (h : Fails e c f) :
    (Env.call c e).1.failure? = some f ∧ (Env.call c e).2 = e.afterFailure f := by
  cases h with
  | noInitialState h =>
    have hreset : reset e = (.error .noInitialState, { e with random := e.random.word.2 }) := by
      simp only [reset, h]
      rfl
    show (EnvReply.frame (reset e).1).failure? = _ ∧ (reset e).2 = _
    rw [hreset]
    exact ⟨rfl, rfl⟩
  | action h =>
    rename_i a fault
    have hstep : step a e = (.error (.action a fault), e) := by
      simp only [step, Space.check, h]
    show (EnvReply.step (step a e).1).failure? = _ ∧ (step a e).2 = _
    rw [hstep]
    exact ⟨rfl, rfl⟩
  | noTransition hindex h =>
    rename_i index
    have hfault : e.actionSpace.fault? (.discrete index) = none :=
      Space.fault?_discrete_eq_none_iff.mpr ⟨index, hindex, rfl⟩
    have hentry : e.table.entry? e.state index = none := by
      refine Option.eq_none_iff_forall_ne_some.mpr fun os hos => ?_
      have hstate := (TransitionTable.of_entry?_eq_some hos).1.1
      omega
    have hstep : step (.discrete index) e = (.error (.noTransition e.state), e) := by
      simp only [step, Space.check_eq_ok_iff.mpr hfault, Int.toNat_natCast, hentry]
    show (EnvReply.step (step (.discrete index) e).1).failure? = _ ∧ (step (.discrete index) e).2 = _
    rw [hstep]
    exact ⟨rfl, rfl⟩
  | noOutcome h =>
    rename_i index
    show (EnvReply.step (step (.discrete index) e).1).failure? = _ ∧ (step (.discrete index) e).2 = _
    rw [step_of_entry h]
    exact ⟨rfl, rfl⟩

/-- A call that fails does so in one of the ways. -/
theorem fails_of_failure? (h : (Env.call c e).1.failure? = some f) : Fails e c f := by
  -- each way is shown to be open first; that the call reports its failure then tells which one it is
  suffices hway : ∃ f', Fails e c f' by
    obtain ⟨f', hf'⟩ := hway
    rw [hf'.call_eq.1] at h
    cases h
    exact hf'
  cases c with
  | seed s => cases h
  | render => cases h
  | reset =>
    by_cases hne : e.initial = []
    · exact ⟨_, .noInitialState hne⟩
    · obtain ⟨state, -, hok⟩ := reset_eq_ok hne
      have hreset : (reset e).1 = .error f := EnvReply.failure?_frame_eq_some_iff.mp h
      rw [hok] at hreset
      cases hreset
  | step a =>
    have hstep : (step a e).1 = .error f := EnvReply.failure?_step_eq_some_iff.mp h
    rcases hfault : e.actionSpace.fault? a with _ | fault
    · obtain ⟨index, hindex, rfl⟩ := Space.fault?_discrete_eq_none_iff.mp hfault
      rcases Nat.lt_or_ge e.state e.table.states with hs | hs
      · obtain ⟨os, -, hentry⟩ := TransitionTable.exists_entry?_eq_some hs hindex
        by_cases hos : os = []
        · exact ⟨_, .noOutcome (hos ▸ hentry)⟩
        · obtain ⟨o, -, hchoice⟩ := exists_choice hos e.random
          rw [step_of_entry hentry, follow_of_choice hchoice] at hstep
          cases hstep
      · exact ⟨_, .noTransition hindex hs⟩
    · exact ⟨_, .action hfault⟩

/-- A call fails in the listed ways and in no other. -/
theorem failure?_eq_some_iff : (Env.call c e).1.failure? = some f ↔ Fails e c f :=
  ⟨fails_of_failure?, fun h => h.call_eq.1⟩

/-! ## Runs without the calls that leave no trace -/

/-- A call keeps the table and the initial distribution. -/
theorem dynamics_call (c : EnvCall) (e : Tabular) :
    (Env.call c e).2.table = e.table ∧ (Env.call c e).2.initial = e.initial := by
  cases c with
  | seed s => exact ⟨rfl, rfl⟩
  | reset => exact dynamics_reset e
  | step a => exact dynamics_step a e
  | render => exact ⟨rfl, rfl⟩

/-- The calls of a run, without those that fail and spend no draw. -/
def traced : List EnvCall → Tabular → List EnvCall
  | [], _ => []
  | c :: calls, e =>
    if (Env.call c e).1.traceless then traced calls (Env.call c e).2
    else c :: traced calls (Env.call c e).2

/-- A call whose failure spends no draw leaves the environment as it was. -/
theorem call_of_traceless (h : (Env.call c e).1.traceless = true) : (Env.call c e).2 = e := by
  obtain ⟨f, hf, hspends⟩ := (Option.any_eq_true _ _).mp h
  rw [(fails_of_failure? hf).call_eq.2, afterFailure_eq_self_iff]
  rwa [Bool.not_eq_true'] at hspends

/-- Without them the run gives the same replies to the other calls and ends in the same state. -/
theorem run_traced (calls : List EnvCall) (e : Tabular) :
    Env.replies (traced calls e) e = (Env.replies calls e).filter (!·.traceless) ∧
      Env.afterAll (traced calls e) e = Env.afterAll calls e := by
  induction calls generalizing e with
  | nil => exact ⟨rfl, rfl⟩
  | cons c calls ih =>
    obtain ⟨hreplies, hafter⟩ := ih (Env.call c e).2
    by_cases h : (Env.call c e).1.traceless = true
    · -- the environment has not moved, so the rest of the run starts where the whole one does
      have he : (Env.call c e).2 = e := call_of_traceless h
      rw [he] at hreplies hafter
      rw [traced, if_pos h, Env.replies, Env.afterAll_cons, he, List.filter_cons_of_neg (by simp [h])]
      exact ⟨hreplies, hafter⟩
    · rw [traced, if_neg h, Env.replies, Env.replies, Env.afterAll_cons, Env.afterAll_cons,
        List.filter_cons_of_pos (by simp [h]), hreplies, hafter]
      exact ⟨rfl, rfl⟩

/-- **Failed calls.**  After any run of a tabular environment, a call fails exactly in the listed
ways.  A failure leaves state, last action and step count as they were, and the generator too exactly
if it is not for want of an outcome or of a state to start in.  Without the calls that fail otherwise,
the run gives the same replies to the other calls and ends in the same state.  If no distribution of
the environment is empty, every failing call leaves it exactly as it was. -/
theorem failed_calls_spend_draws (e₀ : Tabular) (calls : List EnvCall) :
    let e := Env.afterAll calls e₀
    (∀ c f, (Env.call c e).1.failure? = some f ↔ Fails e c f) ∧
    (∀ c f, (Env.call c e).1.failure? = some f →
      (Env.call c e).2 = e.afterFailure f ∧ ((Env.call c e).2 = e ↔ f.spendsDraw = false)) ∧
    Env.replies (traced calls e₀) e₀ = (Env.replies calls e₀).filter (!·.traceless) ∧
    Env.afterAll (traced calls e₀) e₀ = e ∧
    (e₀.initial ≠ [] → (∀ os ∈ e₀.table.entries, os ≠ []) →
      ∀ c f, (Env.call c e).1.failure? = some f → (Env.call c e).2 = e) := by
  intro e
  obtain ⟨hreplies, hafter⟩ := run_traced calls e₀
  refine ⟨fun _ _ => failure?_eq_some_iff, ?_, hreplies, hafter, ?_⟩
  · intro c f h
    rw [(fails_of_failure? h).call_eq.2]
    exact ⟨rfl, afterFailure_eq_self_iff⟩
  · intro hinitial hentries c f h
    obtain ⟨htable, hinit⟩ : e.table = e₀.table ∧ e.initial = e₀.initial :=
      Env.afterAll_induction (P := fun e => e.table = e₀.table ∧ e.initial = e₀.initial) ⟨rfl, rfl⟩
        fun c _ e he => ⟨(dynamics_call c e).1.trans he.1, (dynamics_call c e).2.trans he.2⟩
    have hfails := fails_of_failure? h
    rw [hfails.call_eq.2, afterFailure_eq_self_iff]
    cases hfails with
    | noInitialState hnil => exact absurd (hinit ▸ hnil) hinitial
    | action _ => rfl
    | noTransition _ _ => rfl
    | noOutcome hentry =>
      exact absurd rfl (hentries [] (htable ▸ (TransitionTable.of_entry?_eq_some hentry).2))

/-- Two states without any outcome. -/
def deadEnds : Except Failure Tabular := build (.empty 2 1) [0.5, 0.5] 0

/-- A step that finds no outcome spends the draw that would have started the next episode in the
first state, so that the episode starts in the second one. -/
theorem failed_calls_spend_draws_deadEnds :
    ∃ e, deadEnds = .ok e ∧ Fails e (.step (.discrete 0)) (.noOutcome 0 0) ∧
      (Env.call (.step (.discrete 0)) e).2 ≠ e ∧ (reset e).2.state = 0 ∧
      (reset (Env.call (.step (.discrete 0)) e).2).2.state = 1 := by
  have hchecks : (deadEnds.toOption.any fun e => decide (
      (Env.call (.step (.discrete 0)) e).1.failure? = some (.noOutcome 0 0) ∧
      (reset e).2.state = 0 ∧
      (reset (Env.call (.step (.discrete 0)) e).2).2.state = 1)) = true := by
    decide +kernel
  rcases hbuild : deadEnds with f | e
  · rw [hbuild] at hchecks
    cases hchecks
  · rw [hbuild] at hchecks
    obtain ⟨hfailure, hfirst, hsecond⟩ := of_decide_eq_true hchecks
    obtain ⟨hfails, huntouched, -⟩ := failed_calls_spend_draws e []
    refine ⟨e, rfl, (hfails _ _).mp hfailure, ?_, hfirst, hsecond⟩
    intro h
    cases (huntouched _ _ hfailure).2.mp h

end Tabular

end Rollout
