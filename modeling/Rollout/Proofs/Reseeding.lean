/-
# Reseeding

A reset writes every field that calls have changed, and takes what it writes from the
random numbers alone.  So an environment that is reseeded and reset has no past: it goes
on as one that is newly made with the seed, whatever it was asked for before.  The main
statement is `reseeding_forgets_history`.
-/
import Rollout.Proofs.EnvironmentCalls
import Rollout.Proofs.LakeMaps
import Rollout.Proofs.StandardWorlds

namespace Rollout

/-! ## Runs from a reset -/

/-- A run that begins with a reset depends on the state that the reset leaves, and on nothing
before. -/
theorem Env.replies_seed_reset {σ : Type} [Env σ] {seed : UInt64} {e e' : σ}
    (h : Env.reset (Env.seed seed e) = Env.reset e') (calls : List EnvCall) :
    replies (.seed seed :: .reset :: calls) e = .seeded :: replies (.reset :: calls) e' := by
  simp only [replies, call, h]

/-- What embeds an environment answers its calls. -/
theorem Embeds.call {σ τ : Type} [Env σ] [Env τ] {wrap : σ → τ} (hw : Embeds wrap)
    (hseed : ∀ seed e, Env.seed seed (wrap e) = wrap (Env.seed seed e)) (c : EnvCall) (e : σ) :
    Env.call c (wrap e) = ((Env.call c e).1, wrap (Env.call c e).2) := by
  cases c with
  | seed s => simp only [Env.call, hseed]
  | reset => simp only [Env.call, hw.reset]
  | step a => simp only [Env.call, hw.step]
  | render => simp only [Env.call, hw.render]

/-! ## Environments made anew -/

namespace Tabular

variable {e : Tabular}

/-- The environment as it is made with a seed. -/
def remade (seed : UInt64) (e : Tabular) : Tabular :=
  { e with state := 0, lastAction := none, random := .ofSeed seed, steps := 0 }

/-- No call changes what the environment is made of. -/
@[simp] theorem remade_call (seed : UInt64) (c : EnvCall) (e : Tabular) :
    (Env.call c e).2.remade seed = e.remade seed := by
  cases c with
  | seed s => rfl
  | render => rfl
  | reset =>
    show (reset e).2.remade seed = _
    rcases hr : (reset e).1 with f | o
    · obtain ⟨random, hafter⟩ := of_reset_eq_error hr
      rw [hafter]
      rfl
    · obtain ⟨random, state, -, -, hafter⟩ := of_reset_eq_ok hr
      rw [hafter]
      rfl
  | step a =>
    show (step a e).2.remade seed = _
    rcases hs : (step a e).1 with f | r
    · obtain ⟨random, hafter⟩ := of_step_eq_error hs
      rw [hafter]
      rfl
    · obtain ⟨_, _, _, _, random, -, -, -, -, -, hafter⟩ := of_step_eq_ok hs
      rw [hafter]
      rfl

/-- What is made with one seed can be made with every other one. -/
theorem build_remade {table : TransitionTable} {initial : List Float} {seed : UInt64}
    (h : build table initial seed = .ok e) (seed' : UInt64) :
    build table initial seed' = .ok (e.remade seed') := by
  unfold build at h ⊢
  split at h
  · rename_i hlength
    cases h
    rw [if_pos hlength]
    rfl
  · cases h

/-- A reset after a reseed is the reset of the environment made anew: only a reset that finds no
state to start in would leave anything as it was. -/
theorem reset_seed (h : e.initial ≠ []) (seed : UInt64) :
    reset (Env.seed seed e) = reset (e.remade seed) := by
  obtain ⟨state, hstate, -⟩ := exists_sample_eq_some (.ofSeed seed) h
  have hused : (sample (Env.seed seed e).initial (Env.seed seed e).random).1 = some state := hstate
  have hnew : (sample (e.remade seed).initial (e.remade seed).random).1 = some state := hstate
  simp only [reset, hused, hnew]
  rfl

end Tabular

namespace World

variable {build : Builder World} {seed : UInt64} {w : World}

/-- **The constructors of environments**: of a table, a distribution over some states to start in, a
time limit and a picture, or of one of the two motions. -/
inductive Makes : Builder World → Prop
  | tabular (table : TransitionTable) {initial : List Float} (hinitial : initial ≠ [])
      (limit : Option Nat) (picture : Option (List String)) :
      Makes fun seed =>
        (Tabular.build table initial seed).map fun e => .tabular { e with limit, picture }
  | cartPole : Makes fun seed => .ok (.cartPole (.start seed))
  | pendulum : Makes fun seed => .ok (.pendulum (.start seed))

/-- The environment as it is made with a seed. -/
def remade (seed : UInt64) : World → World
  | .tabular e => .tabular (e.remade seed)
  | .cartPole _ => .cartPole (.start seed)
  | .pendulum _ => .pendulum (.start seed)

@[simp] theorem remade_cartPole (seed : UInt64) (e : CartPole) :
    (World.cartPole e).remade seed = .cartPole (.start seed) := rfl

@[simp] theorem remade_pendulum (seed : UInt64) (e : Pendulum) :
    (World.pendulum e).remade seed = .pendulum (.start seed) := rfl

@[simp] theorem remade_call (seed : UInt64) (c : EnvCall) (w : World) :
    (Env.call c w).2.remade seed = w.remade seed := by
  cases w with
  | tabular e =>
    rw [embeds_tabular.call fun _ _ => rfl]
    exact congrArg World.tabular (e.remade_call seed c)
  | cartPole e => rw [embeds_cartPole.call fun _ _ => rfl, remade_cartPole, remade_cartPole]
  | pendulum e => rw [embeds_pendulum.call fun _ _ => rfl, remade_pendulum, remade_pendulum]

/-- No history changes what an environment is made of. -/
theorem remade_afterAll (seed : UInt64) (calls : List EnvCall) (w : World) :
    (Env.afterAll calls w).remade seed = w.remade seed :=
  Env.afterAll_induction (P := fun w' => w'.remade seed = w.remade seed) rfl
    fun c _ w' h => (remade_call seed c w').trans h

/-- What is made with one seed can be made with every other one, and has a state to start in. -/
theorem Makes.remade (hmakes : Makes build) (h : build seed = .ok w) (seed' : UInt64) :
    build seed' = .ok (w.remade seed') := by
  cases hmakes with
  | tabular table hinitial limit picture =>
    obtain ⟨e, he, rfl⟩ := map_eq_ok_iff.mp h
    exact map_eq_ok_iff.mpr ⟨_, Tabular.build_remade he seed', rfl⟩
  | cartPole =>
    cases h
    rfl
  | pendulum =>
    cases h
    rfl

/-- Whether a reset finds a state to start in. -/
def Starts : World → Prop
  | .tabular e => e.initial ≠ []
  | _ => True

theorem Makes.starts (hmakes : Makes build) (h : build seed = .ok w) : w.Starts := by
  cases hmakes with
  | tabular table hinitial limit picture =>
    obtain ⟨e, he, rfl⟩ := map_eq_ok_iff.mp h
    show e.initial ≠ []
    rw [(Tabular.of_build_eq_ok he).2.2.1]
    exact hinitial
  | cartPole =>
    cases h
    trivial
  | pendulum =>
    cases h
    trivial

/-- A reset that has a state to start in succeeds. -/
theorem Starts.reset_eq_ok (h : w.Starts) : ∃ frame, (Env.reset w).1 = .ok frame := by
  cases w with
  | tabular e =>
    obtain ⟨state, -, hreset⟩ := Tabular.reset_eq_ok h
    exact ⟨_, congrArg Prod.fst hreset⟩
  | cartPole e => exact ⟨_, rfl⟩
  | pendulum e => exact ⟨_, rfl⟩

/-- A reset after a reseed is the reset of the environment made anew. -/
theorem reset_seed (h : (w.remade seed).Starts) :
    Env.reset (Env.seed seed w) = Env.reset (w.remade seed) := by
  cases w with
  | tabular e =>
    have hinitial : e.initial ≠ [] := h
    exact congrArg (lift World.tabular) (Tabular.reset_seed hinitial seed)
  | cartPole e => rfl
  | pendulum e => rfl

/-! ## Grids and lakes -/

theorem makes_grid : Makes fun seed => (Grid.build seed).map .tabular := by
  have hbuild : (fun seed => (Grid.build seed).map World.tabular) = fun seed =>
      (Tabular.build Grid.table (1.0 :: List.replicate 15 0.0) seed).map fun e =>
        .tabular { e with
          limit := some 100, picture := some ["SFFF", "FFFF", "FFFF", "FFFG"] } := by
    funext seed
    rw [Grid.build]
    rcases Tabular.build Grid.table (1.0 :: List.replicate 15 0.0) seed with f | e
    · rfl
    · rfl
  rw [hbuild]
  exact .tabular _ (List.cons_ne_nil _ _) _ _

/-- A map that makes a lake with one seed makes it with all. -/
theorem makes_frozenLake {map : List String} {slippery : Bool} {e : Tabular}
    (h : FrozenLake.build map slippery seed = .ok e) :
    Makes fun seed => (FrozenLake.build map slippery seed).map .tabular := by
  obtain ⟨width, hmap, hstart, -⟩ := FrozenLake.exists_rectangle_of_build_eq_ok h
  have hbuild : (fun seed => (FrozenLake.build map slippery seed).map World.tabular) = fun seed =>
      (Tabular.build ((FrozenLake.cellsOf map width).table slippery)
        (FrozenLake.cellsOf map width).initial seed).map fun e =>
          .tabular { e with limit := some 100, picture := some map } := by
    funext seed
    rw [hmap.build_eq hstart]
    rcases Tabular.build _ (FrozenLake.cellsOf map width).initial seed with f | e
    · rfl
    · rfl
  rw [hbuild]
  refine .tabular _ (List.ne_nil_of_length_pos ?_) _ _
  rw [FrozenLake.Cells.length_initial]
  exact FrozenLake.Cells.size_pos_of_starts_ne_zero (hmap.starts_ne_zero_iff.mpr hstart)

/-! ## The past -/

/-- **Reseeding forgets the past.**  The open grid, every frozen lake, every other table with states
to start in, the cart and the pendulum: let such an environment be built, and let it have any history
of reseeds, resets, steps and drawings, some of which may have failed.  Reseeded and reset it shows
the frame that an environment newly built with the seed shows after its reset, and is in the same
state.  So the replies to all that follows are the same. -/
theorem reseeding_forgets_history :
    (Makes fun seed => (Grid.build seed).map .tabular) ∧
    (∀ map slippery seed e, FrozenLake.build map slippery seed = .ok e →
      Makes fun seed => (FrozenLake.build map slippery seed).map .tabular) ∧
    ∀ (build : Builder World) (seed : UInt64) (w : World) (history : List EnvCall) (seed' : UInt64),
      Makes build → build seed = .ok w →
      ∃ fresh frame after, build seed' = .ok fresh ∧ Env.reset fresh = (.ok frame, after) ∧
        Env.reset (Env.seed seed' (Env.afterAll history w)) = (.ok frame, after) ∧
        ∀ calls, Env.replies (.seed seed' :: .reset :: calls) (Env.afterAll history w)
          = .seeded :: Env.replies (.reset :: calls) fresh := by
  refine ⟨makes_grid, fun _ _ _ _ => makes_frozenLake, ?_⟩
  intro build seed w history seed' hmakes hw
  have hfresh := hmakes.remade hw seed'
  have hstarts := hmakes.starts hfresh
  have hpast := remade_afterAll seed' history w
  have hreset : Env.reset (Env.seed seed' (Env.afterAll history w)) = Env.reset (w.remade seed') := by
    rw [← hpast] at hstarts ⊢
    exact reset_seed hstarts
  obtain ⟨frame, hframe⟩ := hstarts.reset_eq_ok
  have hafter : Env.reset (w.remade seed') = (.ok frame, (Env.reset (w.remade seed')).2) :=
    Prod.ext hframe rfl
  exact ⟨_, frame, _, hfresh, hafter, hreset.trans hafter, fun calls =>
    Env.replies_seed_reset hreset calls⟩

/-- A walk over a lake with a direction that there is not, a reseed and no reset at the end. -/
def wanderings : List EnvCall :=
  [.reset, .step (.discrete 2), .step (.discrete 9), .render, .seed 3, .step (.discrete 1)]

/-- The usual lake after this walk is another one than before, and as good as new. -/
theorem reseeding_forgets_history_wanderings :
    ∃ w fresh, (FrozenLake.build FrozenLake.usual true 1).map World.tabular = .ok w ∧
      Env.afterAll wanderings w ≠ w ∧
      (FrozenLake.build FrozenLake.usual true 7).map World.tabular = .ok fresh ∧
      ∀ calls, Env.replies (.seed 7 :: .reset :: calls) (Env.afterAll wanderings w)
        = .seeded :: Env.replies (.reset :: calls) fresh := by
  have hmoved : ((FrozenLake.build FrozenLake.usual true 1).toOption.any fun e =>
      decide (Env.afterAll wanderings (World.tabular e) ≠ .tabular e)) = true := by
    decide +kernel
  rcases he : FrozenLake.build FrozenLake.usual true 1 with f | e
  · rw [he] at hmoved
    cases hmoved
  · rw [he] at hmoved
    have hmakes := reseeding_forgets_history.2.1 _ _ _ _ he
    obtain ⟨fresh, frame, after, hfresh, -, -, hreplies⟩ :=
      reseeding_forgets_history.2.2 _ 1 (.tabular e) wanderings 7 hmakes (by rw [he]; rfl)
    exact ⟨_, fresh, rfl, of_decide_eq_true hmoved, hfresh, hreplies⟩

end World

end Rollout
