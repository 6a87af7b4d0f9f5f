/-
# The current environment

The lifecycle and the session of a server are changed apart from each other.  They
agree after every request: the server is ready exactly if the session holds an
environment, and its name and its number of instances are those of the last `make`
that was answered with `OK`.  The main statement is `current_of_requests`.
-/
import Rollout.Proofs.Runs
import Rollout.Proofs.ServerCalls
import Rollout.Proofs.SessionCalls
import Rollout.World.Standard

namespace Rollout

variable {σ : Type} [Env σ]

/-! ## The same environment -/

/-- Two sessions have the same registry and settings, and the same environment by its name and
its number of instances. -/
structure Session.SameEnv (s t : Session σ) : Prop where
  registry : t.registry = s.registry
  config : t.config = s.config
  name : t.envName? = s.envName?
  count : t.count? = s.count?

namespace Session

variable {s : Session σ} {a : Active σ}

omit [Env σ] in
theorem SameEnv.refl (s : Session σ) : SameEnv s s := ⟨rfl, rfl, rfl, rfl⟩

omit [Env σ] in
theorem sameEnv_withBatch (ha : s.active = some a) {b : Batch σ}
    (h : b.instances.length = a.batch.instances.length) : SameEnv s (s.withBatch a b) := by
  refine ⟨rfl, rfl, ?_, ?_⟩
  · rw [envName?, envName?, ha]
    rfl
  · rw [count?, count?, ha]
    exact congrArg some h

/-- A reset keeps the environment. -/
theorem sameEnv_reset (s : Session σ) : SameEnv s s.reset.after := by
  rcases ha : s.active with _ | a
  · rw [reset, ha]
    exact .refl s
  · rw [(reset_eq ha).2]
    refine sameEnv_withBatch ha ?_
    rw [a.batch.reset_eq.2.1]
    exact length_sweep ..

/-- A step keeps the environment. -/
theorem sameEnv_step (actions : Tensor Numeric.Double) (render : Bool) (s : Session σ) :
    SameEnv s (s.step actions render).after := by
  rcases ha : s.active with _ | a
  · rw [step, ha]
    exact .refl s
  · rcases hact : batchAction a.batch.actionSpace actions with fault | act
    · simp only [step, ha, hact]
      exact .refl s
    · have hl := Batch.length_instances_step act a.batch
      rcases hb : (a.batch.step act).1 with f | r
      · rw [(step_of_error ha hact hb).2]
        exact sameEnv_withBatch ha hl
      · cases render with
        | false =>
          rw [(step_of_ok ha hact hb).2]
          exact sameEnv_withBatch ha hl
        | true =>
          rw [(step_of_ok_of_render ha hact hb).2]
          refine sameEnv_withBatch ha ?_
          rw [← hl]
          exact length_drawAll _

end Session

namespace Server

variable {s : Server σ} {b : Bytes}

/-- Every method but `make` keeps the environment. -/
theorem sameEnv_respond {r : Request} (h : r.method ≠ .make) (s : Session σ) :
    s.SameEnv (respond r s).after := by
  cases r with
  | info =>
    rw [respond, (info_eq s).2]
    exact .refl s
  | make p => exact absurd rfl h
  | reset => exact s.sameEnv_reset
  | step p =>
    rw [respond]
    rcases step_cases p s with ⟨e, hs⟩ | ⟨t, -, -, hs⟩
    · rw [hs]
      exact .refl s
    · rw [hs]
      exact s.sameEnv_step t p.render
  | dynamics p =>
    rw [respond, (dynamics_eq p s).2]
    exact .refl s

/-! ## One request -/

/-- The parameters of a request, if it is a `make` that is answered with `OK`. -/
def madeBy? (b : Bytes) (s : Server σ) : Option MakeParam :=
  match Request.decode b with
  | .ok (.make p) => if (s.handle b).reply = some Response.made.encode then some p else none
  | _ => none

theorem madeBy?_eq_some_iff {p : MakeParam} : s.madeBy? b = some p ↔
    Request.decode b = .ok (.make p) ∧ (s.handle b).reply = some Response.made.encode := by
  rw [madeBy?]
  constructor
  · intro h
    split at h
    · rename_i q hq
      split at h
      · rename_i hr
        cases h
        exact ⟨hq, hr⟩
      · cases h
    · cases h
  · rintro ⟨hb, hr⟩
    rw [hb]
    exact if_pos hr

/-- A make that is not answered with `OK` changes nothing. -/
theorem handle_of_make_refused {p : MakeParam} (hb : Request.decode b = .ok (.make p))
    (h : (s.handle b).reply ≠ some Response.made.encode) : (s.handle b).after = s := by
  have ha := s.lifecycle.accept_make
  rcases hm : (s.session.make p.envName p.count).result with e | u
  · have hr : (respond (.make p) s.session).result = .error e := map_eq_error_iff.mpr hm
    rw [after_handle, (dispatch_of_error hb ha hr).2]
    show { s with session := (s.session.make p.envName p.count).after } = s
    rw [Session.make_of_error hm]
  · exact absurd (reply_eq_made_iff.mpr ⟨p, hb, hm⟩) h

/-- A make that is answered with `OK` replaces the environment. -/
theorem handle_of_make_ok {p : MakeParam} (hb : Request.decode b = .ok (.make p))
    (h : (s.session.make p.envName p.count).result = .ok ()) :
    (s.handle b).after = ⟨(s.session.make p.envName p.count).after, .ready⟩ := by
  have ha := s.lifecycle.accept_make
  have hr : (respond (.make p) s.session).result = .ok .made := map_eq_ok_iff.mpr ⟨(), h, rfl⟩
  rw [after_handle, (dispatch_of_ok hb ha hr).2]
  show Server.mk (s.session.make p.envName p.count).after (s.lifecycle.after .make) = _
  rw [Lifecycle.after_make]

/-- A request that is no make keeps the lifecycle and the environment. -/
theorem handle_of_not_make (h : ∀ p, Request.decode b ≠ .ok (.make p)) :
    (s.handle b).after.lifecycle = s.lifecycle ∧
      s.session.SameEnv (s.handle b).after.session := by
  have hmethod : ∀ r, Request.decode b = .ok r → r.method ≠ .make := by
    intro r hb hm
    cases r with
    | make p => exact h p hb
    | _ => cases hm
  rw [after_handle]
  rcases dispatch_cases b s with ⟨e, hb⟩ | ⟨r, e, hb, ha⟩ | ⟨r, e, hb, ha, hr⟩ | ⟨r, rp, hb, ha, hr⟩
  · rw [dispatch_of_undecodable hb]
    exact ⟨rfl, .refl _⟩
  · rw [dispatch_of_not_accepted hb ha]
    exact ⟨rfl, .refl _⟩
  · rw [(dispatch_of_error hb ha hr).2]
    exact ⟨rfl, sameEnv_respond (hmethod r hb) _⟩
  · rw [(dispatch_of_ok hb ha hr).2]
    refine ⟨?_, sameEnv_respond (hmethod r hb) _⟩
    exact s.lifecycle.after_of_ne_make (hmethod r hb)

/-- **One request.**  It is a make answered with `OK`, which replaces the environment, or it keeps
the lifecycle and the environment. -/
theorem handle_cases (b : Bytes) (s : Server σ) :
    (∃ p, s.madeBy? b = some p ∧ (s.session.make p.envName p.count).result = .ok () ∧
      (s.handle b).after = ⟨(s.session.make p.envName p.count).after, .ready⟩) ∨
    (s.madeBy? b = none ∧ (s.handle b).after.lifecycle = s.lifecycle ∧
      s.session.SameEnv (s.handle b).after.session) := by
  rcases hm : s.madeBy? b with _ | p
  · refine Or.inr ⟨rfl, ?_⟩
    -- a make that was refused changes nothing at all
    by_cases hb : ∃ p, Request.decode b = .ok (.make p)
    · obtain ⟨p, hb⟩ := hb
      have hr : (s.handle b).reply ≠ some Response.made.encode := by
        intro hr
        rw [madeBy?_eq_some_iff.mpr ⟨hb, hr⟩] at hm
        cases hm
      rw [handle_of_make_refused hb hr]
      exact ⟨rfl, .refl _⟩
    · rw [not_exists] at hb
      exact handle_of_not_make hb
  · obtain ⟨hb, hr⟩ := madeBy?_eq_some_iff.mp hm
    obtain ⟨q, hq, hok⟩ := reply_eq_made_iff.mp hr
    rw [hb] at hq
    cases hq
    exact Or.inl ⟨p, rfl, hok, handle_of_make_ok hb hok⟩

/-! ## Runs -/

/-- The parameters of the makes among requests that are answered with `OK`. -/
def made : (requests : List Bytes) → Server σ → List MakeParam
  | [], _ => []
  | b :: bs, s => (s.madeBy? b).toList ++ made bs (s.handle b).after

/-- What a server knows after the makes that were answered with `OK`. -/
structure Current (config : SessionConfig) (ps : List MakeParam) (s : Server σ) : Prop where
  settings : s.session.config = config
  lifecycle : s.lifecycle = .ready ↔ s.session.active.isSome
  name : s.session.envName? = ps.getLast?.map MakeParam.envName
  count : s.session.count? = ps.getLast?.map fun p => p.count.toNat
  bounds : ∀ p ∈ ps, 1 ≤ p.count.toNat ∧ p.count.toNat ≤ config.mostInstances.toNat

variable {config : SessionConfig} {ps : List MakeParam}

omit [Env σ] in
theorem Current.start (registry : Registry σ) (config : SessionConfig) :
    Current config [] (Server.start (.start registry config)) where
  settings := rfl
  lifecycle := by
    constructor
    · intro h
      cases h
    · intro h
      cases h
  name := rfl
  count := rfl
  bounds p hp := absurd hp List.not_mem_nil

/-- Every request keeps the lifecycle and the session in agreement. -/
theorem Current.handle (h : Current config ps s) (b : Bytes) :
    Current config (ps ++ (s.madeBy? b).toList) (s.handle b).after := by
  rcases handle_cases b s with ⟨p, hp, hok, hafter⟩ | ⟨hp, hl, hs⟩
  · obtain ⟨hpos, hmost, batch, hbuild, hm⟩ := Session.make_of_ok hok
    have hlen := (Batch.getElem?_of_buildInstances_eq_ok (Batch.of_build_eq_ok hbuild).1).1
    -- the new environment has the name and the number of the make, whatever was there before
    rw [hp, hafter, hm, Option.toList_some]
    refine ⟨h.settings, ?_, ?_, ?_, ?_⟩
    · exact ⟨fun _ => rfl, fun _ => rfl⟩
    · rw [List.getLast?_append]
      rfl
    · rw [List.getLast?_append]
      exact congrArg some hlen
    · intro q hq
      rcases List.mem_append.mp hq with hq | hq
      · exact h.bounds q hq
      · rw [List.mem_singleton.mp hq, ← h.settings]
        exact ⟨UInt64.lt_iff_toNat_lt.mp hpos, UInt64.le_iff_toNat_le.mp hmost⟩
  · rw [hp, Option.toList_none, List.append_nil]
    refine ⟨?_, ?_, ?_, ?_, h.bounds⟩
    · rw [hs.config, h.settings]
    · -- whether there is an environment can be seen from its name
      have hsome : ∀ t : Session σ, t.active.isSome = t.envName?.isSome := by
        intro t
        rw [Session.envName?, Option.isSome_map]
      rw [hl, h.lifecycle, hsome, hsome, hs.name]
    · rw [hs.name, h.name]
    · rw [hs.count, h.count]

/-- After a run, the current environment is that of the last make answered with `OK`. -/
theorem Current.afterAll (h : Current config ps s) (requests : List Bytes) :
    Current config (ps ++ s.made requests) (s.afterAll requests) := by
  -- the makes of the run so far grow with every request, so they are generalised too
  induction requests generalizing s ps with
  | nil =>
    rw [made, List.append_nil]
    exact h
  | cons b bs ih =>
    rw [made, ← List.append_assoc]
    exact ih (h.handle b)

/-- A server that is ready stays ready. -/
theorem ready_afterAll (h : s.lifecycle = .ready) (requests : List Bytes) :
    (s.afterAll requests).lifecycle = .ready := by
  refine afterAll_induction (P := fun s => s.lifecycle = .ready) ?_ requests h
  intro b s hs
  rcases handle_cases b s with ⟨p, -, -, hafter⟩ | ⟨-, hl, -⟩
  · rw [hafter]
  · rw [hl, hs]

/-- Before an environment was made, every other request is refused. -/
theorem handle_of_uninitialized (h : s.lifecycle = .uninitialized) {r : Request}
    (hb : Request.decode b = .ok r) (hm : r.method ≠ .make) :
    (s.handle b).reply = some (Response.error (Rejection.notReady r.method).message).encode ∧
      (s.handle b).after = s := by
  have ha : s.lifecycle.accept r.method = .error (.notReady r.method) := by
    rw [h]
    cases hr : r.method with
    | make => exact absurd hr hm
    | _ => rfl
  have hd := dispatch_of_not_accepted hb ha
  constructor
  · rw [reply_of_error (by rw [hd]; rfl), if_neg (by intro h; cases h)]
  · rw [after_handle, hd]
    rfl

/-- **The current environment.**  After any requests to a new server, it is ready exactly if the
session holds an environment, and it stays ready after any more of them; before that, every other
request than `make` is refused and changes nothing; the name and the number of instances are those
of the last make that was answered with `OK`, and the number lies within the bounds; and a make
that is answered with an error changes nothing. -/
theorem current_of_requests (registry : Registry σ) (config : SessionConfig)
    (requests : List Bytes) :
    let fresh := Server.start (.start registry config)
    let s := fresh.afterAll requests
    (s.lifecycle = .ready ↔ s.session.active.isSome) ∧
    (s.lifecycle = .ready → ∀ more, (s.afterAll more).lifecycle = .ready) ∧
    (s.lifecycle = .uninitialized → ∀ b r, Request.decode b = .ok r → r.method ≠ .make →
      (s.handle b).reply = some (Response.error (Rejection.notReady r.method).message).encode ∧
        (s.handle b).after = s) ∧
    s.session.envName? = (fresh.made requests).getLast?.map MakeParam.envName ∧
    s.session.count? = (fresh.made requests).getLast?.map (fun p => p.count.toNat) ∧
    (∀ n, s.session.count? = some n → 1 ≤ n ∧ n ≤ config.mostInstances.toNat) ∧
    ∀ b p m, Request.decode b = .ok (.make p) →
      (s.handle b).reply = some (Response.error m).encode → (s.handle b).after = s := by
  intro fresh s
  have h : Current config (fresh.made requests) s := (Current.start registry config).afterAll requests
  refine ⟨h.lifecycle, ready_afterAll, ?_, h.name, h.count, ?_, ?_⟩
  · intro hu b r hb hm
    exact handle_of_uninitialized hu hb hm
  · intro n hn
    rw [h.count, Option.map_eq_some_iff] at hn
    obtain ⟨p, hp, rfl⟩ := hn
    exact h.bounds p (List.mem_of_getLast? hp)
  · intro b p m hb hr
    refine handle_of_make_refused hb ?_
    rw [hr]
    intro hmade
    cases Response.encode_eq_made_iff.mp (Option.some.inj hmade)

/-- A make of two grids, a reset, and a make of an environment that does not exist. -/
def gridRequests : List Bytes :=
  [Request.make ⟨"GridWorld-v0", 2⟩, .reset, .make ⟨"NoWorld-v0", 1⟩].map Request.encode

/-- The two grids stay the current environment. -/
theorem current_of_requests_gridRequests :
    let fresh := Server.start (.start World.registry .usual)
    let s := fresh.afterAll gridRequests
    fresh.made gridRequests = [⟨"GridWorld-v0", 2⟩] ∧ s.lifecycle = .ready ∧
      s.session.envName? = some "GridWorld-v0" ∧ s.session.count? = some 2 := by
  intro fresh s
  have hmade : fresh.made gridRequests = [⟨"GridWorld-v0", 2⟩] := by decide +kernel
  obtain ⟨hready, -, -, hname, hcount, -, -⟩ :=
    current_of_requests World.registry .usual gridRequests
  have hname' : s.session.envName? = some "GridWorld-v0" := by
    rw [hname, hmade]
    rfl
  refine ⟨hmade, hready.mpr ?_, hname', ?_⟩
  · rw [Session.envName?, Option.map_eq_some_iff] at hname'
    obtain ⟨a, ha, -⟩ := hname'
    rw [ha]
    rfl
  · rw [hcount, hmade]
    rfl

end Server

end Rollout
