/-
# A make forgets the past

A server never changes its registry and its settings, and a make looks at nothing
else.  So two servers with the same registry and settings, whatever requests each
of them has handled, answer a make alike; and if it succeeds, they are the same
server from then on.  The main statement is `make_forgets`.
-/
import Rollout.Proofs.CurrentEnvironment
import Rollout.Proofs.RequestRoundTrip

namespace Rollout

variable {σ : Type}

/-! ## Settings -/

/-- Two sessions have the same registry and settings. -/
structure Session.SameSettings (s t : Session σ) : Prop where
  registry : t.registry = s.registry
  config : t.config = s.config

namespace Session.SameSettings

variable {s t u : Session σ}

theorem symm (h : SameSettings s t) : SameSettings t s :=
  ⟨h.registry.symm, h.config.symm⟩

theorem trans (h : SameSettings s t) (h' : SameSettings t u) : SameSettings s u :=
  ⟨h'.registry.trans h.registry, h'.config.trans h.config⟩

variable [Env σ]

/-- A make has the same result in both sessions. -/
theorem result_make (h : SameSettings s t) (name : String) (count : UInt64) :
    (s.make name count).result = (t.make name count).result := by
  simp only [make, h.registry, h.config]
  split
  · rfl
  · split
    · rfl
    · rfl

/-- A make that succeeds leaves both sessions the same: the environment before it is gone. -/
theorem after_make (h : SameSettings s t) {name : String} {count : UInt64}
    (hok : (s.make name count).result = .ok ()) :
    (s.make name count).after = (t.make name count).after := by
  -- both build from the same seed, so they build the same batch
  obtain ⟨-, -, batch, hs, hafter⟩ := make_of_ok hok
  rw [h.result_make] at hok
  obtain ⟨-, -, batch', ht, hafter'⟩ := make_of_ok hok
  rw [h.registry, h.config, hs] at ht
  cases ht
  rw [hafter, hafter', h.registry, h.config]

end Session.SameSettings

namespace Server

variable [Env σ] {s t : Server σ} {b : Bytes} {p : MakeParam}

/-! ## One request -/

/-- No request changes the settings. -/
theorem sameSettings_handle (b : Bytes) (s : Server σ) :
    s.session.SameSettings (s.handle b).after.session := by
  rcases handle_cases b s with ⟨p, -, hok, hafter⟩ | ⟨-, -, hs⟩
  · obtain ⟨-, -, batch, -, hm⟩ := Session.make_of_ok hok
    rw [hafter, hm]
    exact ⟨rfl, rfl⟩
  · exact ⟨hs.registry, hs.config⟩

/-- The result of a make is that of the session. -/
theorem result_dispatch_make (hb : Request.decode b = .ok (.make p)) (s : Server σ) :
    (s.dispatch b).result = (s.session.make p.envName p.count).result.map fun _ => .made := by
  have ha := s.lifecycle.accept_make
  rcases hr : (respond (.make p) s.session).result with e | response
  · rw [(dispatch_of_error hb ha hr).1]
    exact hr.symm
  · rw [(dispatch_of_ok hb ha hr).1]
    exact hr.symm

/-- Equal results have equal replies. -/
theorem reply_congr (h : (s.dispatch b).result = (t.dispatch b).result) :
    (s.handle b).reply = (t.handle b).reply := by
  rcases hs : (s.dispatch b).result with e | response
  · rw [reply_of_error hs, reply_of_error (h.symm.trans hs)]
  · rw [reply_of_ok hs, reply_of_ok (h.symm.trans hs)]

/-- Two servers with the same settings answer a make alike. -/
theorem reply_make (h : s.session.SameSettings t.session)
    (hb : Request.decode b = .ok (.make p)) : (s.handle b).reply = (t.handle b).reply := by
  refine reply_congr ?_
  rw [result_dispatch_make hb, result_dispatch_make hb, h.result_make]

/-- Two servers with the same settings are the same after a make that is answered with `OK`. -/
theorem after_make (h : s.session.SameSettings t.session)
    (hb : Request.decode b = .ok (.make p))
    (hmade : (s.handle b).reply = some Response.made.encode) :
    (s.handle b).after = (t.handle b).after := by
  obtain ⟨q, hq, hok⟩ := reply_eq_made_iff.mp hmade
  cases Except.ok.inj (hb.symm.trans hq)
  have hok' : (t.session.make p.envName p.count).result = .ok () := by
    rw [← h.result_make, hok]
  rw [handle_of_make_ok hb hok, handle_of_make_ok hb hok', h.after_make hok]

/-! ## Runs -/

/-- Two runs from the same server end with the same settings. -/
theorem sameSettings_afterAll (s : Server σ) (past past' : List Bytes) :
    (s.afterAll past).session.SameSettings (s.afterAll past').session := by
  have hpast : ∀ past, s.session.SameSettings (s.afterAll past).session := by
    intro past
    refine afterAll_induction (P := fun t => s.session.SameSettings t.session) ?_ past ⟨rfl, rfl⟩
    intro b t ht
    exact ht.trans (t.sameSettings_handle b)
  exact (hpast past).symm.trans (hpast past')

/-- **A make forgets the past.**  Whatever two runs a new server has taken, it answers a make
alike after both; and if the answer is `OK`, the server is the same after both, and so are all
replies to whatever comes next. -/
theorem make_forgets (registry : Registry σ) (config : SessionConfig) (past past' : List Bytes)
    {b : Bytes} {p : MakeParam} (hb : Request.decode b = .ok (.make p)) :
    let fresh := Server.start (.start registry config)
    let s := fresh.afterAll past
    let s' := fresh.afterAll past'
    (s.handle b).reply = (s'.handle b).reply ∧
    ((s.handle b).reply = some Response.made.encode →
      (s.handle b).after = (s'.handle b).after ∧
      ∀ next, (s.handle b).after.replies next = (s'.handle b).after.replies next) := by
  intro fresh s s'
  have h := fresh.sameSettings_afterAll past past'
  refine ⟨reply_make h hb, ?_⟩
  intro hmade
  have hafter := after_make h hb hmade
  refine ⟨hafter, ?_⟩
  intro next
  rw [hafter]

/-- Two grids that were reset, and none at all, are both forgotten by a make of one lake. -/
theorem make_forgets_gridRequests :
    let fresh := Server.start (.start World.registry .usual)
    let s := fresh.afterAll gridRequests
    let b := (Request.make ⟨"FrozenLake-v1", 1⟩).encode
    let next := [Request.reset, .step ⟨none, some 2, false⟩, .reset].map Request.encode
    s.session.count? = some 2 ∧ fresh.session.count? = none ∧
    (fresh.handle b).reply = some Response.made.encode ∧
    (s.handle b).after.replies next = (fresh.handle b).after.replies next := by
  intro fresh s b next
  have hfits : (Request.make ⟨"FrozenLake-v1", 1⟩).Fits 1021 :=
    (by decide : (Text.Utf8.encode "FrozenLake-v1").length < 2 ^ 32)
  have hb : Request.decode b = .ok (.make ⟨"FrozenLake-v1", 1⟩) := hfits.decode_encode
  have hmade : (fresh.handle b).reply = some Response.made.encode := by decide +kernel
  have hcount : s.session.count? = some 2 := by decide +kernel
  obtain ⟨hreply, hafter⟩ := make_forgets World.registry .usual gridRequests [] hb
  exact ⟨hcount, rfl, hmade, (hafter (hreply.trans hmade)).2 next⟩

end Server

end Rollout
