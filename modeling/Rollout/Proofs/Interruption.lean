/-
# Interrupted receives

`Passes` says that the loop comes through turns, with what it does in them.  The flag
is looked at before a turn and not within it.  So a receive in which the flag is
cleared is the last one; but a request that arrives in it is still handled, and its
reply is sent.  The main statement is `interrupted_receive_is_last`.
-/
import Rollout.Proofs.ServingFold

namespace Rollout.Serving

open ServingEvent (requests)

variable {σ : Type} [Env σ]

/-! ## Turns that are passed -/

/-- The loop comes through these turns: the flag stays set, the transport does not fail, and
every request has a reply.  With what the loop does and the server after it. -/
inductive Passes : List Turn → Server σ → List ServingEvent → Server σ → Prop
  | nil (s : Server σ) : Passes [] s [] s
  | idle {t : Turn} {turns : List Turn} {s s' : Server σ} {events : List ServingEvent}
    (running : t.interrupted = false) (arrival : t.arrival = .ok none)
    (next : Passes turns s events s') :
    Passes (t :: turns) s (.look true :: .receive (.ok none) :: events) s'
  | answered {t : Turn} {turns : List Turn} {s s' : Server σ} {b reply : Bytes}
    {events : List ServingEvent} (running : t.interrupted = false)
    (arrival : t.arrival = .ok (some b)) (answer : (s.handle b).reply = some reply)
    (sent : t.sendFault = none) (next : Passes turns (s.handle b).after events s') :
    Passes (t :: turns) s
      (.look true :: .receive (.ok (some b)) :: .send reply none :: events) s'

namespace Passes

variable {turns more : List Turn} {s m s' : Server σ} {events late : List ServingEvent}
  {outcome : ServingEnd}

/-- Turns are passed one part after the other. -/
theorem append (h : Passes turns s events m) (next : Passes more m late s') :
    Passes (turns ++ more) s (events ++ late) s' := by
  induction h with
  | nil s => exact next
  | idle running arrival _ ih => exact .idle running arrival (ih next)
  | answered running arrival answer sent _ ih =>
    exact .answered running arrival answer sent (ih next)

/-- Everything that the turns deliver is received. -/
theorem arrivals (h : Passes turns s events m) :
    events.filterMap ServingEvent.arrival? = turns.map Turn.arrival := by
  induction h with
  | nil s => rfl
  | idle running arrival next ih | answered running arrival answer sent next ih =>
    rw [List.map_cons, arrival, ← ih]
    rfl

/-- The server has handled the requests that the turns deliver. -/
theorem after_eq (h : Passes turns s events m) : m = s.afterAll (requests events) := by
  induction h with
  | nil s => rfl
  | idle running arrival next ih | answered running arrival answer sent next ih => exact ih

/-- All of these requests have replies, and they were sent. -/
theorem replies_eq (h : Passes turns s events m) :
    s.replies (requests events) = (events.filterMap ServingEvent.reply?).map some := by
  induction h with
  | nil s => rfl
  | idle running arrival next ih => exact ih
  | @answered t turns s s' b reply events running arrival answer sent next ih =>
    show (s.handle b).reply :: (s.handle b).after.replies (requests events)
      = some reply :: (events.filterMap ServingEvent.reply?).map some
    rw [answer, ih]

/-- After turns that are passed, the loop goes on as if it began there. -/
theorem exists_late (h : Passes turns s events m) {all : List ServingEvent}
    (hall : Serves true (turns ++ more) s all outcome s') :
    ∃ late, all = events ++ late ∧ Serves true more m late outcome s' := by
  induction h generalizing all with
  | nil s => exact ⟨all, rfl, hall⟩
  | @idle t turns s m events running arrival next ih =>
    cases hall with
    | refused s arrival' => simp [arrival] at arrival'
    | idle arrival' next' =>
      rw [running] at next'
      obtain ⟨late, rfl, hlate⟩ := ih next'
      exact ⟨late, rfl, hlate⟩
    | exhausted arrival' silent => simp [arrival] at arrival'
    | unsent arrival' answer' sent' => simp [arrival] at arrival'
    | answered arrival' answer' sent' next' => simp [arrival] at arrival'
  | @answered t turns s m b reply events running arrival answer sent next ih =>
    cases hall with
    | refused s arrival' => simp [arrival] at arrival'
    | idle arrival' next' => simp [arrival] at arrival'
    | exhausted arrival' silent =>
      obtain rfl : b = _ := by simpa [arrival] using arrival'
      simp [answer] at silent
    | unsent arrival' answer' sent' => simp [sent] at sent'
    | answered arrival' answer' sent' next' =>
      obtain rfl : b = _ := by simpa [arrival] using arrival'
      obtain rfl : reply = _ := by simpa [answer] using answer'
      rw [running] at next'
      obtain ⟨late, rfl, hlate⟩ := ih next'
      exact ⟨late, rfl, hlate⟩

end Passes

/-- If the loop receives more often than there are turns before, it has come through them. -/
theorem Serves.exists_passes {running : Bool} {before more : List Turn} {s s' : Server σ}
    {all : List ServingEvent} {outcome : ServingEnd}
    (h : Serves running (before ++ more) s all outcome s')
    (reached : before.length < (all.filterMap ServingEvent.arrival?).length) :
    running = true ∧ ∃ events m, Passes before s events m := by
  induction before generalizing running s all with
  | nil =>
    -- the flag was seen set, or nothing was received
    refine ⟨?_, [], s, .nil s⟩
    cases h with
    | cleared turns s => simp [ServingEvent.arrival?] at reached
    | _ => rfl
  | cons t before ih =>
    rw [List.cons_append] at h
    cases h with
    | cleared turns s =>
      have hnone : before.length + 1 < 0 := reached
      omega
    | refused s arrival =>
      have hone : before.length + 1 < 1 := reached
      omega
    | exhausted arrival silent =>
      have hone : before.length + 1 < 1 := reached
      omega
    | unsent arrival answer sent =>
      have hone : before.length + 1 < 1 := reached
      omega
    | idle arrival next =>
      have hnext := ih next (Nat.lt_of_succ_lt_succ reached)
      obtain ⟨hrunning, events, m, hpasses⟩ := hnext
      exact ⟨rfl, _, m, .idle (by simpa using hrunning) arrival hpasses⟩
    | answered arrival answer sent next =>
      have hnext := ih next (Nat.lt_of_succ_lt_succ reached)
      obtain ⟨hrunning, events, m, hpasses⟩ := hnext
      exact ⟨rfl, _, m, .answered (by simpa using hrunning) arrival answer sent hpasses⟩

/-! ## The last receive -/

/-- How serving ends after a request was received for the last time. -/
def lastEnding : (reply : Option Bytes) → (sendFault : Option TransportFault) → ServingEnd
  | none, _ => .exhausted
  | some _, none => .stopped
  | some _, some fault => fault.ending

/-- What follows if the flag is cleared in a turn that begins with this server: the events from
this turn on, the end of serving and the server then. -/
structure LastReceive (t : Turn) (s : Server σ) (late : List ServingEvent) (outcome : ServingEnd)
    (after : Server σ) : Prop where
  /-- Nothing is received after what this turn delivers. -/
  arrivals : late.filterMap ServingEvent.arrival? = [t.arrival]
  /-- Without a request nothing is sent, and the server stays as it is. -/
  quiet : (∀ b, t.arrival ≠ .ok (some b)) →
    late.filterMap ServingEvent.reply? = [] ∧ after = s
  /-- Serving stops if nothing arrives or the transport is closed. -/
  stopped : t.arrival = .ok none ∨ t.arrival = .error .closed → outcome = .stopped
  /-- A fault of the socket is still the end of serving. -/
  failed : ∀ fault, t.arrival = .error (.socket fault) → outcome = .failed fault
  /-- A request is handled although the flag is cleared, and its reply is sent. -/
  request : ∀ b, t.arrival = .ok (some b) → after = (s.handle b).after ∧
    late.filterMap ServingEvent.reply? = (s.handle b).reply.toList ∧
    outcome = lastEnding (s.handle b).reply t.sendFault

/-- Once the flag is cleared, the loop only looks at it. -/
theorem Serves.of_cleared {turns : List Turn} {s s' : Server σ} {events : List ServingEvent}
    {outcome : ServingEnd} (h : Serves false turns s events outcome s') :
    events = [.look false] ∧ outcome = .stopped ∧ s' = s := by
  cases h with
  | cleared turns s => exact ⟨rfl, rfl, rfl⟩

/-- A request that arrives in the last turn is handled like any other one. -/
theorem LastReceive.of_request {t : Turn} {s : Server σ} {b : Bytes} {late : List ServingEvent}
    {outcome : ServingEnd} (arrival : t.arrival = .ok (some b))
    (received : late.filterMap ServingEvent.arrival? = [.ok (some b)])
    (sent : late.filterMap ServingEvent.reply? = (s.handle b).reply.toList)
    (ending : outcome = lastEnding (s.handle b).reply t.sendFault) :
    LastReceive t s late outcome (s.handle b).after := by
  refine ⟨received.trans (by rw [arrival]), fun h => absurd arrival (h b), ?_, ?_, ?_⟩
  · simp [arrival]
  · simp [arrival]
  · intro b' h
    obtain rfl : b = b' := by simpa [arrival] using h
    exact ⟨rfl, sent, ending⟩

/-- A turn in which the flag is cleared is the last one. -/
theorem Serves.lastReceive {t : Turn} {rest : List Turn} {s s' : Server σ}
    {late : List ServingEvent} {outcome : ServingEnd} (cleared : t.interrupted = true)
    (h : Serves true (t :: rest) s late outcome s') : LastReceive t s late outcome s' := by
  cases h with
  | @refused _ _ fault _ arrival =>
    refine ⟨by rw [arrival]; rfl, fun _ => ⟨rfl, rfl⟩, ?_, ?_, ?_⟩
    · rintro (h | h)
      · simp [arrival] at h
      · obtain rfl : fault = .closed := by simpa [arrival] using h
        rfl
    · intro f h
      obtain rfl : fault = .socket f := by simpa [arrival] using h
      rfl
    · intro b h
      simp [arrival] at h
  | @idle _ _ _ _ events _ arrival next =>
    rw [cleared] at next
    obtain ⟨rfl, rfl, rfl⟩ := next.of_cleared
    refine ⟨by rw [arrival]; rfl, fun _ => ⟨rfl, rfl⟩, fun _ => rfl, ?_, ?_⟩
    · intro f h
      simp [arrival] at h
    · intro b h
      simp [arrival] at h
  | exhausted arrival silent =>
    exact .of_request arrival rfl (by rw [silent]; rfl) (by rw [silent]; rfl)
  | unsent arrival answer sent =>
    exact .of_request arrival rfl (by rw [answer]; rfl) (by rw [answer, sent]; rfl)
  | answered arrival answer sent next =>
    rw [cleared] at next
    obtain ⟨rfl, rfl, rfl⟩ := next.of_cleared
    exact .of_request arrival rfl (by rw [answer]; rfl) (by rw [answer, sent]; rfl)

/-- **A receive in which the flag is cleared is the last one**, whatever came before it and whatever
the transport would deliver later.  If it delivers no request, nothing more is handled or sent; a
request that it delivers is handled and answered. -/
theorem interrupted_receive_is_last (running : Bool) (before rest : List Turn) (t : Turn)
    (s : Server σ) (cleared : t.interrupted = true)
    (waiting : before.length <
      ((run running (before ++ t :: rest) s).events.filterMap ServingEvent.arrival?).length) :
    ∃ early late, (run running (before ++ t :: rest) s).events = early ++ late ∧
      early.filterMap ServingEvent.arrival? = before.map Turn.arrival ∧
      LastReceive t (s.afterAll (requests early)) late
        (run running (before ++ t :: rest) s).outcome
        (run running (before ++ t :: rest) s).after := by
  have hall : Serves running (before ++ t :: rest) s (run running (before ++ t :: rest) s).events
      (run running (before ++ t :: rest) s).outcome (run running (before ++ t :: rest) s).after :=
    serves_loop running (before ++ t :: rest) s
  obtain ⟨hrunning, early, m, hpasses⟩ := hall.exists_passes waiting
  rw [hrunning] at hall
  obtain ⟨late, hevents, hlate⟩ := hpasses.exists_late hall
  rw [hpasses.after_eq] at hlate
  rw [hrunning]
  exact ⟨early, late, hevents, hpasses.arrivals, hlate.lastReceive cleared⟩

/-- A make arrives in the second receive, in which the flag is cleared. -/
def lateMake : Turn := ⟨true, .ok (some (Request.make ⟨"GridWorld-v0", 1⟩).encode), none⟩

/-- The environment is made and the client is told so; then serving stops. -/
theorem interrupted_receive_is_last_lateMake :
    let fresh := Server.start (.start World.registry .usual)
    let r := run true [⟨false, .ok none, none⟩, lateMake] fresh
    (lateMake.interrupted = true ∧ 1 < (r.events.filterMap ServingEvent.arrival?).length) ∧
    (r.sent = [Response.made.encode] ∧ r.after.lifecycle = .ready ∧ r.outcome = .stopped) ∧
    ∃ early late, r.events = early ++ late ∧
      LastReceive lateMake (fresh.afterAll (requests early)) late r.outcome r.after := by
  intro fresh r
  have hwaiting : 1 < (r.events.filterMap ServingEvent.arrival?).length := by decide +kernel
  have hsent : r.sent = [Response.made.encode] := by decide +kernel
  have hready : r.after.lifecycle = .ready := by decide +kernel
  have hstopped : r.outcome = .stopped := by decide +kernel
  obtain ⟨early, late, hevents, -, hlast⟩ :=
    interrupted_receive_is_last true [⟨false, .ok none, none⟩] [] lateMake fresh rfl hwaiting
  exact ⟨⟨rfl, hwaiting⟩, ⟨hsent, hready, hstopped⟩, early, late, hevents, hlast⟩

end Rollout.Serving
