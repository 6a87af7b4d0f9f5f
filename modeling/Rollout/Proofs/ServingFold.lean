/-
# Serving is a fold

The loop of a server goes round in a few ways only, which `Serves` lists: a look at
the flag, a receive, and after a request a send.  So whatever the transport does,
serving is handling the received requests one after another, and its end can be read
off what the loop did.  The main statement is `run_isFold`.
-/
import Rollout.Proofs.Runs
import Rollout.Serving
import Rollout.World.Standard

namespace Rollout

/-- How serving ends after a fault. -/
def TransportFault.ending : TransportFault → ServingEnd
  | .closed => .stopped
  | .socket fault => .failed fault

/-- The result of a send, in a turn that delivers a request. -/
def Turn.sendResult? (t : Turn) : Option (Option TransportFault) :=
  match t.arrival with
  | .ok (some _) => some t.sendFault
  | _ => none

namespace ServingEvent

/-- The flag that was seen. -/
def look? : ServingEvent → Option Bool
  | .look running => some running
  | _ => none

/-- What arrived. -/
def arrival? : ServingEvent → Option (Except TransportFault (Option Bytes))
  | .receive arrival => some arrival
  | _ => none

/-- The request that arrived. -/
def request? : ServingEvent → Option Bytes
  | .receive (.ok request) => request
  | _ => none

/-- The reply that was sent, whether it was taken or not. -/
def reply? : ServingEvent → Option Bytes
  | .send reply _ => some reply
  | _ => none

/-- The result of a send. -/
def sendResult? : ServingEvent → Option (Option TransportFault)
  | .send _ fault => some fault
  | _ => none

/-- The end that the event brings about. -/
def ending? : ServingEvent → Option ServingEnd
  | .look false => some .stopped
  | .receive (.error fault) => some fault.ending
  | .send _ (some fault) => some fault.ending
  | _ => none

theorem ending?_eq_stopped_iff {e : ServingEvent} : e.ending? = some .stopped ↔
    e = .look false ∨ e = .receive (.error .closed) ∨ ∃ reply, e = .send reply (some .closed) := by
  rcases e with (_ | _) | ((_ | _) | (_ | _)) | ⟨reply, (_ | (_ | _))⟩ <;>
    simp [ending?, TransportFault.ending]

theorem ending?_eq_failed_iff {e : ServingEvent} {fault : SocketFault} :
    e.ending? = some (.failed fault) ↔ e = .receive (.error (.socket fault)) ∨
      ∃ reply, e = .send reply (some (.socket fault)) := by
  rcases e with (_ | _) | ((_ | _) | (_ | _)) | ⟨reply, (_ | (_ | _))⟩ <;>
    simp [ending?, TransportFault.ending]

/-- Every received request with the reply that is sent next, if one is. -/
def exchanges : List ServingEvent → List (Bytes × Option Bytes)
  | [] => []
  | .receive (.ok (some b)) :: .send reply _ :: events => (b, some reply) :: exchanges events
  | .receive (.ok (some b)) :: events => (b, none) :: exchanges events
  | _ :: events => exchanges events

/-- The requests that are received. -/
def requests (events : List ServingEvent) : List Bytes := events.filterMap request?

end ServingEvent

namespace Serving

open ServingEvent (requests exchanges)

variable {σ : Type} [Env σ]

/-! ## Rounds -/

/-- The ways in which the loop goes round and ends: the flag, the turns and the server with which
it begins, what it does, how it ends and the server then. -/
inductive Serves : (running : Bool) → List Turn → Server σ → List ServingEvent → ServingEnd →
    Server σ → Prop
  | cleared (turns : List Turn) (s : Server σ) : Serves false turns s [.look false] .stopped s
  | usedUp (s : Server σ) : Serves true [] s [.look true, .receive (.error .closed)] .stopped s
  | refused {t : Turn} {turns : List Turn} {fault : TransportFault} (s : Server σ)
    (arrival : t.arrival = .error fault) :
    Serves true (t :: turns) s [.look true, .receive (.error fault)] fault.ending s
  | idle {t : Turn} {turns : List Turn} {s s' : Server σ} {events : List ServingEvent}
    {outcome : ServingEnd} (arrival : t.arrival = .ok none)
    (next : Serves (!t.interrupted) turns s events outcome s') :
    Serves true (t :: turns) s (.look true :: .receive (.ok none) :: events) outcome s'
  | exhausted {t : Turn} {turns : List Turn} {s : Server σ} {b : Bytes}
    (arrival : t.arrival = .ok (some b)) (silent : (s.handle b).reply = none) :
    Serves true (t :: turns) s [.look true, .receive (.ok (some b))] .exhausted (s.handle b).after
  | unsent {t : Turn} {turns : List Turn} {s : Server σ} {b reply : Bytes}
    {fault : TransportFault} (arrival : t.arrival = .ok (some b))
    (answer : (s.handle b).reply = some reply) (sent : t.sendFault = some fault) :
    Serves true (t :: turns) s
      [.look true, .receive (.ok (some b)), .send reply (some fault)] fault.ending
      (s.handle b).after
  | answered {t : Turn} {turns : List Turn} {s s' : Server σ} {b reply : Bytes}
    {events : List ServingEvent} {outcome : ServingEnd} (arrival : t.arrival = .ok (some b))
    (answer : (s.handle b).reply = some reply) (sent : t.sendFault = none)
    (next : Serves (!t.interrupted) turns (s.handle b).after events outcome s') :
    Serves true (t :: turns) s
      (.look true :: .receive (.ok (some b)) :: .send reply none :: events) outcome s'

omit [Env σ] in
theorem fail_eq (running : Bool) (s : Server σ) (fault : TransportFault) :
    (fail running s fault).events = [] ∧ (fail running s fault).outcome = fault.ending ∧
      (fail running s fault).after = s := by
  cases fault with
  | closed => exact ⟨rfl, rfl, rfl⟩
  | socket fault => exact ⟨rfl, rfl, rfl⟩

/-- The loop goes round in these ways only. -/
theorem serves_loop (running : Bool) (turns : List Turn) (s : Server σ) :
    Serves running turns s (loop running turns s).events (loop running turns s).outcome
      (loop running turns s).after := by
  -- every turn leaves another flag and another server to the turns after it
  induction turns generalizing running s with
  | nil =>
    cases running with
    | false => exact .cleared [] s
    | true => exact .usedUp s
  | cons t turns ih =>
    cases running with
    | false => exact .cleared (t :: turns) s
    | true =>
      rcases ht : t.arrival with fault | (_ | b)
      · obtain ⟨hevents, houtcome, hafter⟩ := fail_eq (!t.interrupted) s fault
        simp only [loop, ht, preceded, hevents, houtcome, hafter]
        exact .refused s ht
      · simp only [loop, ht]
        exact .idle ht (ih _ s)
      · rcases hr : (s.handle b).reply with _ | reply
        · simp only [loop, ht, hr]
          exact .exhausted ht hr
        · rcases hf : t.sendFault with _ | fault
          · simp only [loop, ht, hr, hf]
            exact .answered ht hr hf (ih _ _)
          · obtain ⟨hevents, houtcome, hafter⟩ := fail_eq (!t.interrupted) (s.handle b).after fault
            simp only [loop, ht, hr, hf, preceded, hevents, houtcome, hafter]
            exact .unsent ht hr hf

/-! ## What a run of rounds does -/

namespace Serves

variable {running : Bool} {turns : List Turn} {s s' : Server σ} {events : List ServingEvent}
  {outcome : ServingEnd}

/-- The flag is seen as the turns leave it. -/
theorem looks (h : Serves running turns s events outcome s') :
    events.filterMap ServingEvent.look? <+: running :: turns.map fun t => !t.interrupted := by
  induction h with
  | cleared turns s => exact List.prefix_append [false] _
  | usedUp s => exact List.prefix_rfl
  | refused s arrival => exact List.prefix_append [true] _
  | idle arrival next ih => exact (List.prefix_cons_inj true).mpr ih
  | exhausted arrival silent => exact List.prefix_append [true] _
  | unsent arrival answer sent => exact List.prefix_append [true] _
  | answered arrival answer sent next ih => exact (List.prefix_cons_inj true).mpr ih

/-- What arrives is taken in order, and then the transport is closed. -/
theorem arrivals (h : Serves running turns s events outcome s') :
    events.filterMap ServingEvent.arrival? <+: turns.map Turn.arrival ++ [.error .closed] := by
  induction h with
  | cleared turns s => exact List.nil_prefix
  | usedUp s => exact List.prefix_rfl
  | refused s arrival | exhausted arrival silent | unsent arrival answer sent =>
    rw [List.map_cons, arrival]
    exact List.prefix_append [_] _
  | idle arrival next ih | answered arrival answer sent next ih =>
    rw [List.map_cons, arrival]
    exact (List.prefix_cons_inj _).mpr ih

/-- The sends go as the turns with requests say. -/
theorem sendResults (h : Serves running turns s events outcome s') :
    events.filterMap ServingEvent.sendResult? <+: turns.filterMap Turn.sendResult? := by
  induction h with
  | cleared turns s | usedUp s | refused s arrival | exhausted arrival silent =>
    exact List.nil_prefix
  | @idle t turns s s' events outcome arrival next ih =>
    have ht : t.sendResult? = none := by rw [Turn.sendResult?, arrival]
    rw [List.filterMap_cons_none ht]
    exact ih
  | @unsent t turns s b reply fault arrival answer sent =>
    have ht : t.sendResult? = some (some fault) := by rw [Turn.sendResult?, arrival, sent]
    rw [List.filterMap_cons_some ht]
    exact List.prefix_append [some fault] _
  | @answered t turns s s' b reply events outcome arrival answer sent next ih =>
    have ht : t.sendResult? = some none := by rw [Turn.sendResult?, arrival, sent]
    rw [List.filterMap_cons_some ht]
    exact (List.prefix_cons_inj none).mpr ih

/-- The server at the end has handled the received requests, in order. -/
theorem after_eq (h : Serves running turns s events outcome s') :
    s' = s.afterAll (requests events) := by
  induction h with
  | cleared turns s | usedUp s | refused s arrival => rfl
  | exhausted arrival silent | unsent arrival answer sent => rfl
  | idle arrival next ih | answered arrival answer sent next ih => exact ih

/-- Every request is followed by its reply. -/
theorem exchanges_eq (h : Serves running turns s events outcome s') :
    exchanges events = (requests events).zip (s.replies (requests events)) := by
  induction h with
  | cleared turns s | usedUp s | refused s arrival => rfl
  | idle arrival next ih => exact ih
  | @exhausted t turns s b arrival silent =>
    show [(b, none)] = [(b, (s.handle b).reply)]
    rw [silent]
  | @unsent t turns s b reply fault arrival answer sent =>
    show [(b, some reply)] = [(b, (s.handle b).reply)]
    rw [answer]
  | @answered t turns s s' b reply events outcome arrival answer sent next ih =>
    show (b, some reply) :: exchanges events = (b, (s.handle b).reply) ::
      (requests events).zip ((s.handle b).after.replies (requests events))
    rw [answer, ih]

/-- The replies are sent in order, and only the last one can be missing. -/
theorem replies_eq (h : Serves running turns s events outcome s') :
    s.replies (requests events) = (events.filterMap ServingEvent.reply?).map some
      ++ if outcome = .exhausted then [none] else [] := by
  -- a fault of the transport does not mean that memory ran out
  have hending : ∀ fault : TransportFault, fault.ending ≠ .exhausted := by
    intro fault
    cases fault with
    | closed => exact nofun
    | socket fault => exact nofun
  induction h with
  | cleared turns s | usedUp s => rfl
  | @refused t turns fault s arrival =>
    rw [if_neg (hending fault)]
    rfl
  | idle arrival next ih => exact ih
  | @exhausted t turns s b arrival silent =>
    show [(s.handle b).reply] = [none]
    rw [silent]
  | @unsent t turns s b reply fault arrival answer sent =>
    rw [if_neg (hending fault)]
    show [(s.handle b).reply] = [some reply]
    rw [answer]
  | @answered t turns s s' b reply events outcome arrival answer sent next ih =>
    show (s.handle b).reply :: (s.handle b).after.replies (requests events)
      = some reply :: ((events.filterMap ServingEvent.reply?).map some ++ _)
    rw [answer, ih]

/-- One event brings about the end, unless memory runs out. -/
theorem endings_eq (h : Serves running turns s events outcome s') :
    events.filterMap ServingEvent.ending? = if outcome = .exhausted then [] else [outcome] := by
  induction h with
  | cleared turns s | usedUp s => rfl
  | @refused t turns fault s arrival =>
    cases fault with
    | closed => rfl
    | socket fault => rfl
  | idle arrival next ih => exact ih
  | exhausted arrival silent => rfl
  | @unsent t turns s b reply fault arrival answer sent =>
    cases fault with
    | closed => rfl
    | socket fault => rfl
  | answered arrival answer sent next ih => exact ih

/-- The end is the one that some event brings about. -/
theorem outcome_iff (h : Serves running turns s events outcome s') {ending : ServingEnd}
    (hne : ending ≠ .exhausted) :
    outcome = ending ↔ ∃ e ∈ events, e.ending? = some ending := by
  rw [← List.mem_filterMap, h.endings_eq]
  split
  · rename_i ho
    constructor
    · intro h
      exact absurd (h.symm.trans ho) hne
    · intro h
      cases h
  · rw [List.mem_singleton, eq_comm]

/-- Serving stops if the flag is seen cleared or the transport is closed, in a receive or a send. -/
theorem stopped_iff (h : Serves running turns s events outcome s') : outcome = .stopped ↔
    .look false ∈ events ∨ .receive (.error .closed) ∈ events ∨
      ∃ reply, .send reply (some .closed) ∈ events := by
  have hne : ServingEnd.stopped ≠ .exhausted := nofun
  rw [h.outcome_iff hne]
  constructor
  · rintro ⟨e, he, hend⟩
    rcases ServingEvent.ending?_eq_stopped_iff.mp hend with rfl | rfl | ⟨reply, rfl⟩
    · exact Or.inl he
    · exact Or.inr (Or.inl he)
    · exact Or.inr (Or.inr ⟨reply, he⟩)
  · rintro (he | he | ⟨reply, he⟩)
    · exact ⟨_, he, rfl⟩
    · exact ⟨_, he, rfl⟩
    · exact ⟨_, he, rfl⟩

/-- Serving fails with the fault of the socket, in a receive or a send. -/
theorem failed_iff (h : Serves running turns s events outcome s') (fault : SocketFault) :
    outcome = .failed fault ↔ .receive (.error (.socket fault)) ∈ events ∨
      ∃ reply, .send reply (some (.socket fault)) ∈ events := by
  have hne : ServingEnd.failed fault ≠ .exhausted := nofun
  rw [h.outcome_iff hne]
  constructor
  · rintro ⟨e, he, hend⟩
    rcases ServingEvent.ending?_eq_failed_iff.mp hend with rfl | ⟨reply, rfl⟩
    · exact Or.inl he
    · exact Or.inr ⟨reply, he⟩
  · rintro (he | ⟨reply, he⟩)
    · exact ⟨_, he, rfl⟩
    · exact ⟨_, he, rfl⟩

theorem ne_nil (h : Serves running turns s events outcome s') : events ≠ [] := by
  cases h with
  | _ => exact List.cons_ne_nil _ _

end Serves

/-! ## Serving -/

/-- What comes after the last turn changes nothing that was done before it. -/
theorem prefix_loop_append (running : Bool) (turns more : List Turn) (s : Server σ) :
    (loop running turns s).events.dropLast <+: (loop running (turns ++ more) s).events := by
  -- a round is put before the events of the rest in both runs
  have hround : ∀ (round events events' : List ServingEvent), events ≠ [] →
      events.dropLast <+: events' → (round ++ events).dropLast <+: round ++ events' := by
    intro round events events' hne h
    rw [List.dropLast_append_of_ne_nil hne]
    exact (List.prefix_append_right_inj round).mpr h
  induction turns generalizing running s with
  | nil =>
    cases running with
    | false => exact List.nil_prefix
    | true =>
      cases more with
      | nil => exact List.dropLast_prefix _
      | cons t more => exact ⟨_, rfl⟩
  | cons t turns ih =>
    cases running with
    | false => exact List.nil_prefix
    | true =>
      rw [List.cons_append]
      rcases ht : t.arrival with fault | (_ | b)
      · simp only [loop, ht]
        exact List.dropLast_prefix _
      · simp only [loop, ht]
        exact hround _ _ _ (serves_loop _ turns s).ne_nil (ih _ s)
      · rcases hr : (s.handle b).reply with _ | reply
        · simp only [loop, ht, hr]
          exact List.dropLast_prefix _
        · rcases hf : t.sendFault with _ | fault
          · simp only [loop, ht, hr, hf]
            exact hround [_, _, _] _ _ (serves_loop _ turns _).ne_nil (ih _ _)
          · simp only [loop, ht, hr, hf]
            exact List.dropLast_prefix _

/-- Serving is the fold of handling over the requests that are received.  The flag, the receives and
the results of the sends are those of the turns, as far as serving gets. -/
structure IsFold (running : Bool) (turns : List Turn) (s : Server σ) (r : Serving σ) : Prop where
  /-- Every round looks at the flag, receives, and after a request sends. -/
  rounds : Serves running turns s r.events r.outcome r.after
  /-- The flag is seen as it was at the beginning, and then as every turn leaves it. -/
  looks : r.events.filterMap ServingEvent.look? <+: running :: turns.map fun t => !t.interrupted
  /-- What arrives is what the turns deliver, in order. -/
  arrivals : r.events.filterMap ServingEvent.arrival? <+:
    turns.map Turn.arrival ++ [.error .closed]
  /-- The sends go as the turns say that deliver a request. -/
  sendResults : r.events.filterMap ServingEvent.sendResult? <+: turns.filterMap Turn.sendResult?
  /-- All received requests were handled, in order and once, and nothing else was. -/
  after : r.after = s.afterAll (requests r.events)
  /-- Right after a request comes the reply of the server as the ones before it left it. -/
  exchanges : exchanges r.events = (requests r.events).zip (s.replies (requests r.events))
  /-- There are no other sends, and no reply is missing but that to a last request for which
  memory runs out. -/
  replies : s.replies (requests r.events) = (r.events.filterMap ServingEvent.reply?).map some
    ++ if r.outcome = .exhausted then [none] else []
  /-- Serving stops if the flag is seen cleared or the transport is closed. -/
  stopped : r.outcome = .stopped ↔ .look false ∈ r.events ∨
    .receive (.error .closed) ∈ r.events ∨ ∃ reply, .send reply (some .closed) ∈ r.events
  /-- Serving fails if the socket does, with the same fault. -/
  failed : ∀ fault, r.outcome = .failed fault ↔ .receive (.error (.socket fault)) ∈ r.events ∨
    ∃ reply, .send reply (some (.socket fault)) ∈ r.events

/-- **Serving is a fold**, whatever the transport does and whenever the flag is cleared; and a
transport that goes on after the last turn sees the same up to there. -/
theorem run_isFold (running : Bool) (turns : List Turn) (s : Server σ) :
    IsFold running turns s (run running turns s) ∧
    ∀ more, (run running turns s).events.dropLast <+: (run running (turns ++ more) s).events := by
  have h : Serves running turns s (run running turns s).events (run running turns s).outcome
      (run running turns s).after := serves_loop running turns s
  exact ⟨⟨h, h.looks, h.arrivals, h.sendResults, h.after_eq, h.exchanges_eq, h.replies_eq,
    h.stopped_iff, h.failed_iff⟩, fun more => prefix_loop_append running turns more s⟩

/-- Pairs nested so deep, with a number as the second item of each: ragged, although the lengths
along the first items claim `2 ^ depth` numbers. -/
def raggedPairs : (depth : Nat) → Nested Numeric.Double
  | 0 => .scalar ⟨0x3ff0000000000000⟩
  | depth + 1 => .list [raggedPairs depth, .scalar ⟨0x3ff0000000000000⟩]

/-- A make of one grid, and a step whose actions claim more memory than there is. -/
def raggedRequests : List Bytes :=
  [Request.make ⟨"GridWorld-v0", 1⟩, .step ⟨some (raggedPairs 60), none, false⟩].map Request.encode

/-- The transport that delivers them. -/
def raggedTurns : List Turn := raggedRequests.map fun b => ⟨false, .ok (some b), none⟩

/-- The step has no reply, so serving ends without a second send. -/
theorem run_isFold_raggedRequests :
    let fresh := Server.start (.start World.registry .usual)
    let r := run true raggedTurns fresh
    requests r.events = raggedRequests ∧ r.outcome = .exhausted ∧
      r.sent = [Response.made.encode] ∧
      fresh.replies raggedRequests = [some Response.made.encode, none] := by
  intro fresh r
  have hrequests : requests r.events = raggedRequests := by decide +kernel
  have houtcome : r.outcome = .exhausted := by decide +kernel
  have hsent : r.sent = [Response.made.encode] := by decide +kernel
  have hreplied : r.events.filterMap ServingEvent.reply? = [Response.made.encode] := by
    decide +kernel
  have hfold : IsFold true raggedTurns fresh r := (run_isFold true raggedTurns fresh).1
  have hreplies := hfold.replies
  rw [hrequests, hreplied, houtcome, if_pos rfl] at hreplies
  exact ⟨hrequests, houtcome, hsent, hreplies⟩

end Serving

end Rollout
