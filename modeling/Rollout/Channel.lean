/-
# Channels

A server and a client in one process, joined by two queues.  Each queue holds at
most one message.  The client sends its requests in turn, waits for the reply to
each, and leaves after the last one; the server serves until the client is gone.
A side that is gone has left both queues: what is in them can still be taken, but
nothing is put in for it, and whoever waits for it learns that it is gone.
`Move` says which steps are possible, in any interleaving; `next?` chooses one.
-/
import Rollout.Serving

namespace Rollout

namespace Channel

variable {σ : Type} [Env σ]

/-- The number of messages that a queue holds at most. -/
def capacity : Nat := 1

/-- What the client does. -/
inductive Client where
  /-- It is about to send the first of the requests, or to leave. -/
  | sending (requests : List Bytes)
  /-- It waits for a reply; these requests are left. -/
  | waiting (requests : List Bytes)
  | gone
  deriving DecidableEq, Repr

/-- What the server does. -/
inductive Phase where
  /-- It waits for a request. -/
  | polling
  /-- It is about to send this reply. -/
  | replying (reply : Bytes)
  | ended (outcome : ServingEnd)
  deriving DecidableEq, Repr

/-- Whether the server has not ended. -/
def Phase.serving : Phase → Bool
  | .ended _ => false
  | _ => true

/-- A client, a server and the queues between them. -/
structure Link (σ : Type) where
  client : Client
  /-- What the requests of the client gave: the reply, or that the server is gone. -/
  results : List (Except TransportFault Bytes)
  /-- The queue to the server. -/
  requests : List Bytes
  /-- The queue to the client. -/
  replies : List Bytes
  phase : Phase
  server : Server σ

/-- The beginning. -/
def Link.start (requests : List Bytes) (server : Server σ) : Link σ :=
  ⟨.sending requests, [], [], [], .polling, server⟩

/-- The replies that the client received. -/
def Link.received (l : Link σ) : List Bytes := l.results.filterMap Except.toOption

/-- The server after it took a request. -/
def Link.serve (l : Link σ) (request : Bytes) (rest : List Bytes) : Link σ :=
  let h := l.server.handle request
  { l with
    requests := rest
    server := h.after
    phase := match h.reply with
      | some reply => .replying reply
      | none => .ended .exhausted }

/-- The client after a request gave this, with these requests left. -/
def Link.give (l : Link σ) (result : Except TransportFault Bytes) (rest : List Bytes) : Link σ :=
  { l with client := .sending rest, results := l.results ++ [result] }

/-! ## Steps -/

/-- A step of the client or of the server. -/
inductive Move : Link σ → Link σ → Prop where
  | send {l : Link σ} {b : Bytes} {bs : List Bytes} (ready : l.client = .sending (b :: bs))
      (there : l.phase.serving = true) (room : l.requests.length < capacity) :
      Move l { l with client := .waiting bs, requests := l.requests ++ [b] }
  /-- A request that nobody will take. -/
  | refuse {l : Link σ} {b : Bytes} {bs : List Bytes} (ready : l.client = .sending (b :: bs))
      (gone : l.phase.serving = false) : Move l (l.give (.error .closed) bs)
  | leave {l : Link σ} (ready : l.client = .sending []) : Move l { l with client := .gone }
  | receive {l : Link σ} {bs : List Bytes} {r : Bytes} {rs : List Bytes}
      (ready : l.client = .waiting bs) (arrived : l.replies = r :: rs) :
      Move l { l.give (.ok r) bs with replies := rs }
  /-- The server is gone and its replies are used up. -/
  | abandon {l : Link σ} {bs : List Bytes} (ready : l.client = .waiting bs)
      (gone : l.phase.serving = false) (empty : l.replies = []) :
      Move l (l.give (.error .closed) bs)
  | take {l : Link σ} {b : Bytes} {bs : List Bytes} (ready : l.phase = .polling)
      (arrived : l.requests = b :: bs) : Move l (l.serve b bs)
  /-- A wait without a request. -/
  | timeout {l : Link σ} (ready : l.phase = .polling) : Move l l
  | reply {l : Link σ} {r : Bytes} (ready : l.phase = .replying r) (there : l.client ≠ .gone)
      (room : l.replies.length < capacity) :
      Move l { l with phase := .polling, replies := l.replies ++ [r] }
  /-- A reply that nobody waits for. -/
  | drop {l : Link σ} {r : Bytes} (ready : l.phase = .replying r) (gone : l.client = .gone) :
      Move l { l with phase := .ended .stopped }
  /-- The client is gone and its requests are used up. -/
  | close {l : Link σ} (ready : l.phase = .polling) (gone : l.client = .gone)
      (empty : l.requests = []) : Move l { l with phase := .ended .stopped }

/-! ## Runs -/

/-- The step that the server takes on its own, a wait apart. -/
def serverNext? (l : Link σ) : Option (Link σ) :=
  match l.phase, l.requests, l.client with
  | .polling, b :: bs, _ => some (l.serve b bs)
  | .polling, [], .gone => some { l with phase := .ended .stopped }
  | .replying _, _, .gone => some { l with phase := .ended .stopped }
  | .replying r, _, _ =>
    if l.replies.length < capacity then
      some { l with phase := .polling, replies := l.replies ++ [r] }
    else none
  | _, _, _ => none

/-- The step that the client takes on its own. -/
def clientNext? (l : Link σ) : Option (Link σ) :=
  match l.client, l.replies with
  | .sending (b :: bs), _ =>
    if l.phase.serving = false then some (l.give (.error .closed) bs)
    else if l.requests.length < capacity then
      some { l with client := .waiting bs, requests := l.requests ++ [b] }
    else none
  | .sending [], _ => some { l with client := .gone }
  | .waiting bs, r :: rs => some { l.give (.ok r) bs with replies := rs }
  | .waiting bs, [] =>
    if l.phase.serving = false then some (l.give (.error .closed) bs) else none
  | .gone, _ => none

/-- A step that is no wait, the server first. -/
def next? (l : Link σ) : Option (Link σ) := (serverNext? l).or (clientNext? l)

/-- Takes at most `steps` steps. -/
def runFor : (steps : Nat) → Link σ → Link σ
  | 0, l => l
  | steps + 1, l =>
    match next? l with
    | some l => runFor steps l
    | none => l

/-- The end of the link of these requests: each of them takes four steps at most, and leaving takes
two. -/
def run (requests : List Bytes) (server : Server σ) : Link σ :=
  runFor (4 * requests.length + 2) (.start requests server)

/-- What the server takes up on its own is a step. -/
theorem move_of_serverNext? {l m : Link σ} (h : serverNext? l = some m) : Move l m := by
  unfold serverNext? at h
  split at h
  · simp only [Option.some.injEq] at h; subst h; exact .take ‹_› ‹_›
  · simp only [Option.some.injEq] at h; subst h; exact .close ‹_› ‹_› ‹_›
  · simp only [Option.some.injEq] at h; subst h; exact .drop ‹_› ‹_›
  · split at h
    · simp only [Option.some.injEq] at h; subst h; exact .reply ‹_› ‹_› ‹_›
    · simp at h
  · simp at h

/-- What the client takes up on its own is a step. -/
theorem move_of_clientNext? {l m : Link σ} (h : clientNext? l = some m) : Move l m := by
  unfold clientNext? at h
  split at h
  · rename_i ready
    split at h
    · rename_i gone
      simp only [Option.some.injEq] at h; subst h; exact .refuse ready gone
    · rename_i there
      split at h
      · rename_i room
        simp only [Option.some.injEq] at h; subst h; exact .send ready (by simpa using there) room
      · simp at h
  · simp only [Option.some.injEq] at h; subst h; exact .leave ‹_›
  · simp only [Option.some.injEq] at h; subst h; exact .receive ‹_› ‹_›
  · rename_i ready empty
    split at h
    · rename_i gone
      simp only [Option.some.injEq] at h; subst h; exact .abandon ready gone empty
    · simp at h
  · simp at h

/-- Every step of a run is a possible one. -/
theorem move_of_next? {l m : Link σ} (h : next? l = some m) : Move l m := by
  unfold next? at h
  cases hs : serverNext? l with
  | none => simp only [hs, Option.none_or] at h; exact move_of_clientNext? h
  | some _ =>
    simp only [hs, Option.some_or, Option.some.injEq] at h
    subst h
    exact move_of_serverNext? hs

end Channel

end Rollout
