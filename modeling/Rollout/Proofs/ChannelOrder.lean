/-
# The order of requests and replies in a channel

`Stage` lists where a link of a client and a server can be, in any interleaving of
their steps: it is kept by every step.  So the requests are handled in order and
every reply gets to the request that it belongs to.  If memory runs out over a request,
this one and the later ones fail.  A step that is no wait leaves less to do, and
there is one until both sides have ended.  The main statement is
`link_isOrderly`.
-/
import Mathlib.Logic.Relation
import Rollout.Channel
import Rollout.Proofs.Interruption

namespace Rollout

namespace Channel

variable {σ : Type} [Env σ]

/-! ## Steps that are left -/

/-- The number of steps that a client still takes at most. -/
def Client.todo : Client → Nat
  | .sending bs => 4 * bs.length + 1
  | .waiting bs => 4 * bs.length + 2
  | .gone => 0

/-- The number of steps that a server still takes at most, if no request comes. -/
def Phase.todo : Phase → Nat
  | .polling => 1
  | .replying _ => 2
  | .ended _ => 0

/-- The number of steps that are left at most, waits apart. -/
def Link.todo (l : Link σ) : Nat := l.client.todo + 2 * l.requests.length + l.phase.todo

/-- A step is a wait, or less is left after it. -/
theorem Move.todo_lt {l m : Link σ} (h : Move l m) :
    (m = l ∧ l.phase = .polling) ∨ m.todo < l.todo := by
  cases h with
  | timeout ready => exact Or.inl ⟨rfl, ready⟩
  | send ready there room =>
    right
    simp only [Link.todo, ready, Client.todo, List.length_append, List.length_cons, List.length_nil]
    omega
  | refuse ready _ | leave ready | receive ready _ | abandon ready _ _ =>
    right
    simp only [Link.todo, Link.give, ready, Client.todo, List.length_cons]
    omega
  | @take b bs ready arrived =>
    right
    -- the server has a reply to send, or memory ran out
    have hphase : (l.serve b bs).phase.todo ≤ 2 := by
      simp only [Link.serve]
      split
      · exact Nat.le_refl 2
      · exact Nat.zero_le 2
    have hserve : (l.serve b bs).todo
        = l.client.todo + 2 * bs.length + (l.serve b bs).phase.todo := rfl
    have hl : l.todo = l.client.todo + 2 * (bs.length + 1) + 1 := by
      simp only [Link.todo, ready, arrived, Phase.todo, List.length_cons]
    omega
  | reply ready _ _ | drop ready _ | close ready _ _ =>
    right
    simp only [Link.todo, ready, Phase.todo]
    omega

/-! ## Results -/

/-- What requests give that have these replies. -/
def given (replies : List Bytes) : List (Except TransportFault Bytes) := replies.map .ok

/-- What so many requests give when the server is gone. -/
def refusals (count : Nat) : List (Except TransportFault Bytes) :=
  List.replicate count (.error .closed)

@[simp] theorem length_given (replies : List Bytes) : (given replies).length = replies.length :=
  List.length_map _

@[simp] theorem length_refusals (count : Nat) : (refusals count).length = count :=
  List.length_replicate

theorem refusals_add (n m : Nat) : refusals (n + m) = refusals n ++ refusals m :=
  List.replicate_append_replicate.symm

@[simp] theorem filterMap_given (replies : List Bytes) :
    (given replies).filterMap Except.toOption = replies := by
  rw [given, List.filterMap_map]
  exact List.filterMap_some

/-- Only replies are received. -/
theorem filterMap_given_append_refusals (replies : List Bytes) (count : Nat) :
    (given replies ++ refusals count).filterMap Except.toOption = replies := by
  have hrefusals : (refusals count).filterMap Except.toOption = [] :=
    List.filterMap_replicate_of_none rfl
  simp [hrefusals]

/-- What requests give whose replies are these: each its reply, until one has none. -/
def returned : List (Option Bytes) → List (Except TransportFault Bytes)
  | [] => []
  | some reply :: rest => .ok reply :: returned rest
  | none :: rest => refusals (rest.length + 1)

/-- Requests that have replies give them, whatever the later ones give. -/
theorem returned_append (replies : List Bytes) (rest : List (Option Bytes)) :
    returned (replies.map some ++ rest) = given replies ++ returned rest := by
  induction replies with
  | nil => rfl
  | cons reply replies ih => exact congrArg (.ok reply :: ·) ih

/-! ## Stages -/

/-- Where a link can be that began with these requests and this server.  The requests that
are `done` have these replies; the next one is that of which a message is on its way. -/
inductive Stage (bs : List Bytes) (s : Server σ) : Link σ → Prop
  | idle {done rest replies : List Bytes} (split : bs = done ++ rest)
    (answers : s.replies done = replies.map some) :
    Stage bs s ⟨.sending rest, given replies, [], [], .polling, s.afterAll done⟩
  | asked {done rest replies : List Bytes} {b : Bytes} (split : bs = done ++ b :: rest)
    (answers : s.replies done = replies.map some) :
    Stage bs s ⟨.waiting rest, given replies, [b], [], .polling, s.afterAll done⟩
  | handled {done rest replies : List Bytes} {b reply : Bytes} (split : bs = done ++ b :: rest)
    (answers : s.replies done = replies.map some)
    (answer : ((s.afterAll done).handle b).reply = some reply) :
    Stage bs s ⟨.waiting rest, given replies, [], [], .replying reply,
      ((s.afterAll done).handle b).after⟩
  | answered {done rest replies : List Bytes} {b reply : Bytes} (split : bs = done ++ b :: rest)
    (answers : s.replies done = replies.map some)
    (answer : ((s.afterAll done).handle b).reply = some reply) :
    Stage bs s ⟨.waiting rest, given replies, [], [reply], .polling,
      ((s.afterAll done).handle b).after⟩
  | left {replies : List Bytes} (answers : s.replies bs = replies.map some) :
    Stage bs s ⟨.gone, given replies, [], [], .polling, s.afterAll bs⟩
  | stopped {replies : List Bytes} (answers : s.replies bs = replies.map some) :
    Stage bs s ⟨.gone, given replies, [], [], .ended .stopped, s.afterAll bs⟩
  /-- Memory ran out, and the client still waits. -/
  | crashed {done rest replies : List Bytes} {b : Bytes} (split : bs = done ++ b :: rest)
    (answers : s.replies done = replies.map some)
    (silent : ((s.afterAll done).handle b).reply = none) :
    Stage bs s ⟨.waiting rest, given replies, [], [], .ended .exhausted,
      ((s.afterAll done).handle b).after⟩
  /-- The request over which memory ran out has failed, and so have these after it. -/
  | refused {done lost rest replies : List Bytes} {b : Bytes}
    (split : bs = done ++ b :: (lost ++ rest)) (answers : s.replies done = replies.map some)
    (silent : ((s.afterAll done).handle b).reply = none) :
    Stage bs s ⟨.sending rest,
      given replies ++ refusals (lost.length + 1), [], [],
      .ended .exhausted, ((s.afterAll done).handle b).after⟩
  /-- All requests have failed from this one on. -/
  | alone {done lost replies : List Bytes} {b : Bytes} (split : bs = done ++ b :: lost)
    (answers : s.replies done = replies.map some)
    (silent : ((s.afterAll done).handle b).reply = none) :
    Stage bs s ⟨.gone,
      given replies ++ refusals (lost.length + 1), [], [],
      .ended .exhausted, ((s.afterAll done).handle b).after⟩

namespace Stage

variable {bs : List Bytes} {s : Server σ} {l m : Link σ}

/-- A link begins at a stage. -/
theorem start (bs : List Bytes) (s : Server σ) : Stage bs s (.start bs s) :=
  @idle _ _ bs s [] bs [] rfl rfl

/-! ### The single steps

Each is possible at one or two stages only. -/

/-- Only the next request is sent, when all before it have their replies. -/
theorem send (h : Stage bs s l) {b : Bytes} {rest : List Bytes}
    (ready : l.client = .sending (b :: rest)) (there : l.phase.serving = true) :
    Stage bs s { l with client := .waiting rest, requests := l.requests ++ [b] } := by
  cases h with
  | idle split answers =>
    cases ready
    exact .asked split answers
  | refused => cases there
  | _ => cases ready

/-- A request that is refused adds to those that have failed. -/
theorem refuse (h : Stage bs s l) {b : Bytes} {rest : List Bytes}
    (ready : l.client = .sending (b :: rest)) (gone : l.phase.serving = false) :
    Stage bs s (l.give (.error .closed) rest) := by
  cases h with
  | idle => cases gone
  | @refused done lost rest' replies c split answers silent =>
    cases ready
    have hsplit : bs = done ++ c :: ((lost ++ [b]) ++ rest) := by
      rw [split, List.append_assoc]
      rfl
    have hrefused := Stage.refused hsplit answers silent
    rw [List.length_append, refusals_add, ← List.append_assoc] at hrefused
    exact hrefused
  | _ => cases ready

/-- The client leaves when every request gave its result. -/
theorem leave (h : Stage bs s l) (ready : l.client = .sending []) :
    Stage bs s { l with client := .gone } := by
  cases h with
  | idle split answers =>
    cases ready
    obtain rfl := split.trans (List.append_nil _)
    exact .left answers
  | @refused done lost rest replies b split answers silent =>
    cases ready
    rw [List.append_nil] at split
    exact .alone split answers silent
  | _ => cases ready

/-- The reply that is received is the one of the request that was sent last. -/
theorem receive (h : Stage bs s l) {rest more : List Bytes} {reply : Bytes}
    (ready : l.client = .waiting rest) (arrived : l.replies = reply :: more) :
    Stage bs s { l.give (.ok reply) rest with replies := more } := by
  cases h with
  | @answered done rest' replies b reply' split answers answer =>
    cases ready
    cases arrived
    have hsplit : bs = (done ++ [b]) ++ rest := by
      rw [split, List.append_assoc]
      rfl
    have hanswers : s.replies (done ++ [b]) = (replies ++ [reply]).map some := by
      rw [Server.replies_append, answers, List.map_append]
      exact congrArg (replies.map some ++ [·]) answer
    have hidle := Stage.idle hsplit hanswers
    rw [Server.afterAll_append, given, List.map_append] at hidle
    exact hidle
  | asked | handled | crashed => cases arrived
  | _ => cases ready

/-- Only the request over which memory ran out is given up while the client waits. -/
theorem abandon (h : Stage bs s l) {rest : List Bytes} (ready : l.client = .waiting rest)
    (gone : l.phase.serving = false) : Stage bs s (l.give (.error .closed) rest) := by
  cases h with
  | @crashed done rest' replies b split answers silent =>
    cases ready
    exact @refused _ _ bs s done [] rest replies b split answers silent
  | asked | handled | answered => cases gone
  | _ => cases ready

/-- The server takes the request that was sent last. -/
theorem take (h : Stage bs s l) {b : Bytes} {more : List Bytes} (arrived : l.requests = b :: more) :
    Stage bs s (l.serve b more) := by
  cases h with
  | @asked done rest replies b' split answers =>
    cases arrived
    rcases hreply : ((s.afterAll done).handle b).reply with _ | reply
    · simp only [Link.serve, hreply]
      exact .crashed split answers hreply
    · simp only [Link.serve, hreply]
      exact .handled split answers hreply
  | _ => cases arrived

/-- A reply is sent for the request that was taken last. -/
theorem reply (h : Stage bs s l) {reply : Bytes} (ready : l.phase = .replying reply) :
    Stage bs s { l with phase := .polling, replies := l.replies ++ [reply] } := by
  cases h with
  | handled split answers answer =>
    cases ready
    exact .answered split answers answer
  | _ => cases ready

/-- A reply finds its queue empty, and the client waits for it. -/
theorem replyRoom (h : Stage bs s l) (reply : Bytes) (ready : l.phase = .replying reply) :
    l.replies = [] ∧ ∃ rest, l.client = .waiting rest := by
  cases h with
  | handled split answers answer => exact ⟨rfl, _, rfl⟩
  | _ => cases ready

/-- The server stops when all requests have their replies. -/
theorem close (h : Stage bs s l) (ready : l.phase = .polling) (gone : l.client = .gone) :
    Stage bs s { l with phase := .ended .stopped } := by
  cases h with
  | left answers => exact .stopped answers
  | stopped | alone => cases ready
  | _ => cases gone

/-- Every step leads from a stage to a stage. -/
theorem move (h : Stage bs s l) (hm : Move l m) : Stage bs s m := by
  cases hm with
  | send ready there room => exact h.send ready there
  | refuse ready gone => exact h.refuse ready gone
  | leave ready => exact h.leave ready
  | receive ready arrived => exact h.receive ready arrived
  | abandon ready gone empty => exact h.abandon ready gone
  | take ready arrived => exact h.take arrived
  | timeout ready => exact h
  | reply ready there room => exact h.reply ready
  | drop ready gone =>
    -- no reply is dropped, since the client leaves only when it has all of them
    obtain ⟨-, rest, hwaiting⟩ := h.replyRoom _ ready
    cases gone.symm.trans hwaiting
  | close ready gone empty => exact h.close ready gone

/-- Whatever the client and the server do, their link is at a stage. -/
theorem of_reachable (h : Relation.ReflTransGen Move (.start bs s) l) : Stage bs s l := by
  induction h with
  | refl => exact start bs s
  | tail _ hm ih => exact ih.move hm

end Stage

/-! ## The end of a link -/

/-- Both sides have ended. -/
def Link.Finished (l : Link σ) : Prop := l.client = .gone ∧ l.phase.serving = false

/-- At every stage a step is chosen that leaves less to do, unless both sides have ended. -/
theorem Stage.next_cases {bs : List Bytes} {s : Server σ} {l : Link σ} (h : Stage bs s l) :
    (next? l = none ∧ l.Finished) ∨ ∃ m, next? l = some m ∧ m.todo < l.todo := by
  -- a step that is chosen is no wait, as it changes the client or the phase
  have hsome : ∀ {l m : Link σ}, next? l = some m → (m.client ≠ l.client ∨ m.phase ≠ l.phase) →
      ∃ m, next? l = some m ∧ m.todo < l.todo := by
    intro l m hm hne
    rcases (move_of_next? hm).todo_lt with ⟨rfl, -⟩ | hlt
    · simp at hne
    · exact ⟨m, hm, hlt⟩
  cases h with
  | @idle done rest replies split answers =>
    right
    cases rest with
    | nil => exact hsome rfl (by simp)
    | cons b rest => exact hsome rfl (by simp)
  | @asked done rest replies b split answers =>
    right
    refine hsome rfl (Or.inr ?_)
    show (Link.serve _ b []).phase ≠ .polling
    simp only [Link.serve]
    split
    · exact nofun
    · exact nofun
  | handled split answers answer => exact Or.inr (hsome rfl (by simp))
  | answered split answers answer => exact Or.inr (hsome rfl (by simp [Link.give]))
  | left answers => exact Or.inr (hsome rfl (by simp))
  | stopped answers => exact Or.inl ⟨rfl, rfl, rfl⟩
  | crashed split answers silent => exact Or.inr (hsome rfl (by simp [Link.give]))
  | @refused done lost rest replies b split answers silent =>
    right
    cases rest with
    | nil => exact hsome rfl (by simp)
    | cons b rest => exact hsome rfl (by simp [Link.give])
  | alone split answers silent => exact Or.inl ⟨rfl, rfl, rfl⟩

/-- The steps that are chosen are possible ones. -/
theorem reachable_runFor (steps : Nat) (l : Link σ) :
    Relation.ReflTransGen Move l (runFor steps l) := by
  induction steps generalizing l with
  | zero => exact .refl
  | succ steps ih =>
    unfold runFor
    split
    · rename_i m hm
      exact .head (move_of_next? hm) (ih m)
    · exact .refl

/-- With enough steps both sides end. -/
theorem Stage.finished_runFor {bs : List Bytes} {s : Server σ} {steps : Nat} {l : Link σ}
    (h : Stage bs s l) (enough : l.todo ≤ steps) : (runFor steps l).Finished := by
  induction steps generalizing l with
  | zero =>
    rcases h.next_cases with ⟨-, hfinished⟩ | ⟨m, hm, hlt⟩
    · exact hfinished
    · omega
  | succ steps ih =>
    rcases h.next_cases with ⟨hnone, hfinished⟩ | ⟨m, hm, hlt⟩
    · simp only [runFor, hnone]
      exact hfinished
    · simp only [runFor, hm]
      exact ih (h.move (move_of_next? hm)) (by omega)

/-- The run of a link ends. -/
theorem finished_run (bs : List Bytes) (s : Server σ) : (run bs s).Finished := by
  refine (Stage.start bs s).finished_runFor ?_
  show 4 * bs.length + 1 + 2 * 0 + 1 ≤ 4 * bs.length + 2
  omega

/-! ## Serving a link -/

/-- The transport delivers these requests in turn, with any waits between them, and takes every
reply.  The flag stays set. -/
inductive Delivers : (requests : List Bytes) → List Turn → Prop
  | nil : Delivers [] []
  | wait {bs : List Bytes} {turns : List Turn} (next : Delivers bs turns) :
    Delivers bs (⟨false, .ok none, none⟩ :: turns)
  | request {bs : List Bytes} {turns : List Turn} (b : Bytes) (next : Delivers bs turns) :
    Delivers (b :: bs) (⟨false, .ok (some b), none⟩ :: turns)

namespace Delivers

variable {bs done rest replies : List Bytes} {b : Bytes} {turns : List Turn} {s s' : Server σ}
  {events : List ServingEvent} {outcome : ServingEnd}

/-- The loop comes through the turns if all requests have replies. -/
theorem exists_passes (h : Delivers bs turns) (answers : s.replies bs = replies.map some) :
    ∃ events, Serving.Passes turns s events (s.afterAll bs) ∧
      events.filterMap ServingEvent.reply? = replies := by
  induction h generalizing s replies with
  | nil =>
    obtain rfl : replies = [] := List.map_eq_nil_iff.mp answers.symm
    exact ⟨[], .nil s, rfl⟩
  | wait _ ih =>
    obtain ⟨events, hpasses, hreplies⟩ := ih answers
    exact ⟨_, .idle rfl rfl hpasses, hreplies⟩
  | @request bs turns b _ ih =>
    cases replies with
    | nil => cases answers
    | cons reply replies =>
      obtain ⟨answer, answers⟩ := List.cons.inj answers
      obtain ⟨events, hpasses, hreplies⟩ := ih answers
      exact ⟨_, .answered rfl rfl answer rfl hpasses, congrArg (reply :: ·) hreplies⟩

/-- The turns up to a request, and those from it on. -/
theorem exists_before (h : Delivers (done ++ b :: rest) turns) :
    ∃ before more, turns = before ++ ⟨false, .ok (some b), none⟩ :: more ∧
      Delivers done before := by
  generalize hbs : done ++ b :: rest = bs at h
  induction h generalizing done with
  | nil => simp at hbs
  | wait _ ih =>
    obtain ⟨before, more, rfl, hbefore⟩ := ih hbs
    exact ⟨_ :: before, more, rfl, .wait hbefore⟩
  | @request bs turns c _ ih =>
    cases done with
    | nil =>
      obtain ⟨rfl, rfl⟩ := List.cons.inj hbs
      exact ⟨[], turns, rfl, .nil⟩
    | cons d done =>
      obtain ⟨rfl, hrest⟩ := List.cons.inj hbs
      obtain ⟨before, more, rfl, hbefore⟩ := ih hrest
      exact ⟨_ :: before, more, rfl, .request d hbefore⟩

/-- If all requests have replies, serving them stops when the client is gone. -/
theorem stopped (h : Delivers bs turns) (answers : s.replies bs = replies.map some)
    (hs : Serving.Serves true turns s events outcome s') :
    outcome = .stopped ∧ s' = s.afterAll bs ∧
      events.filterMap ServingEvent.reply? = replies := by
  obtain ⟨early, hpasses, hreplies⟩ := h.exists_passes answers
  rw [← List.append_nil turns] at hs
  obtain ⟨late, rfl, hlate⟩ := hpasses.exists_late hs
  cases hlate with
  | usedUp s => exact ⟨rfl, rfl, by rw [List.filterMap_append, hreplies]; exact List.append_nil _⟩

/-- If memory runs out over a request, serving ends there. -/
theorem exhausted (h : Delivers (done ++ b :: rest) turns)
    (answers : s.replies done = replies.map some)
    (silent : ((s.afterAll done).handle b).reply = none)
    (hs : Serving.Serves true turns s events outcome s') :
    outcome = .exhausted ∧ s' = ((s.afterAll done).handle b).after ∧
      events.filterMap ServingEvent.reply? = replies := by
  obtain ⟨before, more, rfl, hbefore⟩ := h.exists_before
  obtain ⟨early, hpasses, hreplies⟩ := hbefore.exists_passes answers
  obtain ⟨late, rfl, hlate⟩ := hpasses.exists_late hs
  cases hlate with
  | refused s arrival => cases arrival
  | idle arrival next => cases arrival
  | exhausted arrival silent' =>
    cases arrival
    exact ⟨rfl, rfl, by rw [List.filterMap_append, hreplies]; exact List.append_nil _⟩
  | unsent arrival answer sent => cases sent
  | answered arrival answer sent next =>
    cases arrival
    rw [silent] at answer
    cases answer

end Delivers

/-! ## Order -/

/-- Where the message of a request is while the client waits; the server is the one that is to
handle it. -/
inductive InTransit (s : Server σ) (b : Bytes) (l : Link σ) : Prop
  /-- The request is in its queue. -/
  | asked (requests : l.requests = [b]) (replies : l.replies = []) (phase : l.phase = .polling)
    (server : l.server = s)
  /-- The server has its reply. -/
  | handled {reply : Bytes} (answer : (s.handle b).reply = some reply) (requests : l.requests = [])
    (replies : l.replies = []) (phase : l.phase = .replying reply)
    (server : l.server = (s.handle b).after)
  /-- The reply is in its queue. -/
  | answered {reply : Bytes} (answer : (s.handle b).reply = some reply) (requests : l.requests = [])
    (replies : l.replies = [reply]) (phase : l.phase = .polling)
    (server : l.server = (s.handle b).after)
  /-- There is no reply, as memory ran out. -/
  | lost (silent : (s.handle b).reply = none) (requests : l.requests = []) (replies : l.replies = [])
    (phase : l.phase = .ended .exhausted) (server : l.server = (s.handle b).after)

/-- What holds of a link, wherever it is, that began with these requests and this server. -/
structure Orderly (bs : List Bytes) (s : Server σ) (l : Link σ) : Prop where
  /-- There is at most one message in the queues. -/
  messages : l.requests.length + l.replies.length ≤ 1
  /-- A request finds its queue empty, -/
  requestRoom : ∀ b rest, l.client = .sending (b :: rest) → l.requests = []
  /-- and so does a reply, for which the client waits. -/
  replyRoom : ∀ reply, l.phase = .replying reply →
    l.replies = [] ∧ ∃ rest, l.client = .waiting rest
  /-- Every request gives the reply of the server as the ones before it left it, in turn. -/
  results : l.results <+: returned (s.replies bs)
  /-- Between two requests nothing is on its way, and those are left that gave nothing yet. -/
  sending : ∀ rest, l.client = .sending rest → l.requests = [] ∧ l.replies = [] ∧
    bs.drop l.results.length = rest ∧
    (l.phase = .polling ∧ l.server = s.afterAll (bs.take l.results.length) ∨
      l.phase = .ended .exhausted)
  /-- While the client waits, one message is on its way, that of the first such request. -/
  waiting : ∀ rest, l.client = .waiting rest → ∃ b, bs.drop l.results.length = b :: rest ∧
    InTransit (s.afterAll (bs.take l.results.length)) b l
  /-- When the client is gone, every request gave its result and nothing is left over. -/
  gone : l.client = .gone →
    l.results = returned (s.replies bs) ∧ l.requests = [] ∧ l.replies = []
  /-- Serving stops, unless a request has no reply. -/
  ended : ∀ outcome, l.phase = .ended outcome →
    outcome = if none ∈ s.replies bs then .exhausted else .stopped
  /-- When it stops, the client is gone with all replies, and the server has handled all requests. -/
  stopped : l.phase = .ended .stopped →
    l.client = .gone ∧ l.received.map some = s.replies bs ∧ l.server = s.afterAll bs
  /-- Serving a transport that delivers these requests ends in the same way, whenever it waits. -/
  served : ∀ outcome, l.phase = .ended outcome → ∀ turns, Delivers bs turns →
    (Serving.run true turns s).outcome = outcome ∧ (Serving.run true turns s).after = l.server ∧
      (Serving.run true turns s).events.filterMap ServingEvent.reply? = l.received
  /-- Every step but a wait leaves less to do, -/
  shrinks : ∀ m, Move l m → (m = l ∧ l.phase = .polling) ∨ m.todo < l.todo
  /-- and there is one until both sides have ended. -/
  progress : l.Finished ∨ ∃ m, Move l m ∧ m.todo < l.todo

section Results

variable {bs done rest replies : List Bytes} {s : Server σ} {l : Link σ}

/-- As many requests are done as there are replies. -/
theorem length_of_replies (answers : s.replies done = replies.map some) :
    replies.length = done.length := by
  rw [← Server.length_replies done s, answers, List.length_map]

/-- What the requests give that are done, and then the others. -/
theorem returned_of_split (split : bs = done ++ rest) (answers : s.replies done = replies.map some) :
    returned (s.replies bs) = given replies ++ returned ((s.afterAll done).replies rest) := by
  simp [split, answers, returned_append]

/-- The request that has no reply fails, and so do all that come after it. -/
theorem returned_of_silent {b : Bytes} (split : bs = done ++ b :: rest)
    (answers : s.replies done = replies.map some)
    (silent : ((s.afterAll done).handle b).reply = none) :
    returned (s.replies bs)
      = given replies ++ refusals (rest.length + 1) := by
  rw [returned_of_split split answers, Server.replies, silent, returned, Server.length_replies]

/-- If the replies are these, every request has one. -/
theorem none_not_mem_replies (answers : s.replies bs = replies.map some) :
    none ∉ s.replies bs := by
  rw [answers]
  simp

/-- A request without a reply is found among the replies. -/
theorem none_mem_replies {b : Bytes} (split : bs = done ++ b :: rest)
    (silent : ((s.afterAll done).handle b).reply = none) : none ∈ s.replies bs := by
  simp [split, Server.replies, silent]

/-- The requests that gave a result are those that are done. -/
theorem take_drop_of_split (split : bs = done ++ rest)
    (answers : s.replies done = replies.map some) :
    bs.take (given replies).length = done ∧
      bs.drop (given replies).length = rest := by
  simp [length_of_replies answers, split]

end Results

namespace Stage

variable {bs : List Bytes} {s : Server σ} {l : Link σ}

/-- There is at most one message in the queues. -/
theorem messages (h : Stage bs s l) : l.requests.length + l.replies.length ≤ 1 := by
  cases h with
  | _ => simp

/-- A request finds its queue empty. -/
theorem requestRoom (h : Stage bs s l) (b : Bytes) (rest : List Bytes)
    (hl : l.client = .sending (b :: rest)) : l.requests = [] := by
  cases h with
  | asked split answers => cases hl
  | _ => rfl

/-- What the requests gave so far begins what they give in the end. -/
theorem results_prefix (h : Stage bs s l) : l.results <+: returned (s.replies bs) := by
  cases h with
  | idle split answers | asked split answers | handled split answers answer
  | answered split answers answer | crashed split answers silent =>
    rw [returned_of_split split answers]
    exact List.prefix_append _ _
  | left answers | stopped answers =>
    rw [returned_of_split (List.append_nil bs).symm answers]
    exact List.prefix_append _ _
  | @refused done lost rest replies b split answers silent =>
    rw [returned_of_silent split answers silent, List.prefix_append_right_inj, List.length_append,
      Nat.add_right_comm, refusals_add (lost.length + 1)]
    exact List.prefix_append _ _
  | alone split answers silent =>
    exact ⟨[], (List.append_nil _).trans (returned_of_silent split answers silent).symm⟩

/-- Between two requests nothing is on its way. -/
theorem sending (h : Stage bs s l) (rest : List Bytes) (hl : l.client = .sending rest) :
    l.requests = [] ∧ l.replies = [] ∧ bs.drop l.results.length = rest ∧
      (l.phase = .polling ∧ l.server = s.afterAll (bs.take l.results.length) ∨
        l.phase = .ended .exhausted) := by
  cases h with
  | idle split answers =>
    cases hl
    obtain ⟨htake, hdrop⟩ := take_drop_of_split split answers
    exact ⟨rfl, rfl, hdrop, Or.inl ⟨rfl, by rw [htake]⟩⟩
  | @refused done lost rest' replies b split answers silent =>
    cases hl
    refine ⟨rfl, rfl, ?_, Or.inr rfl⟩
    have hsplit : bs = (done ++ b :: lost) ++ rest := by
      rw [split, List.append_assoc]; rfl
    have hlength : (given replies ++ refusals (lost.length + 1)).length
        = (done ++ b :: lost).length := by
      simp [length_of_replies answers]
    rw [hlength, hsplit]
    exact List.drop_left
  | _ => cases hl

/-- While the client waits, one message is on its way. -/
theorem waiting (h : Stage bs s l) (rest : List Bytes) (hl : l.client = .waiting rest) :
    ∃ b, bs.drop l.results.length = b :: rest ∧
      InTransit (s.afterAll (bs.take l.results.length)) b l := by
  cases h with
  | asked split answers =>
    cases hl
    obtain ⟨htake, hdrop⟩ := take_drop_of_split split answers
    exact ⟨_, hdrop, .asked rfl rfl rfl (by rw [htake])⟩
  | handled split answers answer =>
    cases hl
    obtain ⟨htake, hdrop⟩ := take_drop_of_split split answers
    exact ⟨_, hdrop, .handled (by rw [htake]; exact answer) rfl rfl rfl (by rw [htake])⟩
  | answered split answers answer =>
    cases hl
    obtain ⟨htake, hdrop⟩ := take_drop_of_split split answers
    exact ⟨_, hdrop, .answered (by rw [htake]; exact answer) rfl rfl rfl (by rw [htake])⟩
  | crashed split answers silent =>
    cases hl
    obtain ⟨htake, hdrop⟩ := take_drop_of_split split answers
    exact ⟨_, hdrop, .lost (by rw [htake]; exact silent) rfl rfl rfl (by rw [htake])⟩
  | _ => cases hl

/-- When the client is gone, every request gave its result. -/
theorem gone (h : Stage bs s l) (hl : l.client = .gone) :
    l.results = returned (s.replies bs) ∧ l.requests = [] ∧ l.replies = [] := by
  cases h with
  | left answers | stopped answers =>
    refine ⟨?_, rfl, rfl⟩
    rw [returned_of_split (List.append_nil bs).symm answers]
    exact (List.append_nil _).symm
  | alone split answers silent =>
    exact ⟨(returned_of_silent split answers silent).symm, rfl, rfl⟩
  | _ => cases hl

/-- Serving stops, unless a request has no reply. -/
theorem ended (h : Stage bs s l) (outcome : ServingEnd) (hl : l.phase = .ended outcome) :
    outcome = if none ∈ s.replies bs then .exhausted else .stopped := by
  cases h with
  | stopped answers =>
    cases hl
    rw [if_neg (none_not_mem_replies answers)]
  | crashed split answers silent | refused split answers silent | alone split answers silent =>
    cases hl
    rw [if_pos (none_mem_replies split silent)]
  | _ => cases hl

/-- When serving stops, the client is gone with all replies. -/
theorem stopped_of_ended (h : Stage bs s l) (hl : l.phase = .ended .stopped) :
    l.client = .gone ∧ l.received.map some = s.replies bs ∧ l.server = s.afterAll bs := by
  cases h with
  | @stopped replies answers =>
    refine ⟨rfl, ?_, rfl⟩
    simp [answers, Link.received]
  | _ => cases hl

/-- Serving a transport that delivers these requests ends in the same way. -/
theorem served (h : Stage bs s l) (outcome : ServingEnd) (hl : l.phase = .ended outcome)
    (turns : List Turn) (ht : Delivers bs turns) :
    (Serving.run true turns s).outcome = outcome ∧ (Serving.run true turns s).after = l.server ∧
      (Serving.run true turns s).events.filterMap ServingEvent.reply? = l.received := by
  have hserves : Serving.Serves true turns s (Serving.run true turns s).events
      (Serving.run true turns s).outcome (Serving.run true turns s).after :=
    Serving.serves_loop true turns s
  cases h with
  | @stopped replies answers =>
    cases hl
    obtain ⟨houtcome, hafter, hreplies⟩ := ht.stopped answers hserves
    exact ⟨houtcome, hafter, hreplies.trans (filterMap_given replies).symm⟩
  | @crashed done rest replies b split answers silent =>
    cases hl
    rw [split] at ht
    obtain ⟨houtcome, hafter, hreplies⟩ := ht.exhausted answers silent hserves
    exact ⟨houtcome, hafter, hreplies.trans (filterMap_given replies).symm⟩
  | refused split answers silent | alone split answers silent =>
    cases hl
    rw [split] at ht
    obtain ⟨houtcome, hafter, hreplies⟩ := ht.exhausted answers silent hserves
    exact ⟨houtcome, hafter, hreplies.trans (filterMap_given_append_refusals _ _).symm⟩
  | _ => cases hl

/-- All of this holds at every stage. -/
theorem orderly (h : Stage bs s l) : Orderly bs s l where
  messages := h.messages
  requestRoom := h.requestRoom
  replyRoom := h.replyRoom
  results := h.results_prefix
  sending := h.sending
  waiting := h.waiting
  gone := h.gone
  ended := h.ended
  stopped := h.stopped_of_ended
  served := h.served
  shrinks _ := Move.todo_lt
  progress := by
    rcases h.next_cases with ⟨-, hfinished⟩ | ⟨m, hm, hlt⟩
    · exact Or.inl hfinished
    · exact Or.inr ⟨m, move_of_next? hm, hlt⟩

end Stage

/-- **Requests and replies keep their order**, in every interleaving of a client and a server; and
the run that the library chooses is one that ends. -/
theorem link_isOrderly (bs : List Bytes) (s : Server σ) :
    (∀ l, Relation.ReflTransGen Move (.start bs s) l → Orderly bs s l) ∧
    Relation.ReflTransGen Move (.start bs s) (run bs s) ∧ (run bs s).Finished :=
  ⟨fun _ h => (Stage.of_reachable h).orderly, reachable_runFor _ _, finished_run bs s⟩

/-- The reply to the make is received; memory runs out over the step, and its request fails. -/
theorem link_isOrderly_raggedRequests :
    let fresh := Server.start (.start World.registry .usual)
    let l := run Serving.raggedRequests fresh
    Relation.ReflTransGen Move (.start Serving.raggedRequests fresh) l ∧
    Orderly Serving.raggedRequests fresh l ∧
    l.results.map Except.toOption = [some Response.made.encode, none] ∧
    l.phase = .ended .exhausted := by
  intro fresh l
  have hreachable : Relation.ReflTransGen Move (.start Serving.raggedRequests fresh) l :=
    reachable_runFor _ _
  have hphase : l.phase = .ended .exhausted := by decide +kernel
  have hresults : l.results.map Except.toOption = [some Response.made.encode, none] := by
    decide +kernel
  exact ⟨hreachable, (link_isOrderly Serving.raggedRequests fresh).1 l hreachable, hresults, hphase⟩

end Channel

end Rollout
