import BenchBF3.SmallBank.Client

/-! # The start barrier of the eRPC clients

The leader pushes a PING message to the queue of every client, then pops one
message from every queue, and only then pushes the first GET_DATA messages. The
client thread sends the PING to the server, and `callback_ping` pushes a PING
message to the same queue to tell the leader to begin. Nothing in a queue says
who pushed a message, so the leader may pop its own. For every client there is
one PING between the leader's push and its pop: in the queue, or as a request
whose callback has not run.
-/

namespace BenchBF3.SmallBank

open Foundation

/-! ## Leader and client threads -/

/-- What `callback_ping` and the leader push. -/
def pingMsg : ReqMsg := ⟨0, .ping⟩

/-- Where a client thread is in its endless loop: before `was_size`, with some
messages left to pop, or in the event loop. -/
inductive ClientLoop
  | size
  | pop (left : Nat)
  | events

/-- A client's queue and its requests whose callbacks have not run, with the
numbers of calls of `handler_ping` and of `callback_ping`. -/
structure ClientThread where
  reqId : BitVec 32
  queue : List ReqMsg
  loop : ClientLoop
  outstanding : Multiset ReqMsg
  handled : Nat
  acked : Nat

namespace ClientThread

def init : ClientThread where
  reqId := 1
  queue := []
  loop := .size
  outstanding := 0
  handled := 0
  acked := 0

def push (thread : ClientThread) (msg : ReqMsg) : ClientThread :=
  { thread with queue := thread.queue ++ [msg] }

/-- The handler of a popped message enqueues a request of the same type. -/
def handle (thread : ClientThread) (msg : ReqMsg) : ClientThread :=
  { thread with
    outstanding := msg ::ₘ thread.outstanding
    handled := if msg.reqType = .ping then thread.handled + 1 else thread.handled }

/-- The callback of a request: what it pushes to the queue, and whether it starts
the next transaction. `success` is the answer to a GET_LOCK. -/
def callback (concurrency : Nat) (success : Bool) (thread : ClientThread) (msg : ReqMsg) :
    ClientThread :=
  match msg.reqType with
  | .ping => { thread with acked := thread.acked + 1 }.push pingMsg
  | .getData => thread.push ⟨msg.reqId, .getLock⟩
  | .getLock =>
      if success then thread.push ⟨msg.reqId, .finish⟩
      else { thread with reqId := thread.reqId + 1 }.push
        ⟨msg.reqId + BitVec.ofNat 32 concurrency, .getData⟩
  | .finish => { thread with reqId := thread.reqId + 1 }.push
      ⟨msg.reqId + BitVec.ofNat 32 concurrency, .getData⟩

end ClientThread

/-- Where `leader_thread_func` is: the client it pings, collects from or starts
next, with the number of GET_DATA messages left for that client. -/
inductive Leader
  | ping (client : Nat)
  | collect (client : Nat)
  | start (client left : Nat)

structure Barrier where
  leader : Leader
  clients : Nat → ClientThread

inductive BarrierAction
  | leaderPing (client : Nat)
  | leaderCollect (client : Nat)
  | leaderStart (client : Nat)
  | leaderNext
  | client (client : Nat)

/-- The state after a step of one client, or of the leader on its queue. -/
def Barrier.put (state : Barrier) (leader : Leader) (client : Nat) (thread : ClientThread) :
    Barrier :=
  ⟨leader, Function.update state.clients client thread⟩

/-- One round of a client thread's loop is split at its accesses to the queue;
callbacks run in the event loop, in any order and number. -/
inductive ClientThreadStep (concurrency : Nat) : ClientThread → ClientThread → Prop
  | size {thread : ClientThread} (hloop : thread.loop = .size) :
      ClientThreadStep concurrency thread { thread with loop := .pop thread.queue.length }
  | pop {thread : ClientThread} {left : Nat} {msg : ReqMsg} {rest : List ReqMsg}
      (hloop : thread.loop = .pop (left + 1)) (hqueue : thread.queue = msg :: rest) :
      ClientThreadStep concurrency thread
        ({ thread with loop := .pop left, queue := rest }.handle msg)
  | popped {thread : ClientThread} (hloop : thread.loop = .pop 0) :
      ClientThreadStep concurrency thread { thread with loop := .events }
  | callback {thread : ClientThread} {msg : ReqMsg} {others : Multiset ReqMsg}
      (success : Bool) (hloop : thread.loop = .events)
      (houtstanding : thread.outstanding = msg ::ₘ others) :
      ClientThreadStep concurrency thread
        ({ thread with outstanding := others }.callback concurrency success msg)
  | again {thread : ClientThread} (hloop : thread.loop = .events) :
      ClientThreadStep concurrency thread { thread with loop := .size }

/-- The leader goes through all clients three times; a pop waits for an element. -/
inductive BarrierStep (clientNum concurrency : Nat) : Barrier → BarrierAction → Barrier → Prop
  | leaderPing {state : Barrier} {client : Nat} (hleader : state.leader = .ping client)
      (hclient : client < clientNum) :
      BarrierStep clientNum concurrency state (.leaderPing client)
        (state.put (.ping (client + 1)) client ((state.clients client).push pingMsg))
  | pinged {state : Barrier} (hleader : state.leader = .ping clientNum) :
      BarrierStep clientNum concurrency state .leaderNext { state with leader := .collect 0 }
  | leaderCollect {state : Barrier} {client : Nat} {msg : ReqMsg} {rest : List ReqMsg}
      (hleader : state.leader = .collect client) (hclient : client < clientNum)
      (hqueue : (state.clients client).queue = msg :: rest) :
      BarrierStep clientNum concurrency state (.leaderCollect client)
        (state.put (.collect (client + 1)) client { state.clients client with queue := rest })
  | collected {state : Barrier} (hleader : state.leader = .collect clientNum) :
      BarrierStep clientNum concurrency state .leaderNext
        { state with leader := .start 0 concurrency }
  | leaderStart {state : Barrier} {client left : Nat}
      (hleader : state.leader = .start client (left + 1)) (hclient : client < clientNum) :
      BarrierStep clientNum concurrency state (.leaderStart client)
        (state.put (.start client left) client
          ({ state.clients client with reqId := (state.clients client).reqId + 1 }.push
            ⟨(state.clients client).reqId, .getData⟩))
  | started {state : Barrier} {client : Nat} (hleader : state.leader = .start client 0)
      (hclient : client < clientNum) :
      BarrierStep clientNum concurrency state .leaderNext
        { state with leader := .start (client + 1) concurrency }
  | client {state : Barrier} {client : Nat} {thread : ClientThread}
      (hclient : client < clientNum)
      (hstep : ClientThreadStep concurrency (state.clients client) thread) :
      BarrierStep clientNum concurrency state (.client client)
        (state.put state.leader client thread)

/-- Runs of the leader with its clients, all threads started. -/
def barrierSystem (clientNum concurrency : Nat) : System Barrier BarrierAction where
  start state := state.leader = .ping 0 ∧ ∀ client, state.clients client = .init
  step := BarrierStep clientNum concurrency

/-! ## One PING for each client -/

/-- A client that has not been started: its messages are PINGs, some number of
them in all, and every call of `handler_ping` is answered or outstanding. -/
structure ClientThread.Pinging (thread : ClientThread) (tokens : Nat) : Prop where
  reqId : thread.reqId = 1
  queue : ∀ msg ∈ thread.queue, msg = pingMsg
  outstanding : ∀ msg ∈ thread.outstanding, msg = pingMsg
  count : thread.queue.length + thread.outstanding.card = tokens
  handled : thread.handled = thread.acked + thread.outstanding.card

/-- The PINGs that a client has from the leader. -/
def Leader.tokens : Leader → Nat → Nat
  | .ping next, client => if client < next then 1 else 0
  | .collect next, client => if next ≤ client then 1 else 0
  | .start _ _, _ => 0

/-- The leader has popped its message from the client's queue. -/
def Leader.collected : Leader → Nat → Prop
  | .ping _, _ => False
  | .collect next, client => client < next
  | .start _ _, _ => True

/-- The leader has pushed no GET_DATA to the client. -/
def Leader.unstarted (concurrency : Nat) : Leader → Nat → Prop
  | .start next left, client => next < client ∨ next = client ∧ left = concurrency
  | _, _ => True

/-- The messages of the clients that are not started yet. -/
structure Barrier.Tokens (clientNum concurrency : Nat) (state : Barrier) : Prop where
  left_le : ∀ client left, state.leader = .start client left → left ≤ concurrency
  pinging : ∀ client, client < clientNum → state.leader.unstarted concurrency client →
    (state.clients client).Pinging (state.leader.tokens client)

section ClientSteps

variable {concurrency tokens : Nat} {thread next : ClientThread}

theorem ClientThread.init_pinging : init.Pinging 0 where
  reqId := rfl
  queue := nofun
  outstanding := by simp [init]
  count := rfl
  handled := rfl

/-- The leader's message. -/
theorem ClientThread.Pinging.push (hpinging : thread.Pinging tokens) :
    (thread.push pingMsg).Pinging (tokens + 1) where
  reqId := hpinging.reqId
  queue := by
    intro msg hmem
    rcases List.mem_append.mp hmem with hold | hnew
    · exact hpinging.queue msg hold
    · exact List.mem_singleton.mp hnew
  outstanding := hpinging.outstanding
  count := by
    have hcount := hpinging.count
    simp only [ClientThread.push, List.length_append, List.length_singleton]
    omega
  handled := hpinging.handled

/-- A message in the queue is the only PING, so no request is outstanding. -/
theorem ClientThread.Pinging.acked_eq (hpinging : thread.Pinging 1) {msg : ReqMsg}
    {rest : List ReqMsg} (hqueue : thread.queue = msg :: rest) :
    rest = [] ∧ thread.outstanding = 0 ∧ thread.acked = thread.handled := by
  have hcount := hpinging.count
  have hhandled := hpinging.handled
  rw [hqueue, List.length_cons] at hcount
  have hcard : thread.outstanding.card = 0 := by omega
  exact ⟨List.length_eq_zero_iff.mp (by omega), Multiset.card_eq_zero.mp hcard, by omega⟩

/-- The client's own steps move its PING between queue and network. -/
theorem ClientThreadStep.pinging (hstep : ClientThreadStep concurrency thread next)
    (hpinging : thread.Pinging tokens) : next.Pinging tokens := by
  have hcount := hpinging.count
  have hhandled := hpinging.handled
  cases hstep with
  | size _ | popped _ | again _ => exact { hpinging with }
  | @pop left msg rest _ hqueue =>
      have hmsgs := hpinging.queue
      rw [hqueue] at hmsgs hcount
      rw [List.forall_mem_cons] at hmsgs
      obtain ⟨rfl, hrest⟩ := hmsgs
      rw [List.length_cons] at hcount
      refine ⟨hpinging.reqId, hrest, ?_, ?_, ?_⟩
      · exact Multiset.forall_mem_cons.mpr ⟨rfl, hpinging.outstanding⟩
      · simp only [ClientThread.handle, Multiset.card_cons]
        omega
      · simp only [ClientThread.handle, pingMsg, if_true, Multiset.card_cons]
        omega
  | @callback msg others success _ houtstanding =>
      have hmsgs := hpinging.outstanding
      rw [houtstanding] at hmsgs hcount hhandled
      obtain ⟨rfl, hothers⟩ := Multiset.forall_mem_cons.mp hmsgs
      rw [Multiset.card_cons] at hcount hhandled
      -- The callback puts the PING of the answered request back into the queue.
      have hsame : ClientThread.Pinging
          { thread with outstanding := others, acked := thread.acked + 1 } (tokens - 1) :=
        ⟨hpinging.reqId, hpinging.queue, hothers, by dsimp only; omega, by dsimp only; omega⟩
      have hpushed := hsame.push
      rwa [Nat.sub_add_cancel (show 1 ≤ tokens by omega)] at hpushed

theorem ClientThreadStep.acked_le (hstep : ClientThreadStep concurrency thread next) :
    thread.acked ≤ next.acked := by
  cases hstep with
  | @callback msg others success _ _ =>
      unfold ClientThread.callback
      cases msg.reqType with
      | ping => exact Nat.le_succ _
      | getLock => cases success <;> exact le_rfl
      | getData | finish => exact le_rfl
  | _ => exact le_rfl

end ClientSteps

section Steps

variable {clientNum concurrency : Nat} {state next : Barrier} {action : BarrierAction}

@[simp] theorem Barrier.put_leader (state : Barrier) (leader : Leader) (client : Nat)
    (thread : ClientThread) : (state.put leader client thread).leader = leader := rfl

theorem Barrier.put_clients (state : Barrier) (leader : Leader) (client : Nat)
    (thread : ClientThread) (other : Nat) :
    (state.put leader client thread).clients other =
      if other = client then thread else state.clients other := by
  simp only [put, Function.update_apply]

/-- What the place of the leader says about a client that it has not started. -/
theorem Barrier.Tokens.pinging_at (hinv : state.Tokens clientNum concurrency) {leader : Leader}
    (hleader : state.leader = leader) {client : Nat} (hclient : client < clientNum)
    (hunstarted : leader.unstarted concurrency client) :
    (state.clients client).Pinging (leader.tokens client) := by
  subst hleader
  exact hinv.pinging client hclient hunstarted

/-- A step that moves the leader and changes one client. -/
theorem Barrier.Tokens.of_put {leader : Leader} {client : Nat} {thread : ClientThread}
    (hleft : ∀ other left, leader = .start other left → left ≤ concurrency)
    (hthread : client < clientNum → leader.unstarted concurrency client →
      thread.Pinging (leader.tokens client))
    (hothers : ∀ other, other ≠ client → other < clientNum →
      leader.unstarted concurrency other →
      (state.clients other).Pinging (leader.tokens other)) :
    (state.put leader client thread).Tokens clientNum concurrency := by
  refine ⟨hleft, ?_⟩
  intro other hother hunstarted
  rw [Barrier.put_clients, Barrier.put_leader]
  split
  next heq =>
    subst other
    exact hthread hother hunstarted
  next hne => exact hothers other hne hother hunstarted

theorem BarrierStep.tokens (hstep : BarrierStep clientNum concurrency state action next)
    (hinv : state.Tokens clientNum concurrency) : next.Tokens clientNum concurrency := by
  cases hstep with
  | @leaderPing client hleader hclient =>
      refine Barrier.Tokens.of_put nofun ?_ ?_
      · intro _ _
        simpa [Leader.tokens] using (hinv.pinging_at hleader hclient trivial).push
      · intro other hne hother _
        have hiff : other < client + 1 ↔ other < client := by omega
        simpa only [Leader.tokens, hiff] using hinv.pinging_at hleader hother trivial
  | pinged hleader =>
      refine ⟨nofun, ?_⟩
      intro other hother _
      have hpinging := hinv.pinging_at hleader hother trivial
      simpa [Leader.tokens, hother] using hpinging
  | @leaderCollect client msg rest hleader hclient hqueue =>
      refine Barrier.Tokens.of_put nofun ?_ ?_
      · intro _ _
        have hpinging := hinv.pinging_at hleader hclient trivial
        simp only [Leader.tokens, le_refl, if_true] at hpinging
        -- The PING that the leader pops is the only one that the client has.
        obtain ⟨rfl, hnone, hacked⟩ := hpinging.acked_eq hqueue
        have htokens : (Leader.collect (client + 1)).tokens client = 0 := by
          simp [Leader.tokens]
        rw [htokens]
        exact ⟨hpinging.reqId, nofun, hpinging.outstanding, by simp [hnone], hpinging.handled⟩
      · intro other hne hother _
        have hiff : client + 1 ≤ other ↔ client ≤ other := by omega
        simpa only [Leader.tokens, hiff] using hinv.pinging_at hleader hother trivial
  | collected hleader =>
      refine ⟨?_, ?_⟩
      · intro client left heq
        obtain ⟨-, rfl⟩ := Leader.start.inj heq
        exact le_rfl
      · intro other hother _
        have hpinging := hinv.pinging_at hleader hother trivial
        simpa [Leader.tokens, hother.not_ge] using hpinging
  | @leaderStart client left hleader hclient =>
      have hleft := hinv.left_le client (left + 1) hleader
      -- The client gets its first GET_DATA here, so only later ones are not started.
      have hafter {other : Nat}
          (hunstarted : (Leader.start client left).unstarted concurrency other) :
          client < other := by
        rcases hunstarted with hlt | ⟨-, heq⟩
        · exact hlt
        · omega
      refine Barrier.Tokens.of_put ?_ ?_ ?_
      · intro other rest heq
        obtain ⟨-, rfl⟩ := Leader.start.inj heq
        omega
      · intro _ hunstarted
        exact absurd (hafter hunstarted) (Nat.lt_irrefl client)
      · intro other _ hother hunstarted
        exact hinv.pinging_at hleader hother (.inl (hafter hunstarted))
  | @started client hleader hclient =>
      refine ⟨?_, ?_⟩
      · intro other left heq
        obtain ⟨-, rfl⟩ := Leader.start.inj heq
        exact le_rfl
      · intro other hother hunstarted
        have hafter : client < other := by
          rcases hunstarted with hlt | ⟨heq, -⟩ <;> omega
        have hpinging := hinv.pinging_at hleader hother (.inl hafter)
        exact hpinging
  | @client client thread hclient hstep =>
      refine Barrier.Tokens.of_put hinv.left_le ?_ ?_
      · intro hclient hunstarted
        exact hstep.pinging (hinv.pinging client hclient hunstarted)
      · intro other _ hother hunstarted
        exact hinv.pinging other hother hunstarted

theorem barrierSystem_tokens (hreach : (barrierSystem clientNum concurrency).Reachable state) :
    state.Tokens clientNum concurrency := by
  apply hreach.invariant
  · rintro ⟨leader, clients⟩ ⟨hleader, hclients⟩
    dsimp only at hleader hclients
    subst leader
    refine ⟨nofun, ?_⟩
    intro client _ _
    dsimp only
    rw [hclients]
    exact ClientThread.init_pinging
  · intro state action next _ hinv hstep
    exact BarrierStep.tokens hstep hinv

/-- When the leader comes to start a client, no PING of it is left anywhere: its
context is the one that the runs of a client start from. -/
theorem clientSystem_start_of_barrier
    (hreach : (barrierSystem clientNum concurrency).Reachable state) {client : Nat}
    (hclient : client < clientNum) (hleader : state.leader = .start client concurrency)
    (slots : Nat → Slot) :
    (state.clients client).outstanding = 0 ∧
      (clientSystem concurrency).start
        { reqId := (state.clients client).reqId
          remaining := concurrency
          queue := (state.clients client).queue
          outstanding := 0
          slots
          failed := false } := by
  have hpinging := (barrierSystem_tokens hreach).pinging_at hleader hclient (.inr ⟨rfl, rfl⟩)
  have hcount := hpinging.count
  simp only [Leader.tokens, Nat.add_eq_zero_iff, List.length_eq_zero_iff,
    Multiset.card_eq_zero] at hcount
  exact ⟨hcount.2, hpinging.reqId, rfl, hcount.1, rfl, rfl⟩

end Steps

/-! ## The barrier -/

/-- Every client that the leader has collected from has run `callback_ping`. -/
def Barrier.Acknowledged (clientNum : Nat) (state : Barrier) : Prop :=
  ∀ client, client < clientNum → state.leader.collected client →
    0 < (state.clients client).acked

/-- The leader pops from a queue only after the client's `handler_ping` has taken
the leader's own message out of it. -/
def TakenFirst (state : Barrier) (action : BarrierAction) : Prop :=
  ∀ client, action = .leaderCollect client → 0 < (state.clients client).handled

section Acknowledged

variable {clientNum concurrency : Nat} {state next : Barrier} {action : BarrierAction}

theorem Barrier.Acknowledged.of_put {leader : Leader} {client : Nat} {thread : ClientThread}
    (hthread : client < clientNum → leader.collected client → 0 < thread.acked)
    (hothers : ∀ other, other ≠ client → other < clientNum → leader.collected other →
      0 < (state.clients other).acked) :
    (state.put leader client thread).Acknowledged clientNum := by
  intro other hother hcollected
  rw [Barrier.put_clients]
  split
  next heq =>
    subst other
    exact hthread hother hcollected
  next hne => exact hothers other hne hother hcollected

/-- A step keeps the barrier exactly when the leader does not pop its own message. -/
theorem BarrierStep.acknowledged_iff (hstep : BarrierStep clientNum concurrency state action next)
    (hinv : state.Tokens clientNum concurrency) (hack : state.Acknowledged clientNum) :
    next.Acknowledged clientNum ↔ TakenFirst state action := by
  cases hstep with
  | leaderPing _ _ => exact iff_of_true (fun _ _ hnot => hnot.elim) nofun
  | pinged _ => exact iff_of_true (fun client _ hnot => (Nat.not_lt_zero client hnot).elim) nofun
  | @leaderCollect client msg rest hleader hclient hqueue =>
      have hpinging := hinv.pinging_at hleader hclient trivial
      simp only [Leader.tokens, le_refl, if_true] at hpinging
      obtain ⟨-, -, hacked⟩ := hpinging.acked_eq hqueue
      constructor
      · intro hnext other heq
        obtain rfl := BarrierAction.leaderCollect.inj heq
        have hpos := hnext client hclient (Nat.lt_succ_self client)
        rw [Barrier.put_clients, if_pos rfl] at hpos
        rw [← hacked]
        exact hpos
      · intro htaken
        refine Barrier.Acknowledged.of_put ?_ ?_
        · intro _ _
          rw [hacked]
          exact htaken client rfl
        · intro other hne hother hcollected
          apply hack other hother
          rw [hleader]
          exact Nat.lt_of_le_of_ne (Nat.le_of_lt_succ hcollected) hne
  | collected hleader =>
      refine iff_of_true ?_ nofun
      intro other hother _
      apply hack other hother
      rw [hleader]
      exact hother
  | @leaderStart client left hleader hclient =>
      refine iff_of_true (Barrier.Acknowledged.of_put ?_ ?_) nofun
      · intro _ _
        exact hack client hclient (by rw [hleader]; trivial)
      · intro other _ hother _
        exact hack other hother (by rw [hleader]; trivial)
  | started hleader _ =>
      refine iff_of_true ?_ nofun
      intro other hother _
      exact hack other hother (by rw [hleader]; trivial)
  | @client client thread hclient hstep =>
      refine iff_of_true (Barrier.Acknowledged.of_put ?_ ?_) nofun
      · intro _ hcollected
        exact (hack client hclient hcollected).trans_le hstep.acked_le
      · intro other _ hother hcollected
        exact hack other hother hcollected

/-- In every run in which the leader pops from a queue only after the client has
taken the leader's message, GET_DATA goes to a client only after its
`callback_ping`; and a step keeps that so exactly when it meets the condition. -/
theorem started_after_ping
    (hreach : ((barrierSystem clientNum concurrency).restrict TakenFirst).Reachable state) :
    (∀ client next, BarrierStep clientNum concurrency state (.leaderStart client) next →
      0 < (state.clients client).acked) ∧
    ∀ action next, BarrierStep clientNum concurrency state action next →
      (next.Acknowledged clientNum ↔ TakenFirst state action) := by
  have hack : state.Acknowledged clientNum := by
    apply hreach.invariant
    · intro state hstart client _ hcollected
      rw [hstart.1] at hcollected
      exact hcollected.elim
    · intro state action next hprior hinv hstep
      exact (BarrierStep.acknowledged_iff hstep.2
        (barrierSystem_tokens hprior.of_restrict) hinv).mpr hstep.1
  refine ⟨?_, ?_⟩
  · intro client next hstep
    cases hstep with
    | leaderStart hleader hclient => exact hack client hclient (by rw [hleader]; trivial)
  · intro action next hstep
    exact hstep.acknowledged_iff (barrierSystem_tokens hreach.of_restrict) hack

end Acknowledged

/-- The leader with one client. -/
def oneClient (leader : Leader) (thread : ClientThread) : Barrier :=
  Barrier.put ⟨leader, fun _ => .init⟩ leader 0 thread

theorem oneClient_put (leader next : Leader) (thread other : ClientThread) :
    (oneClient leader thread).put next 0 other = oneClient next other := by
  simp only [oneClient, Barrier.put, Function.update_idem]

theorem oneClient_pinged :
    ((barrierSystem 1 1).restrict TakenFirst).Reachable
      (oneClient (.collect 0) (ClientThread.init.push pingMsg)) := by
  have hstart : ((barrierSystem 1 1).restrict TakenFirst).Reachable ⟨.ping 0, fun _ => .init⟩ :=
    .start ⟨rfl, fun _ => rfl⟩
  have hpinged := hstart.step_restrict (BarrierStep.leaderPing rfl Nat.one_pos) nofun
  exact hpinged.step_restrict (BarrierStep.pinged rfl) nofun

/-- A step of the one client. -/
theorem oneClient_client {leader : Leader} {thread next : ClientThread}
    (hreach : ((barrierSystem 1 1).restrict TakenFirst).Reachable (oneClient leader thread))
    (hstep : ClientThreadStep 1 thread next) :
    ((barrierSystem 1 1).restrict TakenFirst).Reachable (oneClient leader next) := by
  have hafter := hreach.step_restrict
    (@BarrierStep.client 1 1 (oneClient leader thread) 0 next Nat.one_pos hstep) nofun
  rwa [oneClient_put] at hafter

/-- With one client and one transaction: the client sends the PING and its
callback runs before the leader pops. -/
theorem started_after_ping_one :
    ∃ state next, ((barrierSystem 1 1).restrict TakenFirst).Reachable state ∧
      BarrierStep 1 1 state (.leaderStart 0) next ∧ 0 < (state.clients 0).acked := by
  have hsize := oneClient_client oneClient_pinged (.size rfl)
  have hpop := oneClient_client hsize (.pop rfl rfl)
  have hpopped := oneClient_client hpop (.popped rfl)
  have hcallback := oneClient_client hpopped
    (@ClientThreadStep.callback 1 _ pingMsg 0 true rfl rfl)
  have hcollect := hcallback.step_restrict
    (@BarrierStep.leaderCollect 1 1 _ 0 pingMsg [] rfl Nat.one_pos rfl) (by
      intro client heq
      obtain rfl := BarrierAction.leaderCollect.inj heq
      exact Nat.one_pos)
  have hcollected := hcollect.step_restrict (BarrierStep.collected rfl) nofun
  refine ⟨_, _, hcollected, @BarrierStep.leaderStart 1 1 _ 0 0 rfl Nat.one_pos, ?_⟩
  exact (started_after_ping hcollected).1 0 _ (@BarrierStep.leaderStart 1 1 _ 0 0 rfl Nat.one_pos)

/-- With one client and one transaction: the leader pops the message that it has
just pushed and starts the client, whose `callback_ping` has not run. -/
theorem started_before_ping :
    ∃ state next, (barrierSystem 1 1).Reachable state ∧
      BarrierStep 1 1 state (.leaderStart 0) next ∧ (state.clients 0).acked = 0 := by
  have hcollect := oneClient_pinged.of_restrict.step
    (@BarrierStep.leaderCollect 1 1 _ 0 pingMsg [] rfl Nat.one_pos rfl)
  have hcollected := hcollect.step (BarrierStep.collected rfl)
  exact ⟨_, _, hcollected, @BarrierStep.leaderStart 1 1 _ 0 0 rfl Nat.one_pos, rfl⟩

end BenchBF3.SmallBank
