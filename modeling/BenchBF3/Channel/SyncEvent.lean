import Mathlib.Data.BitVec
import BenchBF3.Foundation.System

/-! # Sync event ping-pong

`handle_sync_sender` and `handle_sync_receiver` publish a counter each and poll
the counter of the other side for an exact value. A round publishes four values,
by two add jobs and two set jobs, one of each kind asynchronous. The two programs
differ only in the test after reading the counters, so both are one `Publisher`
with a test of its own. They take turns: as long as one publishes, the other
counter stays on the value that let it start.
-/

namespace BenchBF3.Channel

open Foundation

/-! ## The two programs -/

/-- Where a side is: what it does next, or the asynchronous job that is under way. -/
inductive PublisherPc
  | getPub
  | getSub
  | test
  | addAsync
  | addPending
  | addApplied
  | addSync
  | setSync
  | setAsync
  | setPending
  | setApplied
  | exited
  deriving DecidableEq, Repr

/-- The variables of one side; what its jobs have fetched and the value of its
set job among them. -/
structure Publisher where
  pc : PublisherPc
  waitIndex : BitVec 64
  pubFetched : BitVec 64
  subFetched : BitVec 64
  addFetched : BitVec 64
  setValue : BitVec 64
  deriving DecidableEq, Repr

def Publisher.init : Publisher where
  pc := .getPub
  waitIndex := 0
  pubFetched := 0
  subFetched := 0
  addFetched := 0
  setValue := 0

/-- One step of a side, with its own counter `pub` and the counter `sub` of the
other side. An asynchronous job takes effect between its submission and the poll
that finds it completed. -/
def Publisher.advance (side : Publisher) (test : Publisher → PublisherPc) (pub sub : BitVec 64) :
    Publisher × BitVec 64 :=
  match side.pc with
  | .getPub => ({ side with pc := .getSub, pubFetched := pub }, pub)
  | .getSub => ({ side with pc := .test, subFetched := sub }, pub)
  | .test => ({ side with pc := test side }, pub)
  | .addAsync => ({ side with pc := .addPending }, pub)
  | .addPending => ({ side with pc := .addApplied, addFetched := pub }, pub + 1)
  | .addApplied => ({ side with pc := .addSync }, pub)
  | .addSync => ({ side with pc := .setSync, addFetched := pub }, pub + 1)
  | .setSync =>
      ({ side with pc := .setAsync, setValue := side.waitIndex + 3 }, side.waitIndex + 3)
  | .setAsync => ({ side with pc := .setPending, setValue := side.waitIndex + 4 }, pub)
  | .setPending => ({ side with pc := .setApplied }, side.setValue)
  | .setApplied => ({ side with pc := .getPub, waitIndex := side.waitIndex + 4 }, pub)
  | .exited => (side, pub)

/-- The sender waits for the receiver to reach its `wait_index`, and only then
looks whether that is the last round. -/
def senderTest (limit : BitVec 64) (side : Publisher) : PublisherPc :=
  if side.subFetched = side.waitIndex then
    if side.waitIndex = limit then .exited else .addAsync
  else .getPub

/-- The receiver looks for the last round first. -/
def receiverTest (limit : BitVec 64) (side : Publisher) : PublisherPc :=
  if side.waitIndex = limit then .exited
  else if side.subFetched = side.waitIndex + 4 then .addAsync
  else .getPub

def handleSyncSender (limit : BitVec 64) (side : Publisher) (pub sub : BitVec 64) :
    Publisher × BitVec 64 :=
  side.advance (senderTest limit) pub sub

def handleSyncReceiver (limit : BitVec 64) (side : Publisher) (pub sub : BitVec 64) :
    Publisher × BitVec 64 :=
  side.advance (receiverTest limit) pub sub

/-! ## Both sides -/

/-- The two sides and the counters they publish. -/
structure PingPong where
  sender : Publisher
  receiver : Publisher
  senderCount : BitVec 64
  receiverCount : BitVec 64

def PingPong.init : PingPong where
  sender := .init
  receiver := .init
  senderCount := 0
  receiverCount := 0

inductive PingPongAction
  | sender
  | receiver
  | again

/-- A poll before the completion is there changes nothing. -/
def PublisherPc.polls : PublisherPc → Bool
  | .addPending | .addApplied | .setPending | .setApplied => true
  | _ => false

inductive PingPongStep (limit : BitVec 64) : PingPong → PingPongAction → PingPong → Prop
  | sender {state : PingPong} (hrunning : state.sender.pc ≠ .exited) :
      PingPongStep limit state .sender
        { state with
          sender := (handleSyncSender limit state.sender state.senderCount
            state.receiverCount).1
          senderCount := (handleSyncSender limit state.sender state.senderCount
            state.receiverCount).2 }
  | receiver {state : PingPong} (hrunning : state.receiver.pc ≠ .exited) :
      PingPongStep limit state .receiver
        { state with
          receiver := (handleSyncReceiver limit state.receiver state.receiverCount
            state.senderCount).1
          receiverCount := (handleSyncReceiver limit state.receiver state.receiverCount
            state.senderCount).2 }
  | again {state : PingPong}
      (hpolls : state.sender.pc.polls = true ∨ state.receiver.pc.polls = true) :
      PingPongStep limit state .again state

/-- Runs with a round limit in place of the constant of the source. -/
def pingPongSystem (limit : BitVec 64) : System PingPong PingPongAction where
  start state := state = PingPong.init
  step := PingPongStep limit

def PingPong.Exited (state : PingPong) : Prop :=
  state.sender.pc = .exited ∧ state.receiver.pc = .exited

/-! ## One side -/

/-- How far a side has published beyond its `wait_index`. -/
def PublisherPc.offset : PublisherPc → Nat
  | .addApplied | .addSync => 1
  | .setSync => 2
  | .setAsync | .setPending => 3
  | .setApplied => 4
  | _ => 0

/-- In a round whose last value is not out yet. -/
def PublisherPc.publishes : PublisherPc → Bool
  | .addAsync | .addPending | .addApplied | .addSync | .setSync | .setAsync | .setPending => true
  | _ => false

/-- In the loop that waits for the other side. -/
def PublisherPc.waits : PublisherPc → Bool
  | .getPub | .getSub | .test => true
  | _ => false

/-- A side's counter against its own variables. -/
structure Publisher.Ok (limit : BitVec 64) (side : Publisher) (pub : BitVec 64) : Prop where
  pub_eq : pub.toNat = side.waitIndex.toNat + side.pc.offset
  dvd : 4 ∣ side.waitIndex.toNat
  le : side.waitIndex.toNat ≤ limit.toNat
  room : side.pc.publishes = true ∨ side.pc = .setApplied →
    side.waitIndex.toNat + 4 ≤ limit.toNat
  setValue : side.pc = .setPending → side.setValue = side.waitIndex + 4

/-- What the test of a side may answer, and when it lets a round start. -/
structure Publisher.Tests (limit : BitVec 64) (side : Publisher)
    (test : Publisher → PublisherPc) : Prop where
  answer : test side = .getPub ∨ test side = .exited ∨ test side = .addAsync
  start : test side = .addAsync → side.waitIndex ≠ limit

theorem senderTest_cases (limit : BitVec 64) (side : Publisher) :
    (senderTest limit side = .getPub ∧ side.subFetched ≠ side.waitIndex) ∨
      side.subFetched = side.waitIndex ∧
        ((senderTest limit side = .exited ∧ side.waitIndex = limit) ∨
          senderTest limit side = .addAsync ∧ side.waitIndex ≠ limit) := by
  unfold senderTest
  split_ifs <;> simp_all

theorem receiverTest_cases (limit : BitVec 64) (side : Publisher) :
    (receiverTest limit side = .exited ∧ side.waitIndex = limit) ∨
      side.waitIndex ≠ limit ∧
        ((receiverTest limit side = .addAsync ∧ side.subFetched = side.waitIndex + 4) ∨
          receiverTest limit side = .getPub ∧ side.subFetched ≠ side.waitIndex + 4) := by
  unfold receiverTest
  split_ifs <;> simp_all

theorem senderTest_tests (limit : BitVec 64) (side : Publisher) :
    side.Tests limit (senderTest limit) := by
  rcases senderTest_cases limit side with ⟨hagain, -⟩ | ⟨-, ⟨hexit, -⟩ | ⟨hstart, hbefore⟩⟩
  · exact ⟨.inl hagain, by simp [hagain]⟩
  · exact ⟨.inr (.inl hexit), by simp [hexit]⟩
  · exact ⟨.inr (.inr hstart), fun _ => hbefore⟩

theorem receiverTest_tests (limit : BitVec 64) (side : Publisher) :
    side.Tests limit (receiverTest limit) := by
  rcases receiverTest_cases limit side with ⟨hexit, -⟩ | ⟨hbefore, ⟨hstart, -⟩ | ⟨hagain, -⟩⟩
  · exact ⟨.inr (.inl hexit), by simp [hexit]⟩
  · exact ⟨.inr (.inr hstart), fun _ => hbefore⟩
  · exact ⟨.inl hagain, by simp [hagain]⟩

section Answers

variable {limit : BitVec 64} {side : Publisher}

/-- The sender starts a round on the value it waited for. -/
theorem fetched_of_senderTest (hstart : senderTest limit side = .addAsync) :
    side.subFetched = side.waitIndex := by
  rcases senderTest_cases limit side with ⟨hagain, -⟩ | ⟨heq, -⟩
  · rw [hagain] at hstart
    cases hstart
  · exact heq

theorem last_of_senderTest (hexit : senderTest limit side = .exited) :
    side.subFetched = side.waitIndex ∧ side.waitIndex = limit := by
  rcases senderTest_cases limit side with ⟨hagain, -⟩ | ⟨heq, ⟨-, hlast⟩ | ⟨hstart, -⟩⟩
  · rw [hagain] at hexit
    cases hexit
  · exact ⟨heq, hlast⟩
  · rw [hstart] at hexit
    cases hexit

/-- The receiver starts a round when the sender is a whole one ahead. -/
theorem fetched_of_receiverTest (hstart : receiverTest limit side = .addAsync) :
    side.waitIndex ≠ limit ∧ side.subFetched = side.waitIndex + 4 := by
  rcases receiverTest_cases limit side with ⟨hexit, -⟩ | ⟨hne, ⟨-, heq⟩ | ⟨hagain, -⟩⟩
  · rw [hexit] at hstart
    cases hstart
  · exact ⟨hne, heq⟩
  · rw [hagain] at hstart
    cases hstart

theorem last_of_receiverTest (hexit : receiverTest limit side = .exited) :
    side.waitIndex = limit := by
  rcases receiverTest_cases limit side with ⟨-, hlast⟩ | ⟨-, ⟨hstart, -⟩ | ⟨hagain, -⟩⟩
  · exact hlast
  · rw [hstart] at hexit
    cases hexit
  · rw [hagain] at hexit
    cases hexit

end Answers

section Advance

variable {limit pub sub : BitVec 64} {side : Publisher} {test : Publisher → PublisherPc}

/-- Adding does not wrap below the limit. -/
theorem toNat_add_of_le {value : BitVec 64} {amount : Nat}
    (hle : value.toNat + amount ≤ limit.toNat) :
    (value + BitVec.ofNat 64 amount).toNat = value.toNat + amount := by
  have hlimit := limit.isLt
  rw [BitVec.toNat_add, BitVec.toNat_ofNat, Nat.mod_eq_of_lt (show amount < 2 ^ 64 by omega)]
  exact Nat.mod_eq_of_lt (by omega)

/-- A round starts only where a whole one fits below the limit. -/
theorem Publisher.Ok.room_of_ne (hok : side.Ok limit pub) (hlimit : 4 ∣ limit.toNat)
    (hne : side.waitIndex ≠ limit) : side.waitIndex.toNat + 4 ≤ limit.toNat := by
  -- Both are multiples of four, so a whole round is left below the limit.
  have hlt : side.waitIndex.toNat ≠ limit.toNat := fun heq => hne (BitVec.eq_of_toNat_eq heq)
  have hle := hok.le
  have hdvd := hok.dvd
  omega

/-- Moving on inside the loop body without publishing. -/
theorem Publisher.Ok.move (hok : side.Ok limit pub) {next : Publisher}
    (hwait : next.waitIndex = side.waitIndex) (hoffset : next.pc.offset = side.pc.offset)
    (hroom : next.pc.publishes = true ∨ next.pc = .setApplied →
      side.waitIndex.toNat + 4 ≤ limit.toNat)
    (hset : next.pc = .setPending → next.setValue = side.waitIndex + 4) : next.Ok limit pub := by
  refine ⟨?_, ?_, ?_, ?_, ?_⟩
  · rw [hwait, hoffset]
    exact hok.pub_eq
  · rw [hwait]
    exact hok.dvd
  · rw [hwait]
    exact hok.le
  · rw [hwait]
    exact hroom
  · rw [hwait]
    exact hset

/-- Publishing the next value of a round. -/
theorem Publisher.Ok.publish (hok : side.Ok limit pub) {next : Publisher} {pub' : BitVec 64}
    (hroom : side.waitIndex.toNat + 4 ≤ limit.toNat)
    (hwait : next.waitIndex = side.waitIndex)
    (hpub : pub'.toNat = side.waitIndex.toNat + next.pc.offset)
    (hset : next.pc ≠ .setPending) : next.Ok limit pub' := by
  refine ⟨?_, ?_, ?_, ?_, fun hpc => (hset hpc).elim⟩
  · rw [hwait]
    exact hpub
  · rw [hwait]
    exact hok.dvd
  · rw [hwait]
    exact hok.le
  · rw [hwait]
    exact fun _ => hroom

theorem Publisher.Ok.advance (hok : side.Ok limit pub) (hlimit : 4 ∣ limit.toNat)
    (htests : side.Tests limit test) (sub : BitVec 64) :
    (side.advance test pub sub).1.Ok limit (side.advance test pub sub).2 := by
  have hpub := hok.pub_eq
  have hroom := hok.room
  unfold Publisher.advance
  cases hpc : side.pc with
  | getPub | getSub =>
      exact hok.move rfl (by simp [hpc, PublisherPc.offset]) (by simp [PublisherPc.publishes]) nofun
  | test =>
      rcases htests.answer with hanswer | hanswer | hanswer
      · exact hok.move rfl (by simp [hpc, hanswer, PublisherPc.offset])
          (by simp [hanswer, PublisherPc.publishes]) (by simp [hanswer])
      · exact hok.move rfl (by simp [hpc, hanswer, PublisherPc.offset])
          (by simp [hanswer, PublisherPc.publishes]) (by simp [hanswer])
      · exact hok.move rfl (by simp [hpc, hanswer, PublisherPc.offset])
          (fun _ => hok.room_of_ne hlimit (htests.start hanswer)) (by simp [hanswer])
  | addAsync | addApplied =>
      rw [hpc] at hroom
      exact hok.move rfl (by simp [hpc, PublisherPc.offset]) (fun _ => hroom (.inl rfl)) nofun
  | addPending | addSync =>
      rw [hpc] at hroom hpub
      have hfits := hroom (.inl rfl)
      simp only [PublisherPc.offset] at hpub
      refine hok.publish hfits rfl ?_ nofun
      exact (toNat_add_of_le (show pub.toNat + 1 ≤ limit.toNat by omega)).trans
        (congrArg (· + 1) hpub)
  | setSync =>
      rw [hpc] at hroom
      have hfits := hroom (.inl rfl)
      exact hok.publish hfits rfl
        (toNat_add_of_le (show side.waitIndex.toNat + 3 ≤ limit.toNat by omega)) nofun
  | setAsync =>
      rw [hpc] at hroom
      exact hok.move rfl (by simp [hpc, PublisherPc.offset]) (fun _ => hroom (.inl rfl))
        fun _ => rfl
  | setPending =>
      rw [hpc] at hroom
      refine hok.publish (hroom (.inl rfl)) rfl ?_ nofun
      -- The job sets the value it was submitted with.
      rw [hok.setValue hpc]
      exact toNat_add_of_le (hroom (.inl rfl))
  | setApplied =>
      rw [hpc] at hroom hpub
      have hnext : (side.waitIndex + 4).toNat = side.waitIndex.toNat + 4 :=
        toNat_add_of_le (hroom (.inr rfl))
      refine ⟨?_, ?_, ?_, by simp [PublisherPc.publishes], nofun⟩ <;> dsimp only <;> rw [hnext]
      · exact hpub
      · exact Nat.dvd_add hok.dvd ⟨1, rfl⟩
      · exact hroom (.inr rfl)
  | exited => exact hok

/-- A side publishes only inside a round, and one value at a time. -/
theorem Publisher.Ok.advance_count (hok : side.Ok limit pub) (test : Publisher → PublisherPc)
    (sub : BitVec 64) :
    (side.advance test pub sub).2 = pub ∨
      side.pc.publishes = true ∧ (side.advance test pub sub).2.toNat = pub.toNat + 1 := by
  have hpub := hok.pub_eq
  have hroom := hok.room
  unfold Publisher.advance
  cases hpc : side.pc with
  | addPending | addSync =>
      rw [hpc] at hroom hpub
      have hfits := hroom (.inl rfl)
      simp only [PublisherPc.offset] at hpub
      exact .inr ⟨rfl, toNat_add_of_le (show pub.toNat + 1 ≤ limit.toNat by omega)⟩
  | setSync =>
      rw [hpc] at hroom hpub
      have hfits := hroom (.inl rfl)
      rw [hpub]
      exact .inr ⟨rfl, toNat_add_of_le (show side.waitIndex.toNat + 3 ≤ limit.toNat by omega)⟩
  | setPending =>
      rw [hpc] at hroom hpub
      rw [hpub]
      refine .inr ⟨rfl, ?_⟩
      rw [hok.setValue hpc]
      exact toNat_add_of_le (hroom (.inl rfl))
  | _ => exact .inl rfl

theorem Publisher.Ok.le_advance_count (hok : side.Ok limit pub)
    (test : Publisher → PublisherPc) (sub : BitVec 64) :
    pub.toNat ≤ (side.advance test pub sub).2.toNat := by
  rcases hok.advance_count test sub with hsame | ⟨-, hnext⟩
  · rw [hsame]
  · omega

/-- A round is started by the test, and the test uses what was fetched last. -/
theorem Publisher.Tests.advance_pc (htests : side.Tests limit test) (pub sub : BitVec 64) :
    ((side.advance test pub sub).1.pc.publishes = true →
      (side.advance test pub sub).1.waitIndex = side.waitIndex ∧
        (side.pc.publishes = true ∨ side.pc = .test ∧ test side = .addAsync)) ∧
    ((side.advance test pub sub).1.pc = .test → (side.advance test pub sub).1.subFetched = sub) ∧
    ((side.advance test pub sub).1.pc = .exited →
      (side.advance test pub sub).1.waitIndex = side.waitIndex ∧
        (side.pc = .exited ∨ side.pc = .test ∧ test side = .exited)) := by
  unfold Publisher.advance
  cases hpc : side.pc with
  | test =>
      rcases htests.answer with hanswer | hanswer | hanswer <;>
        simp [hanswer, PublisherPc.publishes]
  | _ => simp [PublisherPc.publishes, hpc]

end Advance

/-! ## Taking turns -/

/-- Each side is in a round only while the other counter is where that round
needs it. What a side has fetched may be old, but never ahead of the counter. -/
structure PingPong.Turns (limit : BitVec 64) (state : PingPong) : Prop where
  sender : state.sender.Ok limit state.senderCount
  receiver : state.receiver.Ok limit state.receiverCount
  behind : state.receiverCount.toNat ≤ state.senderCount.toNat
  ahead : state.senderCount.toNat ≤ state.receiverCount.toNat + 4
  senderTurn : state.sender.pc.publishes = true →
    state.receiverCount.toNat = state.sender.waitIndex.toNat
  receiverTurn : state.receiver.pc.publishes = true →
    state.senderCount.toNat = state.receiver.waitIndex.toNat + 4
  senderFetched : state.sender.pc = .test →
    state.sender.subFetched.toNat ≤ state.receiverCount.toNat
  receiverFetched : state.receiver.pc = .test →
    state.receiver.subFetched.toNat ≤ state.senderCount.toNat
  senderExited : state.sender.pc = .exited →
    state.sender.waitIndex = limit ∧ state.receiverCount = limit
  receiverExited : state.receiver.pc = .exited → state.receiver.waitIndex = limit

theorem PublisherPc.offset_lt_of_publishes {pc : PublisherPc} (hpublishes : pc.publishes = true) :
    pc.offset < 4 := by
  cases pc <;> simp_all [publishes, offset]

section Turns

variable {limit : BitVec 64} {state next : PingPong} {action : PingPongAction}

/-- The two sides are never in a round together. -/
theorem PingPong.Turns.not_both (hturns : state.Turns limit)
    (hsender : state.sender.pc.publishes = true) : state.receiver.pc.publishes = false := by
  by_contra hnot
  have hreceiver := Bool.eq_true_of_not_eq_false hnot
  have hsenderCount := hturns.sender.pub_eq
  have hreceiverCount := hturns.receiver.pub_eq
  have hsenderOffset := PublisherPc.offset_lt_of_publishes hsender
  have hreceiverOffset := PublisherPc.offset_lt_of_publishes hreceiver
  have hsenderTurn := hturns.senderTurn hsender
  have hreceiverTurn := hturns.receiverTurn hreceiver
  -- The two rounds would start on values that are not a multiple of four apart.
  have hsenderDvd := hturns.sender.dvd
  have hreceiverDvd := hturns.receiver.dvd
  omega

theorem Publisher.init_ok (limit : BitVec 64) : init.Ok limit 0 where
  pub_eq := rfl
  dvd := ⟨0, rfl⟩
  le := Nat.zero_le _
  room hround := by simp [init, PublisherPc.publishes] at hround
  setValue := nofun

theorem PingPong.init_turns (limit : BitVec 64) : init.Turns limit where
  sender := Publisher.init_ok limit
  receiver := Publisher.init_ok limit
  behind := le_rfl
  ahead := Nat.zero_le _
  senderTurn := nofun
  receiverTurn := nofun
  senderFetched := nofun
  receiverFetched := nofun
  senderExited := nofun
  receiverExited := nofun

/-- The sender's test can succeed only on the current value of the counter. -/
theorem PingPong.Turns.sender_current (hturns : state.Turns limit)
    (hpc : state.sender.pc = .test) (heq : state.sender.subFetched = state.sender.waitIndex) :
    state.receiverCount = state.sender.waitIndex := by
  have hfetched := hturns.senderFetched hpc
  have hcount := hturns.sender.pub_eq
  have hbehind := hturns.behind
  rw [hpc] at hcount
  rw [heq] at hfetched
  simp only [PublisherPc.offset] at hcount
  apply BitVec.eq_of_toNat_eq
  omega

theorem PingPong.Turns.receiver_current (hturns : state.Turns limit) (hlimit : 4 ∣ limit.toNat)
    (hpc : state.receiver.pc = .test) (hne : state.receiver.waitIndex ≠ limit)
    (heq : state.receiver.subFetched = state.receiver.waitIndex + 4) :
    state.senderCount.toNat = state.receiver.waitIndex.toNat + 4 := by
  have hfetched := hturns.receiverFetched hpc
  have hcount := hturns.receiver.pub_eq
  have hahead := hturns.ahead
  have hnext : (state.receiver.waitIndex + 4).toNat = state.receiver.waitIndex.toNat + 4 :=
    toNat_add_of_le (hturns.receiver.room_of_ne hlimit hne)
  rw [hpc] at hcount
  rw [heq, hnext] at hfetched
  simp only [PublisherPc.offset] at hcount
  omega

theorem PingPong.Turns.senderStep (hturns : state.Turns limit) (hlimit : 4 ∣ limit.toNat)
    (hrunning : state.sender.pc ≠ .exited) :
    PingPong.Turns limit
      { state with
        sender := (handleSyncSender limit state.sender state.senderCount state.receiverCount).1
        senderCount :=
          (handleSyncSender limit state.sender state.senderCount state.receiverCount).2 } := by
  have htests := senderTest_tests limit state.sender
  obtain ⟨hpublishes, hfetched, hexited⟩ :=
    htests.advance_pc state.senderCount state.receiverCount
  have hok := hturns.sender.advance hlimit htests state.receiverCount
  have hcount := hturns.sender.advance_count (senderTest limit) state.receiverCount
  have hmono := hturns.sender.le_advance_count (senderTest limit) state.receiverCount
  unfold handleSyncSender
  have hbehind := hturns.behind
  have hahead := hturns.ahead
  refine ⟨hok, hturns.receiver, ?_, ?_, ?_, ?_, ?_, ?_, ?_, hturns.receiverExited⟩ <;> dsimp only
  · exact hbehind.trans hmono
  · rcases hcount with hsame | ⟨hround, hnext⟩
    · rwa [hsame]
    · have hturn := hturns.senderTurn hround
      have hpub := hturns.sender.pub_eq
      have hoffset := PublisherPc.offset_lt_of_publishes hround
      omega
  · intro hround
    obtain ⟨hwait, hstill | ⟨hpc, hstart⟩⟩ := hpublishes hround
    · rw [hwait]
      exact hturns.senderTurn hstill
    -- The round has just been started, on a value that is still the current one.
    · rw [hwait, hturns.sender_current hpc (fetched_of_senderTest hstart)]
  · intro hround
    rcases hcount with hsame | ⟨hsending, -⟩
    · rw [hsame]
      exact hturns.receiverTurn hround
    · rw [hturns.not_both hsending] at hround
      cases hround
  · intro hpc
    rw [hfetched hpc]
  · intro hpc
    exact (hturns.receiverFetched hpc).trans hmono
  · intro hpc
    obtain ⟨hwait, hstill | ⟨hpc, hexit⟩⟩ := hexited hpc
    · exact (hrunning hstill).elim
    · obtain ⟨heq, hlast⟩ := last_of_senderTest hexit
      rw [hwait, hlast]
      exact ⟨rfl, (hturns.sender_current hpc heq).trans hlast⟩

theorem PingPong.Turns.receiverStep (hturns : state.Turns limit) (hlimit : 4 ∣ limit.toNat)
    (hrunning : state.receiver.pc ≠ .exited) :
    PingPong.Turns limit
      { state with
        receiver :=
          (handleSyncReceiver limit state.receiver state.receiverCount state.senderCount).1
        receiverCount :=
          (handleSyncReceiver limit state.receiver state.receiverCount state.senderCount).2 } := by
  have htests := receiverTest_tests limit state.receiver
  obtain ⟨hpublishes, hfetched, hexited⟩ :=
    htests.advance_pc state.receiverCount state.senderCount
  have hok := hturns.receiver.advance hlimit htests state.senderCount
  have hcount := hturns.receiver.advance_count (receiverTest limit) state.senderCount
  have hmono := hturns.receiver.le_advance_count (receiverTest limit) state.senderCount
  unfold handleSyncReceiver
  have hbehind := hturns.behind
  have hahead := hturns.ahead
  refine ⟨hturns.sender, hok, ?_, ?_, ?_, ?_, ?_, ?_, ?_, ?_⟩ <;> dsimp only
  · rcases hcount with hsame | ⟨hround, hnext⟩
    · rwa [hsame]
    · have hturn := hturns.receiverTurn hround
      have hpub := hturns.receiver.pub_eq
      have hoffset := PublisherPc.offset_lt_of_publishes hround
      omega
  · exact hahead.trans (Nat.add_le_add_right hmono 4)
  · intro hsending
    rcases hcount with hsame | ⟨hround, -⟩
    · rw [hsame]
      exact hturns.senderTurn hsending
    · rw [hturns.not_both hsending] at hround
      cases hround
  · intro hround
    obtain ⟨hwait, hstill | ⟨hpc, hstart⟩⟩ := hpublishes hround
    · rw [hwait]
      exact hturns.receiverTurn hstill
    · obtain ⟨hne, heq⟩ := fetched_of_receiverTest hstart
      rw [hwait]
      exact hturns.receiver_current hlimit hpc hne heq
  · intro hpc
    exact (hturns.senderFetched hpc).trans hmono
  · intro hpc
    rw [hfetched hpc]
  · intro hpc
    obtain ⟨hlast, hdone⟩ := hturns.senderExited hpc
    rcases hcount with hsame | ⟨hround, -⟩
    · rw [hsame]
      exact ⟨hlast, hdone⟩
    · -- A receiver in a round is below the limit, so the sender is still running.
      have hroom := hturns.receiver.room (.inl hround)
      have hpub := hturns.receiver.pub_eq
      have hoffset := PublisherPc.offset_lt_of_publishes hround
      rw [hdone] at hpub
      omega
  · intro hpc
    obtain ⟨hwait, hstill | ⟨-, hexit⟩⟩ := hexited hpc
    · exact (hrunning hstill).elim
    · rw [hwait, last_of_receiverTest hexit]

theorem PingPongStep.turns (hstep : PingPongStep limit state action next)
    (hlimit : 4 ∣ limit.toNat) (hturns : state.Turns limit) : next.Turns limit := by
  cases hstep with
  | sender hrunning => exact hturns.senderStep hlimit hrunning
  | receiver hrunning => exact hturns.receiverStep hlimit hrunning
  | again _ => exact hturns

theorem pingPongSystem_turns (hlimit : 4 ∣ limit.toNat)
    (hreach : (pingPongSystem limit).Reachable state) : state.Turns limit := by
  apply hreach.invariant
  · intro state hstart
    rw [hstart]
    exact PingPong.init_turns limit
  · intro state action next _ hturns hstep
    exact PingPongStep.turns hstep hlimit hturns

end Turns

/-! ## Progress -/

/-- Steps that a side still has to make in its round, from the loop head on. -/
def PublisherPc.rank : PublisherPc → Nat
  | .getPub => 11
  | .getSub => 10
  | .test => 9
  | .addAsync => 8
  | .addPending => 7
  | .addApplied => 6
  | .addSync => 5
  | .setSync => 4
  | .setAsync => 3
  | .setPending => 2
  | .setApplied => 1
  | .exited => 0

/-- Steps of a side up to its exit, if its tests succeed from now on; a test that
is about to fail sends it through the loop head once more. -/
def Publisher.remaining (limit : BitVec 64) (test : Publisher → PublisherPc)
    (side : Publisher) : Nat :=
  12 * ((limit.toNat - side.waitIndex.toNat) / 4) + side.pc.rank +
    if side.pc = .test ∧ test side = .getPub then 3 else 0

theorem Publisher.Ok.remaining_advance {limit pub sub : BitVec 64} {side : Publisher}
    {test : Publisher → PublisherPc} (hok : side.Ok limit pub) (htests : side.Tests limit test)
    (hrunning : side.pc ≠ .exited)
    (hfresh : side.pc = .getSub → test { side with pc := .test, subFetched := sub } ≠ .getPub) :
    (side.advance test pub sub).1.remaining limit test < side.remaining limit test := by
  unfold Publisher.remaining Publisher.advance
  cases hpc : side.pc with
  | getSub => simp [hfresh hpc, PublisherPc.rank]
  | test =>
      rcases htests.answer with hanswer | hanswer | hanswer <;>
        simp [hanswer, PublisherPc.rank]
  | setApplied =>
      have hroom := hok.room (.inr hpc)
      have hnext : (side.waitIndex + 4).toNat = side.waitIndex.toNat + 4 := toNat_add_of_le hroom
      have hdiv : (limit.toNat - side.waitIndex.toNat) / 4 =
          (limit.toNat - (side.waitIndex.toNat + 4)) / 4 + 1 := by omega
      simp only [hnext, hdiv, PublisherPc.rank, reduceCtorEq, false_and, if_false]
      omega
  | exited => exact (hrunning hpc).elim
  | _ => simp [PublisherPc.rank]

/-- The sender is in a round, or the value that it waits for is there. -/
def PingPong.SenderFree (state : PingPong) : Prop :=
  state.sender.pc ≠ .exited ∧
    (state.sender.pc.waits = true → state.receiverCount = state.sender.waitIndex)

/-- The receiver is in a round or done, or the value that it waits for is there. -/
def PingPong.ReceiverFree (limit : BitVec 64) (state : PingPong) : Prop :=
  state.receiver.pc ≠ .exited ∧
    (state.receiver.pc.waits = true →
      state.receiver.waitIndex = limit ∨ state.senderCount = state.receiver.waitIndex + 4)

theorem PublisherPc.offset_of_waits {pc : PublisherPc} (hwaits : pc.waits = true) :
    pc.offset = 0 := by
  cases pc <;> simp_all [waits, offset]

section Progress

variable {limit : BitVec 64} {state : PingPong}

theorem PingPong.Turns.free (hturns : state.Turns limit) (hrunning : ¬ state.Exited) :
    state.SenderFree ∨ state.ReceiverFree limit := by
  have hsender := hturns.sender.pub_eq
  have hreceiver := hturns.receiver.pub_eq
  by_cases hexited : state.sender.pc = .exited
  · obtain ⟨-, hdone⟩ := hturns.senderExited hexited
    refine .inr ⟨fun hboth => hrunning ⟨hexited, hboth⟩, fun hwaits => .inl ?_⟩
    rw [PublisherPc.offset_of_waits hwaits, hdone, Nat.add_zero] at hreceiver
    exact (BitVec.eq_of_toNat_eq hreceiver).symm
  · by_cases hfree : state.SenderFree
    · exact .inl hfree
    · -- The sender waits for a value that the receiver has still to publish.
      simp only [PingPong.SenderFree, hexited, not_false_eq_true, ne_eq, true_and,
        Classical.not_imp] at hfree
      obtain ⟨hwaits, hne⟩ := hfree
      have hnat : state.receiverCount.toNat ≠ state.sender.waitIndex.toNat :=
        fun heq => hne (BitVec.eq_of_toNat_eq heq)
      have hbehind := hturns.behind
      have hahead := hturns.ahead
      have hle := hturns.sender.le
      rw [PublisherPc.offset_of_waits hwaits] at hsender
      refine .inr ⟨?_, fun hwaits' => .inr ?_⟩
      · intro hdone
        rw [hturns.receiverExited hdone, hdone] at hreceiver
        simp only [PublisherPc.offset] at hreceiver
        omega
      · rw [PublisherPc.offset_of_waits hwaits'] at hreceiver
        have hsenderDvd := hturns.sender.dvd
        have hreceiverDvd := hturns.receiver.dvd
        have hgap : state.senderCount.toNat = state.receiver.waitIndex.toNat + 4 := by omega
        apply BitVec.eq_of_toNat_eq
        rw [hgap]
        exact (toNat_add_of_le hgap.ge).symm

/-- From every state of a run in which a side is still running, some step brings
the exit nearer. -/
theorem PingPong.Turns.exists_step (hturns : state.Turns limit) (hrunning : ¬ state.Exited) :
    ∃ action next, PingPongStep limit state action next ∧
      next.sender.remaining limit (senderTest limit) +
          next.receiver.remaining limit (receiverTest limit) <
        state.sender.remaining limit (senderTest limit) +
          state.receiver.remaining limit (receiverTest limit) := by
  rcases hturns.free hrunning with ⟨hpc, hvalue⟩ | ⟨hpc, hvalue⟩
  · refine ⟨.sender, _, .sender hpc, Nat.add_lt_add_right ?_ _⟩
    apply hturns.sender.remaining_advance (senderTest_tests limit _) hpc
    intro hget
    have hready := hvalue (by rw [hget]; rfl)
    rcases senderTest_cases limit { state.sender with
      pc := .test, subFetched := state.receiverCount } with ⟨-, hne⟩ | ⟨-, ⟨hexit, -⟩ | ⟨hstart, -⟩⟩
    · exact (hne hready).elim
    · simp [hexit]
    · simp [hstart]
  · refine ⟨.receiver, _, .receiver hpc, Nat.add_lt_add_left ?_ _⟩
    apply hturns.receiver.remaining_advance (receiverTest_tests limit _) hpc
    intro hget
    have hready := hvalue (by rw [hget]; rfl)
    rcases receiverTest_cases limit { state.receiver with
      pc := .test, subFetched := state.senderCount } with
      ⟨hexit, -⟩ | ⟨hne, ⟨hstart, -⟩ | ⟨-, hnot⟩⟩
    · simp [hexit]
    · simp [hstart]
    · exact (hready.elim hne hnot).elim

/-- From every state of a run both sides can still come to their exit. -/
theorem PingPong.Turns.exists_exited (hlimit : 4 ∣ limit.toNat) (hturns : state.Turns limit) :
    ∃ final, (pingPongSystem limit).Path state final ∧ final.Exited := by
  -- Strong induction on the steps that both sides have left.
  induction hleft : state.sender.remaining limit (senderTest limit) +
    state.receiver.remaining limit (receiverTest limit) using Nat.strong_induction_on
    generalizing state with
  | _ left ih =>
      by_cases hexited : state.Exited
      · exact ⟨state, .refl state, hexited⟩
      · obtain ⟨action, next, hstep, hless⟩ := hturns.exists_step hexited
        obtain ⟨final, hpath, hfinal⟩ :=
          ih _ (hleft ▸ hless) (PingPongStep.turns hstep hlimit hturns) rfl
        exact ⟨final, (System.Path.single hstep).trans hpath, hfinal⟩

end Progress

/-! ## The ping-pong -/

structure PingPong.Paced (limit : BitVec 64) (state : PingPong) : Prop where
  behind : state.receiverCount.toNat ≤ state.senderCount.toNat
  ahead : state.senderCount.toNat ≤ state.receiverCount.toNat + 4
  /-- Counters never fall and never skip a value. -/
  single : ∀ action next, PingPongStep limit state action next →
    (next.senderCount = state.senderCount ∨
      next.senderCount.toNat = state.senderCount.toNat + 1) ∧
    (next.receiverCount = state.receiverCount ∨
      next.receiverCount.toNat = state.receiverCount.toNat + 1)
  /-- The sides never wait for each other. -/
  free : ¬ state.Exited → state.SenderFree ∨ state.ReceiverFree limit
  finishes : ∃ final, (pingPongSystem limit).Path state final ∧ final.Exited
  exited : state.Exited → state.sender.waitIndex = limit ∧ state.receiver.waitIndex = limit ∧
    state.senderCount = limit ∧ state.receiverCount = limit

/-- In every run both counters go up by single steps with the sender at most one
round ahead, some side can always go on, and both sides end on the limit. -/
theorem pingPong_paced {limit : BitVec 64} (hlimit : 4 ∣ limit.toNat) {state : PingPong}
    (hreach : (pingPongSystem limit).Reachable state) : state.Paced limit := by
  have hturns := pingPongSystem_turns hlimit hreach
  refine ⟨hturns.behind, hturns.ahead, ?_, hturns.free, hturns.exists_exited hlimit, ?_⟩
  · intro action next hstep
    cases hstep with
    | sender _ =>
        have hcount := hturns.sender.advance_count (senderTest limit) state.receiverCount
        exact ⟨hcount.imp_right And.right, .inl rfl⟩
    | receiver _ =>
        have hcount := hturns.receiver.advance_count (receiverTest limit) state.senderCount
        exact ⟨.inl rfl, hcount.imp_right And.right⟩
    | again _ => exact ⟨.inl rfl, .inl rfl⟩
  · intro hexited
    obtain ⟨hlast, hdone⟩ := hturns.senderExited hexited.1
    have hcount := hturns.sender.pub_eq
    rw [hexited.1, hlast] at hcount
    exact ⟨hlast, hturns.receiverExited hexited.2, BitVec.eq_of_toNat_eq hcount, hdone⟩

/-- With the limit of the source both sides can come to their exit, with both
counters on it. -/
theorem pingPong_paced_hundredThousand :
    ∃ state, (pingPongSystem 100000).Reachable state ∧ state.Exited ∧
      state.senderCount = 100000 ∧ state.receiverCount = 100000 := by
  have hlimit : 4 ∣ (100000 : BitVec 64).toNat := by decide
  have hstart : (pingPongSystem 100000).Reachable PingPong.init := .start rfl
  obtain ⟨final, hpath, hexited⟩ := (pingPong_paced hlimit hstart).finishes
  have hfinal := hstart.path hpath
  exact ⟨final, hfinal, hexited, ((pingPong_paced hlimit hfinal).exited hexited).2.2⟩

end BenchBF3.Channel
