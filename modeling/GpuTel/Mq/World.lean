import Mathlib.Logic.Function.Basic
import GpuTel.Lib.Fifo
import GpuTel.Lib.Transition
import GpuTel.Mq.Coherence

/-!
# The store with its channels and clean-up goroutines

`World` is an `InMemoryStore` together with the channels it has handed out. Every operation holds
the store's lock, so one operation is one label of the machine `world`; so is a receive by a
subscriber, the cancellation of a subscription's context, and the critical section of the clean-up
goroutine. Labels carry what the environment chooses: generated ids, the clock, and the order in
which a loop over a map visits its keys.
-/

set_option autoImplicit false

namespace GpuTel.Mq

open Fifo Transition

/-- One call of `Subscribe`: its topic and channel, whether its context is done, and whether its
clean-up goroutine has finished. -/
structure Subscription where
  topic : String
  ch : Chan Message 100
  ctxDone : Bool
  cleanedUp : Bool

/-- The channels are numbered in the order in which they are made. -/
structure World where
  mem : InMemoryStore
  subs : Nat → Subscription
  made : Nat

inductive Event where
  | store (msg : Message) (newID : String) (now : Timestamp) (order : List Nat)
  | get (id : String)
  | delete (id : String)
  | subscribe (ctxDone : Bool) (topic : String)
  | receive (c : Nat)
  | cancel (c : Nat)
  | cleanUp (c : Nat)
  | acknowledge (msgID consumerID : String)
  | addSubscriber (subscriber : Subscriber)
  | removeSubscriber (consumerID topic : String)
  | getMessages (topic consumerID : String) (batchSize : Int) (order : List String)
  | close (order : List (String × Nat))
  deriving DecidableEq

namespace World

def blank : Subscription := ⟨"", .make, false, false⟩

def init : World := ⟨.newInMemoryStore, fun _ => blank, 0⟩

def setSub (w : World) (c : Nat) (sub : Subscription) : World :=
  { w with subs := Function.update w.subs c sub }

def setChan (w : World) (c : Nat) (ch : Chan Message 100) : World :=
  w.setSub c { w.subs c with ch := ch }

/-- The loop of `Store` over the channels subscribed to the topic. -/
def notify (msg : Message) : List Nat → World → Except Fault World
  | [], w => .ok w
  | c :: rest, w => do
    let ch ← (w.subs c).ch.trySend msg
    notify msg rest (w.setChan c ch)

def store (w : World) (msg : Message) (newID : String) (now : Timestamp) (order : List Nat) :
    Except Fault World :=
  let msg := stamp msg newID now
  notify msg order { w with mem := w.mem.put msg }

/-- `Subscribe` returns the channel number `w.made`. -/
def subscribe (w : World) (ctxDone : Bool) (topic : String) : World where
  mem := { w.mem with subscribers := w.mem.subscribers.add topic w.made }
  subs := Function.update w.subs w.made ⟨topic, .make, ctxDone, false⟩
  made := w.made + 1

/-- What the goroutine started by `Subscribe` does once its context is done. -/
def cleanUp (w : World) (c : Nat) : Except Fault World :=
  let sub := w.subs c
  if c ∈ w.mem.subscribers.members sub.topic then do
    let ch ← sub.ch.close
    let mem := { w.mem with subscribers := w.mem.subscribers.remove sub.topic c }
    .ok ({ w with mem := mem }.setSub c { sub with ch := ch, cleanedUp := true })
  else .ok (w.setSub c { sub with cleanedUp := true })

/-- The loops of `Close` over the topics and their channels. -/
def closeAll : List (String × Nat) → World → Except Fault World
  | [], w => .ok w
  | (_, c) :: rest, w => do
    let ch ← (w.subs c).ch.close
    closeAll rest (w.setChan c ch)

def close (w : World) (order : List (String × Nat)) : Except Fault World := do
  let w ← closeAll order w
  .ok { w with mem := .newInMemoryStore }

def exec (w : World) : Event → Except Fault World
  | .store msg newID now order => w.store msg newID now order
  | .get _ => .ok w
  | .delete id => .ok { w with mem := w.mem.delete id }
  | .subscribe ctxDone topic => .ok (w.subscribe ctxDone topic)
  | .receive c => .ok (w.setChan c (w.subs c).ch.afterReceive)
  | .cancel c => .ok (w.setSub c { w.subs c with ctxDone := true })
  | .cleanUp c => w.cleanUp c
  | .acknowledge msgID consumerID => .ok { w with mem := (w.mem.acknowledge msgID consumerID).2 }
  | .addSubscriber subscriber => .ok { w with mem := w.mem.addSubscriber subscriber }
  | .removeSubscriber consumerID topic =>
    .ok { w with mem := w.mem.removeSubscriber consumerID topic }
  | .getMessages topic consumerID batchSize order =>
    .ok { w with mem := (w.mem.getMessages topic consumerID batchSize order).2 }
  | .close order => w.close order

/-- A loop may visit its keys in any order; a receive waits until it can proceed; a clean-up waits
for its context and runs once. -/
def guard (w : World) : Event → Prop
  | .store msg _ _ order => Enumerates order (w.mem.subscribers.members msg.topic)
  | .receive c => c < w.made ∧ (w.subs c).ch.Ready
  | .cancel c => c < w.made
  | .cleanUp c => c < w.made ∧ (w.subs c).ctxDone = true ∧ (w.subs c).cleanedUp = false
  | .getMessages topic _ _ order => Enumerates order (w.mem.topics.members topic)
  | .close order => Enumerates order w.mem.subscribers.pairs
  | _ => True

instance (w : World) : (e : Event) → Decidable (w.guard e)
  | .store msg _ _ order =>
    inferInstanceAs (Decidable (Enumerates order (w.mem.subscribers.members msg.topic)))
  | .receive c => inferInstanceAs (Decidable (c < w.made ∧ (w.subs c).ch.Ready))
  | .cancel c => inferInstanceAs (Decidable (c < w.made))
  | .cleanUp c => inferInstanceAs
    (Decidable (c < w.made ∧ (w.subs c).ctxDone = true ∧ (w.subs c).cleanedUp = false))
  | .getMessages topic _ _ order =>
    inferInstanceAs (Decidable (Enumerates order (w.mem.topics.members topic)))
  | .close order => inferInstanceAs (Decidable (Enumerates order w.mem.subscribers.pairs))
  | .get _ | .delete _ | .subscribe _ _ | .acknowledge _ _ | .addSubscriber _
  | .removeSubscriber _ _ => .isTrue trivial

end World

def world : Machine World Event Fault := ⟨World.guard, World.exec⟩

instance (w : World) (e : Event) : Decidable (world.guard w e) :=
  inferInstanceAs (Decidable (w.guard e))

end GpuTel.Mq
