import GpuTel.Mq.Broker
import GpuTel.Mq.Delivery
import Mathlib.Data.List.ReduceOption

/-!
# The invariant of the broker

Each stream has a channel of its own, under its topic and its context. What its handler has taken
from the channel, followed by what is still buffered, is what the store accepted for that channel.
-/

set_option autoImplicit false

namespace GpuTel.Mq

open Fifo Transition

namespace Stream

/-- What the handler has taken from its channel: the messages of the responses it passed to `Send`,
and then the one it still holds. -/
def taken (s : Stream) : List (Option Message) :=
  s.sent.flatMap (fun r => r.1.messages) ++ s.phase.inHand

theorem send_taken (s : Stream) (ok : Bool) : (s.send ok).taken = s.taken := by
  unfold send
  split
  · rename_i msg hphase
    simp [taken, hphase, Phase.inHand]
  · rfl

end Stream

namespace Broker

structure Inv (b : Broker) : Prop where
  store : b.messageStore.Inv
  unopened : ∀ {i}, b.opened ≤ i → b.streams i = .idle
  bound : ∀ {i c}, (b.streams i).channel = some c → c < b.messageStore.made ∧
    (b.messageStore.subs c).topic = (b.streams i).config.topic ∧
    (b.messageStore.subs c).ctxDone = (b.streams i).ctxDone
  unshared : ∀ {i j c}, (b.streams i).channel = some c → (b.streams j).channel = some c → i = j
  waiting : ∀ {i}, (b.streams i).phase = .added → (b.streams i).channel = none
  fresh : ∀ {i}, (b.streams i).channel = none → (b.streams i).taken = []
  /-- A nil message is only ever taken from a closed channel. -/
  drained : ∀ {i c}, (b.streams i).channel = some c → none ∈ (b.streams i).taken →
    (b.messageStore.subs c).ch.closed = true

theorem inv_init : init.Inv := by
  refine ⟨World.inv_init, fun _ => rfl, ?_, ?_, fun _ => rfl, fun _ => rfl, ?_⟩ <;>
    intros <;> simp_all [init, Stream.idle]

def takes (i : Nat) (b : Broker) : BrokerEvent → Option (Option Message)
  | .receive j => if j = i then some (b.received i) else none
  | _ => none

section Moves

variable {b : Broker} {e : BrokerEvent} {i : Nat} {s : Stream} (hinv : b.Inv) (hm : Moves b i e s)
include hinv hm

theorem channel_of_moves : s.channel =
    if e = .subscribe i then some b.messageStore.made else (b.streams i).channel := by
  cases hm with
  | other hacts => rw [if_neg fun h => hacts (by rw [h]; rfl)]
  | start hconfig heq =>
    rw [hinv.unopened (le_of_eq heq.symm)]
    rfl
  | send hphase =>
    simp only [Stream.send, hphase]
    rfl
  | subscribe hphase => simp
  | _ => rfl

theorem taken_of_moves : s.taken = (b.streams i).taken ++ (takes i b e).toList := by
  cases hm with
  | other hacts =>
    cases e with
    | receive j =>
      have hne : j ≠ i := fun h => hacts (by rw [h]; rfl)
      simp [takes, hne]
    | _ => simp [takes]
  | start hconfig heq =>
    rw [hinv.unopened (le_of_eq heq.symm)]
    rfl
  | send hphase => simp [Stream.send_taken, takes]
  | _ => simp_all [Stream.taken, Phase.inHand, takes]

theorem ctxDone_of_moves :
    s.ctxDone = true ↔ (b.streams i).ctxDone = true ∨ e = .disconnect i := by
  cases hm with
  | other hacts =>
    have hne : e ≠ .disconnect i := fun h => hacts (by rw [h]; rfl)
    simp [hne]
  | start hconfig heq =>
    rw [hinv.unopened (le_of_eq heq.symm)]
    simp [Stream.idle]
  | send hphase => simp [Stream.send, hphase]
  | disconnect hopened hdone => simp
  | _ => simp

theorem config_of_moves (hi : (b.streams i).channel ≠ none ∨ e = .subscribe i) :
    s.config = (b.streams i).config := by
  cases hm with
  | start hconfig heq =>
    rw [hinv.unopened (le_of_eq heq.symm)] at hi
    simp [Stream.idle] at hi
  | send hphase => simp [Stream.send, hphase]
  | _ => rfl

end Moves

section Step

variable {b t : Broker} {e : BrokerEvent} (hinv : b.Inv) (hst : broker.Step b e t)
include hinv hst

theorem store_step : t.messageStore.Inv := by
  cases hcall : b.storeCall e with
  | none =>
    rw [step_world_of_none hst hcall]
    exact hinv.store
  | some call => exact World.inv_step hinv.store (step_world hst hcall)

theorem made_le_step : b.messageStore.made ≤ t.messageStore.made := by
  cases hcall : b.storeCall e with
  | none => rw [step_world_of_none hst hcall]
  | some call => exact World.made_le_step hinv.store (step_world hst hcall)

theorem subscription_step {c : Nat} (hc : c < b.messageStore.made) :
    (t.messageStore.subs c).topic = (b.messageStore.subs c).topic ∧
      ((t.messageStore.subs c).ctxDone = true ↔
        (b.messageStore.subs c).ctxDone = true ∨ b.storeCall e = some (.cancel c)) ∧
      ((b.messageStore.subs c).ch.closed = true → (t.messageStore.subs c).ch.closed = true) := by
  cases hcall : b.storeCall e with
  | none =>
    rw [step_world_of_none hst hcall]
    simp
  | some call =>
    have h := World.subscription_step hinv.store (step_world hst hcall) hc
    simpa using h

theorem subscribed_step {i : Nat} (he : e = .subscribe i) :
    t.messageStore = b.messageStore.subscribe (b.streams i).ctxDone (b.streams i).config.topic := by
  subst he
  exact hinv.store.step_eq (step_world hst rfl)

omit hst in
theorem cancels_iff {i c : Nat} (hi : (b.streams i).channel = some c) :
    b.storeCall e = some (.cancel c) ↔ e = .disconnect i := by
  constructor
  · intro h
    cases e with
    | disconnect j =>
      obtain ⟨d, hd, hdc⟩ := Option.map_eq_some_iff.mp h
      obtain rfl := Event.cancel.inj hdc
      rw [hinv.unshared hd hi]
    | _ => simp [storeCall] at h
  · rintro rfl
    simp [storeCall, hi]

omit hinv in
theorem takes_eq_some {i : Nat} {msg : Option Message} (h : takes i b e = some msg) :
    ∃ c, (b.streams i).channel = some c ∧ msg = (b.messageStore.subs c).ch.received ∧
      b.storeCall e = some (.receive c) := by
  cases e with
  | receive j =>
    simp only [takes] at h
    split at h
    · rename_i heq
      subst heq
      obtain ⟨c, hc⟩ := Option.ne_none_iff_exists'.mp hst.1.1.2
      refine ⟨c, hc, ?_, by simp [storeCall, hc]⟩
      rw [← Option.some.inj h]
      simp [received, hc]
    · cases h
  | _ => cases h

theorem channel_cases {i c : Nat} (hi : (t.streams i).channel = some c) :
    (e = .subscribe i ∧ c = b.messageStore.made) ∨
      (e ≠ .subscribe i ∧ (b.streams i).channel = some c) := by
  rw [channel_of_moves hinv (step_moves hst i)] at hi
  split at hi
  · rename_i he
    exact Or.inl ⟨he, (Option.some.inj hi).symm⟩
  · rename_i he
    exact Or.inr ⟨he, hi⟩

omit hinv in
theorem opened_le_step : b.opened ≤ t.opened := by
  rw [(step_advance hst).2]
  cases e with
  | start req newID =>
    simp only [advance]
    split
    · exact Nat.le_succ b.opened
    · exact Nat.le_refl b.opened
  | _ => exact Nat.le_refl b.opened

theorem unopened_step {i : Nat} (hi : t.opened ≤ i) : t.streams i = .idle := by
  have hle := opened_le_step hst
  have hidle : b.streams i = .idle := hinv.unopened (Nat.le_trans hle hi)
  have hm := step_moves hst i
  generalize t.streams i = s at hm
  cases hm with
  | other hacts => exact hidle
  | start hconfig heq =>
    have hopened : t.opened = b.opened + 1 := by
      rw [(step_advance hst).2]
      simp only [advance, hconfig]
    omega
  | disconnect hlt hdone => omega
  | _ => simp_all [Stream.idle]

theorem bound_step {i c : Nat} (hi : (t.streams i).channel = some c) :
    c < t.messageStore.made ∧ (t.messageStore.subs c).topic = (t.streams i).config.topic ∧
      (t.messageStore.subs c).ctxDone = (t.streams i).ctxDone := by
  have hm := step_moves hst i
  rcases channel_cases hinv hst hi with ⟨he, rfl⟩ | ⟨he, hi'⟩
  · have hdone := ctxDone_of_moves hinv hm
    rw [subscribed_step hinv hst he, config_of_moves hinv hm (Or.inr he)]
    simp only [World.subscribe, Function.update_self]
    refine ⟨Nat.lt_succ_self _, trivial, ?_⟩
    rw [Bool.eq_iff_iff, hdone, he]
    simp
  · obtain ⟨hc, htopic, hdone⟩ := hinv.bound hi'
    have hsub := subscription_step hinv hst hc
    refine ⟨Nat.lt_of_lt_of_le hc (made_le_step hinv hst), ?_, ?_⟩
    · rw [hsub.1, htopic, config_of_moves hinv hm (Or.inl (by simp [hi']))]
    · rw [Bool.eq_iff_iff, hsub.2.1, hdone, ctxDone_of_moves hinv hm, cancels_iff hinv hi']

theorem unshared_step {i j c : Nat} (hi : (t.streams i).channel = some c)
    (hj : (t.streams j).channel = some c) : i = j := by
  rcases channel_cases hinv hst hi with ⟨hei, heq⟩ | ⟨-, hi'⟩
  · rcases channel_cases hinv hst hj with ⟨hej, -⟩ | ⟨-, hj'⟩
    · exact BrokerEvent.subscribe.inj (hei.symm.trans hej)
    · have hlt := (hinv.bound hj').1
      omega
  · rcases channel_cases hinv hst hj with ⟨-, heq⟩ | ⟨-, hj'⟩
    · have hlt := (hinv.bound hi').1
      omega
    · exact hinv.unshared hi' hj'

theorem waiting_step {i : Nat} (hi : (t.streams i).phase = .added) :
    (t.streams i).channel = none := by
  have hm := step_moves hst i
  generalize t.streams i = s at hm hi
  cases hm with
  | other hacts => exact hinv.waiting hi
  | start hconfig heq => rfl
  | send hphase => simp [Stream.send, hphase] at hi
  | disconnect hlt hdone => exact hinv.waiting hi
  | _ => cases hi

theorem fresh_step {i : Nat} (hi : (t.streams i).channel = none) : (t.streams i).taken = [] := by
  have hm := step_moves hst i
  rw [channel_of_moves hinv hm] at hi
  split at hi
  · cases hi
  · rw [taken_of_moves hinv hm, hinv.fresh hi]
    cases htakes : takes i b e with
    | none => rfl
    | some msg =>
      obtain ⟨c, hc, _⟩ := takes_eq_some hst htakes
      simp [hi] at hc

theorem drained_step {i c : Nat} (hi : (t.streams i).channel = some c)
    (hnil : none ∈ (t.streams i).taken) : (t.messageStore.subs c).ch.closed = true := by
  rw [taken_of_moves hinv (step_moves hst i)] at hnil
  rcases channel_cases hinv hst hi with ⟨he, rfl⟩ | ⟨-, hi'⟩
  · subst he
    have hphase : (b.streams i).phase = .added := hst.1.1
    simp [hinv.fresh (hinv.waiting hphase), takes] at hnil
  · have hclosed : (b.messageStore.subs c).ch.closed = true := by
      rcases List.mem_append.mp hnil with hold | hnew
      · exact hinv.drained hi' hold
      · obtain ⟨d, hd, hmsg, hcall⟩ := takes_eq_some hst (Option.mem_toList.mp hnew)
        obtain rfl := Option.some.inj (hd.symm.trans hi')
        have hready : (b.messageStore.subs d).ch.Ready := (hst.1.2 _ hcall).2
        exact Chan.closed_of_received_eq_none hready hmsg.symm
    exact (subscription_step hinv hst (hinv.bound hi').1).2.2 hclosed

theorem inv_step : t.Inv where
  store := store_step hinv hst
  unopened := unopened_step hinv hst
  bound := bound_step hinv hst
  unshared := unshared_step hinv hst
  waiting := waiting_step hinv hst
  fresh := fresh_step hinv hst
  drained := drained_step hinv hst

end Step

theorem inv_run {b : Broker} {es : List BrokerEvent} (hrun : broker.Run init es b) : b.Inv :=
  hrun.invariant (fun _ _ _ h hst => inv_step h hst) inv_init

/-- The request that opens a stream, and the consumer id that is generated for it. -/
def opening (_ : Broker) : BrokerEvent → Option (SubscribeRequest × String)
  | .start req newID => if req.topic = "" then none else some (req, newID)
  | _ => none

/-- What the request of a stream asks for, and what it gets where it asks for nothing. -/
def requested (x : SubscribeRequest × String) : SubscribeConfig where
  consumerID := if x.1.consumerID = "" then x.2 else x.1.consumerID
  topic := x.1.topic
  batchSize := if 0 < x.1.batchSize then x.1.batchSize else 10
  maxInFlight := if 0 < x.1.maxInFlight then x.1.maxInFlight else 100
  filter := x.1.filter

section Opening

variable {b t : Broker} {e : BrokerEvent} {es : List BrokerEvent} {i : Nat}

theorem opened_add_opening (hst : broker.Step b e t) :
    t.opened = b.opened + (opening b e).toList.length := by
  rw [(step_advance hst).2]
  cases e with
  | start req newID =>
    by_cases htopic : req.topic = "" <;>
      simp [opening, advance, SubscriberService.configure, htopic]
  | _ => rfl

theorem length_opening (hrun : broker.Run init es b) :
    (broker.trace opening init es).length = b.opened := by
  refine hrun.history (H := fun es b => (broker.trace opening init es).length = b.opened) rfl ?_
  intro es m e t hm ih hst
  rw [hm.trace_snoc _ hst, List.length_append, ih, opened_add_opening hst]

theorem getElem?_opening_snoc (hrun : broker.Run init es b) (hst : broker.Step b e t)
    (hi : i < b.opened) :
    (broker.trace opening init (es ++ [e]))[i]? = (broker.trace opening init es)[i]? := by
  have hlt : i < (broker.trace opening init es).length := (length_opening hrun).symm ▸ hi
  rw [hrun.trace_snoc _ hst, List.getElem?_append_left hlt]

theorem config_step (hst : broker.Step b e t) (hi : i < b.opened) :
    (t.streams i).config = (b.streams i).config := by
  have hm := step_moves hst i
  generalize t.streams i = s at hm
  cases hm with
  | start hconfig heq => omega
  | send hphase => simp [Stream.send, hphase]
  | _ => rfl

theorem config_start {req : SubscribeRequest} {newID : String}
    (hst : broker.Step b (.start req newID) t) (htopic : req.topic ≠ "") :
    (t.streams b.opened).config = requested (req, newID) := by
  rw [(step_advance hst).1]
  simp only [advance, SubscriberService.configure, if_neg htopic, setStream_streams, if_true,
    requested, ← not_lt, ite_not]

theorem eq_start_of_opening {x : SubscribeRequest × String} (h : opening b e = some x) :
    e = .start x.1 x.2 ∧ x.1.topic ≠ "" := by
  cases e with
  | start req newID =>
    rw [opening] at h
    split at h
    · cases h
    · rename_i htopic
      obtain rfl := Option.some.inj h
      exact ⟨rfl, htopic⟩
  | _ => cases h

/-- A stream keeps the configuration that its request asks for. -/
theorem config_of_opening (hrun : broker.Run init es b) {x : SubscribeRequest × String}
    (hx : (broker.trace opening init es)[i]? = some x) : (b.streams i).config = requested x := by
  revert hx
  refine hrun.history (H := fun es b => (broker.trace opening init es)[i]? = some x →
    (b.streams i).config = requested x) (fun h => by cases h) ?_
  intro es m e t hm ih hst hx
  rcases Nat.lt_or_ge i m.opened with hold | hnew
  · rw [getElem?_opening_snoc hm hst hold] at hx
    rw [config_step hst hold, ih hx]
  · rw [hm.trace_snoc _ hst, List.getElem?_append_right ((length_opening hm).trans_le hnew),
      length_opening hm] at hx
    cases hopening : opening m e with
    | none => simp [hopening] at hx
    | some y =>
      simp only [hopening, Option.toList_some, List.getElem?_singleton] at hx
      split at hx
      · rename_i hzero
        obtain rfl := Option.some.inj hx
        obtain rfl : i = m.opened := by omega
        obtain ⟨rfl, htopic⟩ := eq_start_of_opening hopening
        exact config_start hst htopic
      · cases hx

end Opening

theorem exists_step {b : Broker} {e : BrokerEvent} (hinv : b.Inv) (hg : b.guard e) :
    ∃ t, broker.Step b e t := by
  cases hcall : b.storeCall e with
  | none => exact ⟨b.advance e, hg, by simp [broker, exec, hcall]⟩
  | some call =>
    have hexec := hinv.store.exec_eq (hg.2 call hcall)
    refine ⟨{ b.advance e with messageStore := b.messageStore.effect call }, hg, ?_⟩
    simp only [broker, exec, hcall, hexec]
    rfl

/-- The channel `c` is that of stream `i`, or will be when `i` subscribes next. -/
def MayHold (b : Broker) (i c : Nat) : Prop :=
  (b.streams i).channel = some c ∨ (b.streams i).channel = none ∧ b.messageStore.made ≤ c

def accepted (c : Nat) (b : Broker) (e : BrokerEvent) : Option Message :=
  (b.storeCall e).bind (World.acceptedBy c b.messageStore)

section Step

variable {b t : Broker} {e : BrokerEvent} (hinv : b.Inv) (hst : broker.Step b e t) {i c : Nat}
include hinv hst

theorem mayHold_of_step (h : t.MayHold i c) : b.MayHold i c := by
  rcases h with hi | ⟨hi, hc⟩
  · rcases channel_cases hinv hst hi with ⟨he, rfl⟩ | ⟨-, hi'⟩
    · subst he
      exact Or.inr ⟨hinv.waiting hst.1.1, Nat.le_refl _⟩
    · exact Or.inl hi'
  · refine Or.inr ⟨?_, Nat.le_trans (made_le_step hinv hst) hc⟩
    rw [channel_of_moves hinv (step_moves hst i)] at hi
    split at hi
    · cases hi
    · exact hi

theorem takes_toList (h : b.MayHold i c) : (takes i b e).toList.reduceOption =
    ((b.storeCall e).bind (World.receivedBy c b.messageStore)).toList := by
  cases e with
  | receive j =>
    obtain ⟨d, hd⟩ := Option.ne_none_iff_exists'.mp hst.1.1.2
    have hiff : d = c ↔ j = i := by
      constructor
      · rintro rfl
        rcases h with hi | ⟨-, hge⟩
        · exact hinv.unshared hd hi
        · have hlt := (hinv.bound hd).1
          omega
      · rintro rfl
        rcases h with hi | ⟨hi, -⟩
        · exact Option.some.inj (hd.symm.trans hi)
        · simp [hi] at hd
    simp only [takes, storeCall, hd, Option.map_some, Option.bind_some, World.receivedBy, hiff]
    split
    · rename_i heq
      subst heq
      rw [hiff.mpr rfl] at hd
      cases hrec : (b.messageStore.subs c).ch.received <;> simp [received, hd, hrec]
    · rfl
  | _ => simp [takes, storeCall, Option.bind_map, Function.comp_def, World.receivedBy]

theorem taken_append_buf_step (h : b.MayHold i c) :
    (t.streams i).taken.reduceOption ++ (t.messageStore.subs c).ch.buf =
      (b.streams i).taken.reduceOption ++ (b.messageStore.subs c).ch.buf ++
        (accepted c b e).toList := by
  rw [taken_of_moves hinv (step_moves hst i), List.reduceOption_append, takes_toList hinv hst h,
    List.append_assoc, List.append_assoc]
  congr 1
  cases hcall : b.storeCall e with
  | none => simp [step_world_of_none hst hcall, accepted, hcall]
  | some call =>
    simpa [accepted, hcall] using
      World.received_append_buf_step hinv.store (step_world hst hcall) c

end Step

theorem mayHold_of_run {m b : Broker} {es : List BrokerEvent} {i c : Nat} (hm : m.Inv)
    (hrun : broker.Run m es b) (h : b.MayHold i c) : m.MayHold i c := by
  by_contra hnot
  have hI := hrun.invariant (I := fun s => s.Inv ∧ ¬ s.MayHold i c)
    (fun s e t hs hst => ⟨inv_step hs.1 hst, fun ht => hs.2 (mayHold_of_step hs.1 hst ht)⟩)
    ⟨hm, hnot⟩
  exact hI.2 h

variable {b : Broker} {es : List BrokerEvent}

/-- For every stream of every run: the messages its handler has taken and then those still buffered
are, in order, the ones that the store put into its channel. -/
theorem taken_append_buf (hrun : broker.Run init es b) {i c : Nat} (h : b.MayHold i c) :
    (b.streams i).taken.reduceOption ++ (b.messageStore.subs c).ch.buf =
      broker.trace (accepted c) init es := by
  refine hrun.history (H := fun es b => b.MayHold i c →
    (b.streams i).taken.reduceOption ++ (b.messageStore.subs c).ch.buf =
      broker.trace (accepted c) init es) (fun _ => rfl) ?_ h
  intro es m e t hm ih hst ht
  have hinv := inv_run hm
  have hmay := mayHold_of_step hinv hst ht
  rw [hm.trace_snoc _ hst, ← ih hmay, taken_append_buf_step hinv hst hmay]

end Broker

end GpuTel.Mq
