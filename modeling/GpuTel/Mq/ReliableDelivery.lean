import GpuTel.Mq.BrokerInvariant

/-!
# Delivery on a live stream

The store skips a channel that is full, keeps nothing for a consumer that is away, and a handler
that fails to send goes on. What a live stream is owed is therefore what was published since it
subscribed, whenever its channel had room; of that nothing is lost between the channel and `Send`.
-/

set_option autoImplicit false

namespace GpuTel.Mq.Broker

open Fifo Transition

def published : BrokerEvent → Option Message
  | .publish req newID now _ => req.message.map fun msg => msg.filledIn newID now
  | _ => none

theorem published_eq_prepare (req : PublishRequest) (newID : String) (now : Timestamp)
    (order : List Nat) : published (.publish req newID now order) =
      (PublisherService.prepare req newID now).toOption := by
  obtain ⟨_ | msg, waitForAck, ackTimeoutSeconds⟩ := req <;> rfl

def acknowledged : BrokerEvent → Option (String × String)
  | .acknowledge req =>
    ((SubscriberService.validateAck req).map fun req => (req.messageID, req.consumerID)).toOption
  | _ => none

/-- Stream `i` is subscribed, with channel `c`, and its client is connected. -/
def Live (b : Broker) (i c : Nat) : Prop :=
  (b.streams i).channel = some c ∧ (b.streams i).ctxDone = false

/-- The message neither waits in channel `c` nor was it sent on stream `i`. -/
def Undelivered (b : Broker) (i c : Nat) (msg : Message) : Prop :=
  msg ∉ (b.messageStore.subs c).ch.buf ∧ (⟨[some msg], false⟩, true) ∉ (b.streams i).sent

instance (b : Broker) (i c : Nat) : Decidable (b.Live i c) :=
  inferInstanceAs (Decidable (_ ∧ _))

instance (b : Broker) (i c : Nat) (msg : Message) : Decidable (b.Undelivered i c msg) :=
  inferInstanceAs (Decidable (_ ∧ _))

/-- Whatever was published on a topic after the consumer first subscribed to it, and the consumer
has not acknowledged, waits in the channel of its live stream or was sent there. -/
def ReliableDelivery : Prop :=
  ∀ before after first i c m b, broker.Run init before m →
    broker.Run m (.subscribe first :: after) b →
    (∀ e ∈ before ++ after, ∀ order, e ≠ .close order) →
    b.Live i c → (b.streams i).config.consumerID = (m.streams first).config.consumerID →
    (b.streams i).config.topic = (m.streams first).config.topic →
    ∀ e ∈ after, ∀ msg, published e = some msg → msg.topic = (b.streams i).config.topic →
      (∀ f ∈ after, acknowledged f ≠ some (msg.id, (b.streams i).config.consumerID)) →
      ¬ b.Undelivered i c msg

def consumerC : SubscribeRequest := ⟨"t", "c", 0, 0, 0, ∅⟩

def publishT (id : String) (order : List Nat) : BrokerEvent :=
  .publish ⟨some ⟨id, "t", [], none⟩, false, 0⟩ "" ⟨0, 0⟩ order

def away : List BrokerEvent :=
  [.disconnect 0, .cleanUp 0, .leave 0, .remove 0, publishT "m" [], .start consumerC "",
    .subscribe 1]

def burst : List BrokerEvent :=
  .start consumerC "" :: .subscribe 0 :: List.replicate 100 (publishT "n" [0]) ++
    [publishT "m" [0]]

def brokenSend : List BrokerEvent :=
  [.start consumerC "", .subscribe 0, publishT "m" [0], .receive 0, .send 0 false]

def messageM : Message := ⟨"m", "t", [], some ⟨0, 0⟩⟩

/-- A message is lost to a consumer that is away; and also to one that stays connected, when its
channel is full, while its handler holds the message, and when `Send` fails. -/
theorem not_reliableDelivery : ¬ ReliableDelivery ∧
    (∃ b, broker.Run init burst b ∧ b.Live 0 0 ∧ b.Undelivered 0 0 messageM) ∧
    (∃ b, broker.Run init brokenSend.dropLast b ∧ b.Live 0 0 ∧ b.Undelivered 0 0 messageM) ∧
    ∃ b, broker.Run init brokenSend b ∧ b.Live 0 0 ∧ b.Undelivered 0 0 messageM := by
  refine ⟨?_, Machine.exists_run _ _ _ (by decide +kernel), Machine.exists_run _ _ _ (by decide),
    Machine.exists_run _ _ _ (by decide)⟩
  intro h
  obtain ⟨m, b, hm, hrest, hlive, hlost, hconsumer, htopic, htopic'⟩ :=
    Machine.exists_run_run (M := broker)
      (fun m b => b.Live 1 1 ∧ b.Undelivered 1 1 messageM ∧
        (b.streams 1).config.consumerID = (m.streams 0).config.consumerID ∧
        (b.streams 1).config.topic = (m.streams 0).config.topic ∧
        (b.streams 1).config.topic = "t") init
      [.start consumerC ""] (.subscribe 0 :: away) (by decide)
  refine h [.start consumerC ""] away 0 1 1 m b hm hrest ?_ hlive hconsumer htopic
    (publishT "m" []) (by decide) messageM rfl htopic'.symm ?_ hlost
  · simp [away, publishT]
  · simp [away, publishT, acknowledged]

/-- The message published on the topic of stream `i` while its channel holds less than 100. -/
def offered (i : Nat) (b : Broker) (e : BrokerEvent) : Option Message :=
  (published e).filter fun msg =>
    decide (msg.topic = (b.streams i).config.topic) &&
      (b.streams i).channel.any fun c => decide ((b.messageStore.subs c).ch.buf.length < 100)

theorem filledIn_prepare {req : PublishRequest} {newID : String} {now : Timestamp} {msg : Message}
    (h : PublisherService.prepare req newID now = .ok msg) : msg.filledIn newID now = msg := by
  unfold PublisherService.prepare at h
  split at h
  · cases h
  · obtain rfl := Except.ok.inj h
    exact Message.filledIn_filledIn _ newID now

theorem offered_eq_accepted {b : Broker} (hinv : b.Inv) {i c : Nat}
    (hi : (b.streams i).channel = some c) (hreg : b.messageStore.Registered c)
    (e : BrokerEvent) : offered i b e = accepted c b e := by
  have htopic := (hinv.bound hi).2.1
  cases e with
  | publish req newID now order =>
    simp only [offered, accepted, published_eq_prepare, storeCall]
    cases hmsg : PublisherService.prepare req newID now with
    | error status => rfl
    | ok msg =>
      simp [World.acceptedBy, Except.toOption, Option.filter, hi, hreg, htopic,
        filledIn_prepare hmsg]
  | _ =>
    simp [offered, published, accepted, storeCall, Option.bind_map, Function.comp_def,
      World.acceptedBy]

theorem offered_of_channel_eq_none {b : Broker} {i : Nat} (hi : (b.streams i).channel = none)
    (e : BrokerEvent) : offered i b e = none := by
  simp [offered, hi]

theorem accepted_eq_none {b : Broker} (hinv : b.Inv) {c : Nat} (hc : b.messageStore.made ≤ c)
    (e : BrokerEvent) : accepted c b e = none := by
  rw [Option.eq_none_iff_forall_ne_some]
  intro msg hmsg
  obtain ⟨call, _, hacc⟩ := Option.bind_eq_some_iff.mp hmsg
  have hlt := (World.acceptedBy_eq_some hinv.store hacc).2
  omega

theorem map_some_reduceOption {α : Type} {l : List (Option α)} (h : none ∉ l) :
    l.reduceOption.map some = l := by
  induction l with
  | nil => rfl
  | cons a l ih =>
    cases a with
    | none => exact absurd List.mem_cons_self h
    | some a =>
      rw [List.reduceOption_cons_of_some, List.map_cons, ih fun hl => h (List.mem_cons_of_mem _ hl)]

theorem Live.registered {b : Broker} {es : List BrokerEvent} {i c : Nat} (hlive : b.Live i c)
    (hrun : broker.Run init es b) (hopen : ∀ e ∈ es, ∀ order, e ≠ .close order) :
    b.messageStore.Registered c := by
  have hbound := (inv_run hrun).bound hlive.1
  refine World.registered_run (simulation.run hrun) ?_ hbound.1 (hbound.2.2.trans hlive.2)
  intro call hcall order hclose
  obtain ⟨before, e, after, m, rfl, -, hlabel⟩ := hrun.mem_trace hcall
  rw [hclose] at hlabel
  have he : e = .close order := by
    cases e with
    | close order' => simpa [simulation, storeCall] using hlabel
    | _ => simp [simulation, storeCall] at hlabel
  exact hopen e (by simp) order he

theorem Live.before {m b : Broker} {es : List BrokerEvent} {i c : Nat} (hlive : b.Live i c)
    (hm : m.Inv) (hrun : broker.Run m es b) :
    m.Live i c ∨ (m.streams i).channel = none ∧ m.messageStore.made ≤ c := by
  have hdone : (m.streams i).ctxDone = false := by
    rw [← Bool.not_eq_true]
    intro hdone
    have hI := hrun.invariant (I := fun s => s.Inv ∧ (s.streams i).ctxDone = true)
      (fun s e t hs hst => ⟨inv_step hs.1 hst,
        (ctxDone_of_moves hs.1 (step_moves hst i)).mpr (Or.inl hs.2)⟩) ⟨hm, hdone⟩
    simp [hlive.2] at hI
  rcases mayHold_of_run hm hrun (Or.inl hlive.1) with hi | hfree
  · exact Or.inl ⟨hi, hdone⟩
  · exact Or.inr hfree

/-- In every run in which the store is not closed, and for every live stream: the messages of the
responses passed to `Send`, then the one in the handler's hands, then those waiting in the channel
are, in order, exactly the messages published on its topic since it subscribed while its channel had
room. -/
theorem live_stream_delivery {b : Broker} {es : List BrokerEvent} {i c : Nat}
    (hrun : broker.Run init es b) (hopen : ∀ e ∈ es, ∀ order, e ≠ .close order)
    (hlive : b.Live i c) :
    (b.streams i).sent.flatMap (fun r => r.1.messages) ++ (b.streams i).phase.inHand ++
        (b.messageStore.subs c).ch.buf.map some =
      (broker.trace (offered i) init es).map some := by
  have hinv := inv_run hrun
  have hreal : none ∉ (b.streams i).taken := by
    intro hnil
    have hclosed := hinv.drained hlive.1 hnil
    simp [hinv.store.isOpen (hlive.registered hrun hopen)] at hclosed
  have htrace : broker.trace (offered i) init es = broker.trace (accepted c) init es := by
    apply hrun.trace_congr
    intro before e after m hes hbefore hrest
    have hm := inv_run hbefore
    have hopen' : ∀ f ∈ before, ∀ order, f ≠ .close order :=
      fun f hf => hopen f (by rw [hes]; exact List.mem_append_left _ hf)
    rcases hlive.before hm hrest with hearlier | ⟨hnone, hge⟩
    · exact offered_eq_accepted hm hearlier.1 (hearlier.registered hbefore hopen') e
    · rw [offered_of_channel_eq_none hnone e, accepted_eq_none hm hge e]
  rw [htrace, ← taken_append_buf hrun (Or.inl hlive.1), List.map_append,
    map_some_reduceOption hreal]
  rfl

def reconnect : List BrokerEvent :=
  .start consumerC "" :: .subscribe 0 :: away ++
    [publishT "x" [1], .receive 1, .send 1 true, publishT "y" [1]]

theorem live_stream_delivery_reconnect : ∃ b, broker.Run init reconnect b ∧ b.Live 1 1 ∧
    (broker.trace (offered 1) init reconnect).length = 2 ∧
    (b.streams 1).sent.flatMap (fun r => r.1.messages) ++ (b.streams 1).phase.inHand ++
        (b.messageStore.subs 1).ch.buf.map some =
      (broker.trace (offered 1) init reconnect).map some := by
  obtain ⟨b, hrun, hlive⟩ := Machine.exists_run (M := broker) (fun b => b.Live 1 1) init reconnect
    (by decide)
  refine ⟨b, hrun, hlive, by decide, live_stream_delivery hrun ?_ hlive⟩
  simp [reconnect, away, publishT]

end GpuTel.Mq.Broker
