import GpuTel.Mq.Message

/-!
# The maps of the in-memory message store

The operations of `InMemoryStore` that touch only its maps. A set such as `map[string]bool`, which
only ever holds `true`, is a finite set. Channels are referred to by number; they live in
`GpuTel.Mq.World`, with the operations that use them.

A loop over a map takes the order in which it visits the keys as an argument.
-/

set_option autoImplicit false

namespace GpuTel.Mq

structure InMemoryStore where
  messages : GoMap Message
  /-- topic -> message IDs -/
  topics : SetMap String String
  /-- consumer ID -> message IDs -/
  consumers : SetMap String String
  /-- message ID -> consumer ID -/
  ackTracker : GoMap String
  /-- topic -> subscribers -/
  subscribers : SetMap String Nat
  /-- consumer ID -> Subscriber -/
  subscriberInfo : GoMap Subscriber
  deriving DecidableEq

/-- `Store` fills in a missing id (`uuid.New()`) and a missing timestamp (`timestamppb.Now()`). -/
def stamp (msg : Message) (newID : String) (now : Timestamp) : Message where
  id := if msg.id = "" then newID else msg.id
  topic := msg.topic
  payload := msg.payload
  timestamp := msg.timestamp.or (some now)

theorem stamp_eq (msg : Message) (newID : String) (now : Timestamp) :
    stamp msg newID now = msg.filledIn newID now := rfl

namespace InMemoryStore

def newInMemoryStore : InMemoryStore := ⟨∅, ∅, ∅, ∅, ∅, ∅⟩

/-- The map updates of `Store`, for a message that already has its id. -/
def put (s : InMemoryStore) (msg : Message) : InMemoryStore :=
  { s with
    messages := s.messages.insert msg.id msg
    topics := s.topics.add msg.topic msg.id }

def get (s : InMemoryStore) (id : String) : Except MessageError Message :=
  match s.messages.lookup id with
  | none => .error errMessageNotFound
  | some msg => .ok msg

def delete (s : InMemoryStore) (id : String) : InMemoryStore :=
  { s with
    messages := s.messages.erase id
    ackTracker := s.ackTracker.erase id }

/-- The error returned, nil being `none`, and the store afterwards. -/
def acknowledge (s : InMemoryStore) (msgID consumerID : String) :
    Option MessageError × InMemoryStore :=
  match s.messages.lookup msgID with
  | none => (some errMessageNotFound, s)
  | some _ => (none, { s with ackTracker := s.ackTracker.insert msgID consumerID })

def addSubscriber (s : InMemoryStore) (subscriber : Subscriber) : InMemoryStore :=
  { s with subscriberInfo := s.subscriberInfo.insert subscriber.id subscriber }

/-- The topic is not looked at. -/
def removeSubscriber (s : InMemoryStore) (consumerID _topic : String) : InMemoryStore :=
  { s with subscriberInfo := s.subscriberInfo.erase consumerID }

/-- The loop of `GetMessages` over the ids still to be visited, with `count`, `messages` and the
tracker as it stands. -/
def getMessagesLoop (live : GoMap Message) (consumerID : String) (batchSize : Int) :
    List String → Int → List Message → GoMap String → List Message × GoMap String
  | [], _, messages, ackTracker => (messages, ackTracker)
  | msgID :: rest, count, messages, ackTracker =>
    if count ≥ batchSize then (messages, ackTracker)
    else if consumerID ≠ "" ∧ ackTracker.lookup msgID = some consumerID then
      getMessagesLoop live consumerID batchSize rest count messages ackTracker
    else
      match live.lookup msgID with
      | none => getMessagesLoop live consumerID batchSize rest count messages ackTracker
      | some msg =>
        getMessagesLoop live consumerID batchSize rest (count + 1) (messages ++ [msg])
          (if consumerID ≠ "" then ackTracker.insert msgID consumerID else ackTracker)

/-- `order` is the order in which the ids of the topic are visited. -/
def getMessages (s : InMemoryStore) (topic consumerID : String) (batchSize : Int)
    (order : List String) : List Message × InMemoryStore :=
  match s.topics.lookup topic with
  | none => ([], s)
  | some _ =>
    let result := getMessagesLoop s.messages consumerID batchSize order 0 [] s.ackTracker
    (result.1, { s with ackTracker := result.2 })

section Frame

variable (s : InMemoryStore) (topic msgID consumerID : String) (batchSize : Int)
variable (order : List String)

@[simp] theorem acknowledge_messages :
    (s.acknowledge msgID consumerID).2.messages = s.messages := by
  unfold acknowledge
  split <;> rfl

@[simp] theorem acknowledge_topics : (s.acknowledge msgID consumerID).2.topics = s.topics := by
  unfold acknowledge
  split <;> rfl

@[simp] theorem acknowledge_subscribers :
    (s.acknowledge msgID consumerID).2.subscribers = s.subscribers := by
  unfold acknowledge
  split <;> rfl

@[simp] theorem getMessages_messages :
    (s.getMessages topic consumerID batchSize order).2.messages = s.messages := by
  unfold getMessages
  split <;> rfl

@[simp] theorem getMessages_topics :
    (s.getMessages topic consumerID batchSize order).2.topics = s.topics := by
  unfold getMessages
  split <;> rfl

@[simp] theorem getMessages_subscribers :
    (s.getMessages topic consumerID batchSize order).2.subscribers = s.subscribers := by
  unfold getMessages
  split <;> rfl

end Frame

def Live (s : InMemoryStore) (id : String) : Prop := ∃ msg, s.messages.lookup id = some msg

instance (s : InMemoryStore) (id : String) : Decidable (s.Live id) :=
  decidable_of_iff ((s.messages.lookup id).isSome = true) Option.isSome_iff_exists

theorem acknowledge_of_not_live {s : InMemoryStore} {id : String} (h : ¬ s.Live id)
    (consumerID : String) : s.acknowledge id consumerID = (some errMessageNotFound, s) := by
  have hnone : s.messages.lookup id = none := by
    cases hm : s.messages.lookup id with
    | none => rfl
    | some msg => exact absurd ⟨msg, hm⟩ h
  simp [acknowledge, hnone]

theorem acknowledge_of_live {s : InMemoryStore} {id : String} (h : s.Live id)
    (consumerID : String) : s.acknowledge id consumerID =
      (none, { s with ackTracker := s.ackTracker.insert id consumerID }) := by
  obtain ⟨msg, hmsg⟩ := h
  simp [acknowledge, hmsg]

@[simp] theorem live_acknowledge (s : InMemoryStore) (msgID consumerID id : String) :
    (s.acknowledge msgID consumerID).2.Live id ↔ s.Live id := by
  unfold Live
  rw [acknowledge_messages]

/-- `GetMessages` returns `id` to this consumer if it gets that far. -/
def Eligible (s : InMemoryStore) (consumerID id : String) : Prop :=
  s.Live id ∧ ¬ (consumerID ≠ "" ∧ s.ackTracker.lookup id = some consumerID)

instance (s : InMemoryStore) (consumerID id : String) : Decidable (s.Eligible consumerID id) :=
  inferInstanceAs (Decidable (_ ∧ _))

/-- The ids that `GetMessages` returns, in the order in which it visits them. -/
def fetched (s : InMemoryStore) (consumerID : String) (batchSize : Int) (order : List String) :
    List String :=
  (order.filter (s.Eligible consumerID)).take batchSize.toNat

end InMemoryStore

end GpuTel.Mq
