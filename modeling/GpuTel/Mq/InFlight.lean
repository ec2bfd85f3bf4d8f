import GpuTel.Lib.InFlight
import GpuTel.Mq.AckOutcomes
import GpuTel.Mq.ReliableDelivery

/-!
# The bound on what is in flight

`Subscribe` works out the bound on unacknowledged messages that a client asks for, and then nothing
reads it. The bound is kept in exactly the runs in which the client keeps up with what it is sent.
-/

set_option autoImplicit false

namespace GpuTel.Mq

open InFlight Transition

def Phase.held : Phase → Option Message
  | .sending msg => msg
  | _ => none

namespace Broker

/-- A message sent on stream `i`, or the id of one that its consumer acknowledges. The id of a
message is new with each store. -/
def flight (i : Nat) (b : Broker) : BrokerEvent → Option (Op Message String)
  | .publish req newID now order =>
    (published (.publish req newID now order)).map fun msg => .renew msg.id
  | .send j true =>
    if j = i then (b.streams i).phase.held.map Op.send else none
  | .acknowledge req =>
    ((processed b (.acknowledge req)).filter fun req =>
      decide (req.consumerID = (b.streams i).config.consumerID)).map fun req =>
        .settle req.messageID
  | _ => none

def inFlight (i : Nat) (es : List BrokerEvent) : Flight Message String :=
  InFlight.run Message.id (broker.trace (flight i) init es)

/-- The messages sent on stream `i` that its consumer has not acknowledged since they were stored.
-/
def unacknowledged (i : Nat) (es : List BrokerEvent) : List Message := (inFlight i es).items

/-- The limit that the client of stream `i` asked for, and 100 if it asked for none. -/
def limit (i : Nat) (es : List BrokerEvent) : Int :=
  ((broker.trace opening init es)[i]?).elim 100 fun x =>
    if 0 < x.1.maxInFlight then x.1.maxInFlight else 100

def WithinLimit (i : Nat) (es : List BrokerEvent) (_ : Broker) : Prop :=
  ((unacknowledged i es).length : Int) ≤ limit i es

def BackPressure : Prop := ∀ es b, broker.Run init es b → ∀ i, WithinLimit i es b

/-- A message that is sent on stream `i` before it is acknowledged leaves the limit unexceeded. -/
def SendsWithinLimit (i : Nat) (es : List BrokerEvent) (b : Broker) (e : BrokerEvent) : Prop :=
  ∀ msg, e = .send i true → (b.streams i).phase = .sending (some msg) →
    msg.id ∉ (inFlight i es).settled → ((unacknowledged i es).length : Int) < limit i es

section Step

variable {es : List BrokerEvent} {b t : Broker} {e : BrokerEvent} {i : Nat}

theorem inFlight_snoc (hrun : broker.Run init es b) (hst : broker.Step b e t) (i : Nat) :
    inFlight i (es ++ [e]) = (flight i b e).toList.foldl (step Message.id) (inFlight i es) := by
  rw [inFlight, hrun.trace_snoc _ hst, InFlight.run_append]
  rfl

theorem flight_eq_send (msg : Message) : flight i b e = some (.send msg) ↔
    e = .send i true ∧ (b.streams i).phase = .sending (some msg) := by
  cases e with
  | send j ok =>
    cases ok with
    | false => simp [flight]
    | true =>
      simp only [flight, BrokerEvent.send.injEq, and_true]
      by_cases hj : j = i
      · cases hphase : (b.streams i).phase with
        | sending held => cases held <;> simp [hj, Phase.held]
        | _ => simp [hj, Phase.held]
      · simp [hj]
  | acknowledge req => simp [flight]
  | _ => simp [flight]

theorem unacknowledged_of_unopened (hrun : broker.Run init es b) (hi : b.opened ≤ i) :
    unacknowledged i es = [] := by
  refine hrun.history (H := fun es b => b.opened ≤ i → unacknowledged i es = [])
    (fun _ => rfl) ?_ hi
  intro es m e t hm ih hst ht
  have hle : m.opened ≤ i := Nat.le_trans (opened_le_step hst) ht
  have hidle := (inv_run hm).unopened hle
  rw [unacknowledged, inFlight_snoc hm hst]
  cases hflight : flight i m e with
  | none => exact ih hle
  | some op =>
    have hop : ∀ msg, op ≠ .send msg := by
      rintro msg rfl
      have hphase := ((flight_eq_send msg).mp hflight).2
      simp [hidle, Stream.idle] at hphase
    have hlen := length_items_step_le Message.id (inFlight i es) hop
    rw [show (inFlight i es).items = [] from ih hle] at hlen
    exact List.length_eq_zero_iff.mp (Nat.le_zero.mp hlen)

theorem limit_snoc (hrun : broker.Run init es b) (hst : broker.Step b e t) (hi : i < b.opened) :
    limit i (es ++ [e]) = limit i es := by
  rw [limit, limit, getElem?_opening_snoc hrun hst hi]

theorem limit_nonneg (i : Nat) (es : List BrokerEvent) : 0 ≤ limit i es := by
  unfold limit
  cases (broker.trace opening init es)[i]? with
  | none => decide
  | some x =>
    simp only [Option.elim_some]
    split <;> omega

theorem withinLimit_step_iff (hrun : broker.Run init es b) (h : WithinLimit i es b)
    (hst : broker.Step b e t) : WithinLimit i (es ++ [e]) t ↔ SendsWithinLimit i es b e := by
  have hsends : SendsWithinLimit i es b e ↔ ∀ msg, flight i b e = some (.send msg) →
      msg.id ∉ (inFlight i es).settled → ((unacknowledged i es).length : Int) < limit i es := by
    simp only [SendsWithinLimit, flight_eq_send, and_imp]
  rcases Nat.lt_or_ge i b.opened with hopened | hunopened
  · rw [hsends, WithinLimit, limit_snoc hrun hst hopened, unacknowledged,
      inFlight_snoc hrun hst]
    exact length_items_le_iff Message.id h (flight i b e)
  · have hidle := (inv_run hrun).unopened hunopened
    have hnone : ∀ msg, flight i b e ≠ some (.send msg) := by
      intro msg hflight
      have hphase := ((flight_eq_send msg).mp hflight).2
      simp [hidle, Stream.idle] at hphase
    refine iff_of_true ?_ (hsends.mpr fun msg hflight => absurd hflight (hnone msg))
    have hlen : (unacknowledged i (es ++ [e])).length ≤ (unacknowledged i es).length := by
      rw [unacknowledged, inFlight_snoc hrun hst]
      cases hflight : flight i b e with
      | none => exact le_refl _
      | some op =>
        apply length_items_step_le
        rintro msg rfl
        exact hnone msg hflight
    rw [unacknowledged_of_unopened hrun hunopened] at hlen
    have hnonneg := limit_nonneg i (es ++ [e])
    rw [WithinLimit]
    simp only [List.length_nil] at hlen
    omega

end Step

/-- In every run of the broker, and for every stream: what its consumer has not acknowledged stays
within the limit all along if and only if each message that it has not acknowledged is sent on it
while fewer than the limit are unacknowledged. -/
theorem withinLimit_iff_sendsWithinLimit {es : List BrokerEvent} {b : Broker}
    (hrun : broker.Run init es b) (i : Nat) :
    broker.Always (WithinLimit i) init es ↔ broker.EachStep (SendsWithinLimit i) init es := by
  refine Machine.always_iff_eachStep (L := fun _ => True) ?_ ?_ hrun (fun _ _ => trivial)
  · exact limit_nonneg i []
  · intro es m e t hm _ _ h hst
    exact withinLimit_step_iff hm h hst

/-- A consumer that asks for one message at a time gets two. -/
def twoAtOnce : List BrokerEvent :=
  [.start ⟨"t", "c", 0, 1, 0, ∅⟩ "", .subscribe 0,
    .publish ⟨some ⟨"m", "t", [], none⟩, false, 0⟩ "" ⟨0, 0⟩ [0],
    .publish ⟨some ⟨"n", "t", [], none⟩, false, 0⟩ "" ⟨0, 0⟩ [0],
    .receive 0, .send 0 true, .receive 0, .send 0 true]

theorem withinLimit_iff_sendsWithinLimit_twoAtOnce : ∃ b, broker.Run init twoAtOnce b ∧
    (broker.Always (WithinLimit 0) init twoAtOnce ↔
      broker.EachStep (SendsWithinLimit 0) init twoAtOnce) := by
  obtain ⟨b, hrun, -⟩ := Machine.exists_run (M := broker) (fun _ => True) init twoAtOnce (by decide)
  exact ⟨b, hrun, withinLimit_iff_sendsWithinLimit hrun 0⟩

theorem not_backPressure : ¬ BackPressure := by
  intro h
  obtain ⟨b, hrun, -⟩ := Machine.exists_run (M := broker) (fun _ => True) init twoAtOnce (by decide)
  have htwo : (unacknowledged 0 twoAtOnce).length = 2 := by decide
  have hlimit : limit 0 twoAtOnce = 1 := by decide
  have hwithin := h twoAtOnce b hrun 0
  rw [WithinLimit, htwo, hlimit] at hwithin
  omega

end Broker

end GpuTel.Mq
