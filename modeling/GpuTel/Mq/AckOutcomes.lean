import GpuTel.Mq.AcknowledgeStream
import GpuTel.Mq.BrokerInvariant

/-!
# What an acknowledgement says

A request to acknowledge says whether the message was processed (`success`). The handler writes that
into its log only: a request that reports a failure is recorded in the tracker like any other.
-/

set_option autoImplicit false

namespace GpuTel.Mq.Broker

open Transition

/-- The request that a label gets processed: one with both ids, naming a message in the store. -/
def processed (b : Broker) : BrokerEvent → Option AcknowledgeRequest
  | .acknowledge req =>
    if SubscriberService.Acceptable b.messageStore.mem req then some req else none
  | _ => none

def Processed (es : List BrokerEvent) (msgID consumerID : String) : Prop :=
  ∃ req ∈ broker.trace processed init es, req.messageID = msgID ∧ req.consumerID = consumerID ∧
    req.success = true

/-- The store records only what some request reported as processed. -/
def TracksProcessed (es : List BrokerEvent) (b : Broker) : Prop :=
  ∀ msgID consumerID, b.messageStore.mem.ackTracker.lookup msgID = some consumerID →
    Processed es msgID consumerID

def NegativeNeverCounts : Prop := ∀ es b, broker.Run init es b → TracksProcessed es b

/-- A request that reports a failure comes after one that reported the same message of the same
consumer as processed. -/
def ReportsProcessed (es : List BrokerEvent) (b : Broker) (e : BrokerEvent) : Prop :=
  ∀ req, processed b e = some req → req.success = true ∨
    Processed es req.messageID req.consumerID

section Step

variable {b t : Broker} {e : BrokerEvent} (hinv : b.Inv) (hst : broker.Step b e t)
include hinv hst

theorem tracker_of_processed {req : AcknowledgeRequest} (h : processed b e = some req) :
    t.messageStore.mem.ackTracker =
      b.messageStore.mem.ackTracker.insert req.messageID req.consumerID := by
  cases e with
  | acknowledge r =>
    simp only [processed] at h
    split at h
    · rename_i hacc
      obtain rfl := Option.some.inj h
      obtain ⟨hmsg, hconsumer, hlive⟩ := hacc
      have hcall : b.storeCall (.acknowledge r) = some (.acknowledge r.messageID r.consumerID) := by
        rw [storeCall_acknowledge, if_pos ⟨hmsg, hconsumer⟩]
      rw [hinv.store.step_eq (step_world hst hcall), World.effect,
        InMemoryStore.acknowledge_of_live hlive]
    · cases h
  | _ => cases h

theorem tracked_of_not_processed (h : processed b e = none) {msgID consumerID : String}
    (ht : t.messageStore.mem.ackTracker.lookup msgID = some consumerID) :
    b.messageStore.mem.ackTracker.lookup msgID = some consumerID := by
  cases hcall : b.storeCall e with
  | none =>
    rw [step_world_of_none hst hcall] at ht
    exact ht
  | some call =>
    rw [hinv.store.step_eq (step_world hst hcall)] at ht
    cases calls_of_storeCall hcall with
    | @acknowledge req hmsg hconsumer =>
      have hrefused : ¬ SubscriberService.Acceptable b.messageStore.mem req := by
        simpa [processed] using h
      have hdead : ¬ b.messageStore.mem.Live req.messageID :=
        fun hlive => hrefused ⟨hmsg, hconsumer, hlive⟩
      rw [World.effect, InMemoryStore.acknowledge_of_not_live hdead] at ht
      exact ht
    | cleanUp hchannel => rwa [World.effect, World.retire_ackTracker] at ht
    | close => simp [World.effect, World.shutDown, InMemoryStore.newInMemoryStore] at ht
    | _ => exact ht

end Step

theorem processed_snoc {es : List BrokerEvent} {b t : Broker} {e : BrokerEvent}
    (hrun : broker.Run init es b) (hst : broker.Step b e t) (msgID consumerID : String) :
    Processed (es ++ [e]) msgID consumerID ↔ Processed es msgID consumerID ∨
      ∃ req, processed b e = some req ∧ req.messageID = msgID ∧ req.consumerID = consumerID ∧
        req.success = true := by
  simp only [Processed, hrun.trace_snoc _ hst, List.mem_append, Option.mem_toList, or_and_right,
    exists_or]

theorem tracksProcessed_step_iff {es : List BrokerEvent} {b t : Broker} {e : BrokerEvent}
    (hrun : broker.Run init es b) (h : TracksProcessed es b) (hst : broker.Step b e t) :
    TracksProcessed (es ++ [e]) t ↔ ReportsProcessed es b e := by
  have hinv := inv_run hrun
  cases hreq : processed b e with
  | none =>
    refine iff_of_true ?_ (fun req hsome => by simp [hreq] at hsome)
    intro msgID consumerID ht
    rw [processed_snoc hrun hst]
    exact Or.inl (h msgID consumerID (tracked_of_not_processed hinv hst hreq ht))
  | some req =>
    have htracker := tracker_of_processed hinv hst hreq
    constructor
    · intro ht r hr
      obtain rfl := Option.some.inj (hreq.symm.trans hr)
      have hlookup : t.messageStore.mem.ackTracker.lookup req.messageID = some req.consumerID := by
        rw [htracker]
        exact Finmap.lookup_insert _
      rcases (processed_snoc hrun hst _ _).mp (ht _ _ hlookup) with hold | ⟨r, hr, -, -, hsuccess⟩
      · exact Or.inr hold
      · obtain rfl := Option.some.inj (hreq.symm.trans hr)
        exact Or.inl hsuccess
    · intro hreports msgID consumerID ht
      rw [processed_snoc hrun hst]
      rw [htracker, Finmap.lookup_insert_eq] at ht
      split at ht
      · rename_i hid
        obtain rfl := Option.some.inj ht
        rw [hid]
        rcases hreports req hreq with hsuccess | hold
        · exact Or.inr ⟨req, hreq, rfl, rfl, hsuccess⟩
        · exact Or.inl hold
      · exact Or.inl (h msgID consumerID ht)

/-- In every run of the broker: the store records, all along, only what was reported as processed if
and only if every processed request that reports a failure comes after one that reported success. -/
theorem tracksProcessed_iff_reportsProcessed {es : List BrokerEvent} {b : Broker}
    (hrun : broker.Run init es b) :
    broker.Always TracksProcessed init es ↔ broker.EachStep ReportsProcessed init es := by
  refine Machine.always_iff_eachStep (L := fun _ => True) ?_ ?_ hrun (fun _ _ => trivial)
  · intro msgID consumerID h
    simp [init, World.init, InMemoryStore.newInMemoryStore] at h
  · intro es m e t hm _ _ h hst
    exact tracksProcessed_step_iff hm h hst

def reportedFailure : List BrokerEvent :=
  [.publish ⟨some ⟨"m", "t", [], none⟩, false, 0⟩ "" ⟨0, 0⟩ [], .acknowledge ⟨"m", "c", false⟩]

theorem tracksProcessed_iff_reportsProcessed_reportedFailure : ∃ b,
    broker.Run init reportedFailure b ∧ (broker.Always TracksProcessed init reportedFailure ↔
      broker.EachStep ReportsProcessed init reportedFailure) := by
  obtain ⟨b, hrun, -⟩ := Machine.exists_run (M := broker) (fun _ => True) init reportedFailure
    (by decide)
  exact ⟨b, hrun, tracksProcessed_iff_reportsProcessed hrun⟩

theorem not_negativeNeverCounts : ¬ NegativeNeverCounts := by
  intro h
  obtain ⟨b, hrun, htracked⟩ := Machine.exists_run (M := broker)
    (fun b => b.messageStore.mem.ackTracker.lookup "m" = some "c") init reportedFailure (by decide)
  obtain ⟨req, hreq, -, -, hsuccess⟩ := h reportedFailure b hrun "m" "c" htracked
  have htrace : broker.trace processed init reportedFailure = [⟨"m", "c", false⟩] := by decide
  rw [htrace, List.mem_singleton] at hreq
  rw [hreq] at hsuccess
  cases hsuccess

end GpuTel.Mq.Broker
