import GpuTel.Pipeline.System

/-!
# What the sinks read

Whatever a sink has read, over all its connections and all its starts, and then what is on the way
to it, is a part of what was published, in the order of publication. Two sinks can miss different
messages but never see the same two in different orders.
-/

set_option autoImplicit false

namespace GpuTel

open GpuTel.Mq GpuTel.Telemetry Fifo Transition

namespace Pipeline

variable {env : Environment}

def published (env : Environment) (p : Pipeline) (e : PipelineEvent) : Option Message :=
  ((toBroker env).label p e).bind Broker.published

/-- The messages of the response that sink `k` reads. A nil message is not one. -/
def read (k : Nat) (p : Pipeline) : PipelineEvent → Option (List Message)
  | .recv i _ => if i = k then (p.nextResponse k).map fun r => r.messages.reduceOption else none
  | _ => none

def ahead (p : Pipeline) (k : Nat) : List Message :=
  (p.connection k).elim [] fun c => p.queue.services.ahead c.stream c.received

/-- What a label can make of the connection of sink `k`. -/
inductive Link (p : Pipeline) (k : Nat) : PipelineEvent → Option Connection → Prop where
  | keep {e : PipelineEvent} : (∀ reply, e ≠ .recv k reply) → Link p k e (p.connection k)
  | lose {e : PipelineEvent} : (∀ reply, e ≠ .recv k reply) → Link p k e none
  | connect {newID : String} : p.connection k = none →
      Link p k (.connect k newID) (some ⟨p.queue.services.opened, 0⟩)
  | recv {reply : Collector.Reply} {c : Connection} {r : SubscribeResponse} :
      p.connection k = some c →
      (p.queue.services.streams c.stream).delivered[c.received]? = some r →
      Link p k (.recv k reply) (some ⟨c.stream, c.received + 1⟩)

theorem connection_setSink (p : Pipeline) (i k : Nat) (sink : Option Sink) :
    (p.setSink i sink).connection k = if k = i then sink.bind Sink.connection
      else p.connection k := by
  simp only [connection, setSink, Function.update_apply]
  split <;> rfl

section Step

variable {p q : Pipeline} {e : PipelineEvent} (hst : (pipeline env).Step p e q)
include hst

theorem step_sinks : q.sinks = (p.advance env e).sinks := by
  rw [step_advance hst]

theorem step_link (k : Nat) : Link p k e (q.connection k) := by
  have hg : p.processGuard e := hst.1.1
  have hsame : q.connection k = (p.advance env e).connection k := by
    rw [connection, step_sinks hst]
    rfl
  rw [hsame]
  cases e with
  | startSink i config consumerGroup host =>
    rw [advance, connection_setSink]
    split
    · exact .lose (by simp)
    · exact .keep (by simp)
  | connect i newID =>
    rw [advance, connection_setSink]
    split
    · rename_i heq
      subst heq
      obtain ⟨sink, hsink⟩ := Option.isSome_iff_exists.mp hg.1
      rw [hsink, Option.map_some, Option.bind_some, connected]
      cases hconfig : SubscriberService.configure sink.request newID with
      | error status => exact .lose (by simp)
      | ok config => exact .connect hg.2
    · exact .keep (by simp)
  | recv i reply =>
    rw [advance, connection_setSink]
    split
    · rename_i heq
      subst heq
      obtain ⟨r, hr⟩ := Option.isSome_iff_exists.mp hg.1
      obtain ⟨c, hc, hread⟩ := Option.bind_eq_some_iff.mp hr
      obtain ⟨sink, hsink, hsc⟩ := Option.bind_eq_some_iff.mp hc
      rw [hsink, Option.map_some, Option.bind_some]
      simp only [received, hsc, Option.map_some]
      exact .recv hc hread
    · rename_i hne
      exact .keep fun reply' h => hne (PipelineEvent.recv.inj h).1.symm
  | giveUp i =>
    rw [advance, connection_setSink]
    split
    · cases p.sinks i <;> exact .lose (by simp)
    · exact .keep (by simp)
  | _ => exact .keep (by simp)

theorem step_services_of_none (hd : (toBroker env).label p e = none) :
    q.queue.services = p.queue.services := (toBroker env).stutter hst hd

theorem step_services {d : BrokerEvent} (hd : (toBroker env).label p e = some d) :
    broker.Step p.queue.services d q.queue.services := (toBroker env).step hst hd

end Step

theorem label_recv (p : Pipeline) (k : Nat) (reply : Collector.Reply) :
    (toBroker env).label p (.recv k reply) = none := by
  simp only [toBroker, Simulation.trans, toServer, serverEvent, Server.toBroker]
  split <;> rfl

theorem label_connect {p : Pipeline} {k : Nat} {newID : String} {d : BrokerEvent}
    (h : (toBroker env).label p (.connect k newID) = some d) :
    ∃ sink, p.sinks k = some sink ∧ d = .start sink.request newID := by
  obtain ⟨sd, hsd, hd⟩ := Option.bind_eq_some_iff.mp h
  obtain ⟨sink, hsink, rfl⟩ := Option.map_eq_some_iff.mp hsd
  exact ⟨sink, hsink, (Option.some.inj hd).symm⟩

section Step

variable {p q : Pipeline} {e : PipelineEvent} (hinv : p.queue.services.Inv)
variable (hst : (pipeline env).Step p e q)
include hinv hst

theorem services_ahead_step (i n : Nat) : (q.queue.services.ahead i n).Sublist
    (p.queue.services.ahead i n ++ (published env p e).toList) := by
  unfold published
  cases hd : (toBroker env).label p e with
  | none =>
    rw [step_services_of_none hst hd]
    exact List.sublist_append_left _ _
  | some d => exact Broker.ahead_step hinv (step_services hst hd) i n

/-- What a sink reads, and what is on the way to it then, was on the way to it, or is published just
now. -/
theorem read_append_ahead_step (k : Nat) :
    ((read k p e).toList.flatten ++ q.ahead k).Sublist
      (p.ahead k ++ (published env p e).toList) := by
  have hlink := step_link hst k
  unfold ahead
  generalize q.connection k = link at hlink
  have hnot : (∀ reply, e ≠ .recv k reply) → read k p e = none := by
    intro hne
    cases e with
    | recv i reply =>
      have hik : i ≠ k := fun h => hne reply (by rw [h])
      simp [read, hik]
    | _ => rfl
  cases hlink with
  | keep hne =>
    rw [hnot hne]
    cases hc : p.connection k with
    | none => exact List.nil_sublist _
    | some c => exact services_ahead_step hinv hst c.stream c.received
  | lose hne =>
    rw [hnot hne]
    exact List.nil_sublist _
  | connect hnone =>
    have hfresh := services_ahead_step hinv hst p.queue.services.opened 0
    rw [Broker.ahead_of_unopened hinv _ 0 (Nat.le_refl _)] at hfresh
    rw [hnone]
    exact hfresh
  | @recv reply c r hc hr =>
    have hsame : q.queue.services = p.queue.services :=
      step_services_of_none hst (label_recv p k reply)
    have hnext : p.nextResponse k = some r := by simp [nextResponse, hc, hr]
    have hfront : (p.queue.services.streams c.stream).front c.received =
        r.messages ++ (p.queue.services.streams c.stream).front (c.received + 1) := by
      obtain ⟨hlt, hget⟩ := List.getElem?_eq_some_iff.mp hr
      rw [Stream.front, Stream.front, List.drop_eq_getElem_cons hlt, hget, List.flatMap_cons,
        List.append_assoc]
    rw [hsame, hc]
    simp only [read, if_true, hnext, Option.map_some, Option.toList_some, List.flatten_singleton,
      Option.elim_some, Broker.ahead, hfront, List.reduceOption_append, List.append_assoc]
    exact List.Sublist.append_left (List.Sublist.append_left (List.sublist_append_left _ _) _) _

end Step

/-- In every run, what a sink has read and then what is on the way to it were published in this
order, each message as often at least. -/
theorem read_append_ahead_sublist {p₀ p : Pipeline} {es : List PipelineEvent} (h₀ : p₀.Launched)
    (hrun : (pipeline env).Run p₀ es p) (k : Nat) :
    (((pipeline env).trace (read k) p₀ es).flatten ++ p.ahead k).Sublist
      ((pipeline env).trace (published env) p₀ es) := by
  have hnone : p₀.ahead k = [] := by
    rw [ahead, h₀.connection k]
    rfl
  refine hrun.history (H := fun es p =>
    (((pipeline env).trace (read k) p₀ es).flatten ++ p.ahead k).Sublist
      ((pipeline env).trace (published env) p₀ es)) (by simp [Machine.trace, hnone]) ?_
  intro es m e q hm ih hst
  rw [hm.trace_snoc _ hst, hm.trace_snoc _ hst, List.flatten_append, List.append_assoc]
  calc (((pipeline env).trace (read k) p₀ es).flatten ++
          ((read k m e).toList.flatten ++ q.ahead k)).Sublist
        (((pipeline env).trace (read k) p₀ es).flatten ++
          (m.ahead k ++ (published env m e).toList)) :=
        (read_append_ahead_step (services_inv h₀ hm) hst k).append_left _
    _ = (((pipeline env).trace (read k) p₀ es).flatten ++ m.ahead k) ++
          (published env m e).toList := by rw [List.append_assoc]
    List.Sublist _ _ := ih.append_right _

end Pipeline

end GpuTel
