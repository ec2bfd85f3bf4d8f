import GpuTel.Mq.OnTheWay
import GpuTel.Mq.ServerShutdown

/-!
# The backlog of a stream

For each message in the channel there are three things left to do: the handler receives it, the
handler sends it, the client reads it. Only a publication adds to the backlog.
-/

set_option autoImplicit false

namespace GpuTel.Mq.Broker

open Fifo Transition

/-- What is left to do until a client that has read `n` responses of stream `i` has read all. -/
def backlog (b : Broker) (i n : Nat) : Nat :=
  3 * (b.buffered i).length + 2 * (b.streams i).phase.inHand.length +
    ((b.streams i).delivered.length - n)

/-- The handler of stream `i` moves a message on. -/
def Forwards (i : Nat) (e : BrokerEvent) : Prop := e = .receive i ∨ e = .send i true

instance (i : Nat) : DecidablePred (Forwards i) :=
  fun _ => inferInstanceAs (Decidable (_ ∨ _))

variable {b t : Broker} {e : BrokerEvent} {es : List BrokerEvent} {i n c : Nat}

theorem handled_of_moves {s : Stream} (hinv : b.Inv) (hm : Moves b i e s)
    (hn : n ≤ (b.streams i).delivered.length) (he : e ≠ .send i false) :
    2 * s.phase.inHand.length + (s.delivered.length - n) + (if Forwards i e then 1 else 0) =
      2 * (b.streams i).phase.inHand.length + ((b.streams i).delivered.length - n) +
        3 * (takes i b e).toList.length := by
  cases hm with
  | other hacts =>
    have hnot : ¬ Forwards i e := by
      rintro (rfl | rfl) <;> exact hacts rfl
    have htakes : takes i b e = none := by
      cases e with
      | receive j =>
        have hne : j ≠ i := fun h => hacts (by rw [h]; rfl)
        simp [takes, hne]
      | _ => rfl
    simp [hnot, htakes]
  | start hconfig heq =>
    simp [hinv.unopened (Nat.le_of_eq heq.symm), Stream.idle, Stream.delivered, Phase.inHand,
      Forwards, takes]
  | subscribe hphase => simp [Stream.delivered, Phase.inHand, hphase, Forwards, takes]
  | receive hphase hchannel =>
    simp only [Forwards, hphase, takes, Stream.delivered, Phase.inHand]
    simp
    omega
  | @send ok msg hphase =>
    cases ok with
    | false => exact absurd rfl he
    | true =>
      have hsent : ((b.streams i).send true).delivered.length =
          (b.streams i).delivered.length + 1 := by
        rw [Stream.delivered_send, hphase]
        simp [Phase.inHand]
      have hhand : ((b.streams i).send true).phase.inHand = [] := by
        simp [Stream.send, hphase, Phase.inHand]
      rw [hsent, hhand, hphase]
      simp only [Forwards, takes, Phase.inHand]
      simp
      omega
  | disconnect hlt hdone => simp [Stream.delivered, Forwards, takes]
  | leave hphase hdone => simp [Stream.delivered, Phase.inHand, hphase, Forwards, takes]
  | remove hphase => simp [Stream.delivered, Phase.inHand, hphase, Forwards, takes]

theorem backlog_step (hinv : b.Inv) (hst : broker.Step b e t) (ht : t.MayHold i c)
    (hreal : none ∉ (t.streams i).taken) (hn : n ≤ (b.streams i).delivered.length)
    (he : e ≠ .send i false) :
    t.backlog i n + (if Forwards i e then 1 else 0) =
      b.backlog i n + 3 * (accepted c b e).toList.length := by
  have hbuf := congrArg List.length (buffered_step hinv hst i ht)
  have hhandled := handled_of_moves hinv (step_moves hst i) hn he
  have htakes : (takes i b e).toList.reduceOption.length = (takes i b e).toList.length := by
    rw [taken_of_moves hinv (step_moves hst i)] at hreal
    have hsome := map_some_reduceOption fun h => hreal (List.mem_append_right _ h)
    rw [← List.length_map (f := some), hsome]
  rw [List.length_append, List.length_append, htakes] at hbuf
  unfold backlog
  omega

theorem phase_of_live (hinv : b.Inv) (hleft : b.LeftDone) (hlive : b.Live i c) :
    (b.streams i).phase = .serving ∨ ∃ msg, (b.streams i).phase = .sending msg := by
  have hgone : ¬ ((b.streams i).phase = .leaving ∨ (b.streams i).phase = .finished) := by
    intro hphase
    have hdone := hleft i (by simp [hlive.1]) hphase
    simp [hlive.2] at hdone
  cases hphase : (b.streams i).phase with
  | added => simp [hinv.waiting hphase, Live] at hlive
  | serving => exact Or.inl rfl
  | sending msg => exact Or.inr ⟨msg, rfl⟩
  | leaving => exact absurd (Or.inl hphase) hgone
  | finished => exact absurd (Or.inr hphase) hgone

theorem exists_forwards (hinv : b.Inv) (hleft : b.LeftDone) (hlive : b.Live i c)
    (h : b.buffered i ≠ [] ∨ (b.streams i).phase.inHand ≠ []) :
    ∃ e, Forwards i e ∧ b.guard e := by
  rcases phase_of_live hinv hleft hlive with hserving | ⟨msg, hsending⟩
  · have hbuf : b.buffered i ≠ [] := by
      rcases h with hbuf | hhand
      · exact hbuf
      · simp [hserving, Phase.inHand] at hhand
    rw [buffered, hlive.1, Option.elim_some] at hbuf
    refine ⟨.receive i, Or.inl rfl, ⟨hserving, by simp [hlive.1]⟩, ?_⟩
    intro call hcall
    rw [storeCall, hlive.1] at hcall
    obtain rfl := Option.some.inj hcall
    exact ⟨(hinv.bound hlive.1).1, Or.inl hbuf⟩
  · refine ⟨.send i true, Or.inr rfl, by simp [handlerGuard, hsending, Phase.inHand], ?_⟩
    intro call hcall
    cases hcall

theorem live_of_forwards (hinv : b.Inv) (hst : broker.Step b e t) (hlive : b.Live i c)
    (he : Forwards i e) : t.Live i c := by
  have hm := step_moves hst i
  have hdone := ctxDone_of_moves hinv hm
  rw [Live, channel_of_moves hinv hm, ← Bool.not_eq_true, hdone]
  rcases he with rfl | rfl <;> simp [hlive.1, hlive.2]

theorem sent_of_moves {s : Stream} (hm : Moves b i e s)
    (hsends : ∀ r ∈ (b.streams i).sent, r.2 = true) (he : e ≠ .send i false) :
    ∀ r ∈ s.sent, r.2 = true := by
  cases hm with
  | start hconfig heq => exact List.forall_mem_nil _
  | @send ok msg hphase =>
    cases ok with
    | false => exact absurd rfl he
    | true =>
      intro r hr
      simp only [Stream.send, hphase] at hr
      rcases List.mem_append.mp hr with hold | hnew
      · exact hsends r hold
      · rw [List.mem_singleton.mp hnew]
  | _ => exact hsends

theorem ne_send_false (hst : broker.Step b e t) (hsends : ∀ r ∈ (t.streams i).sent, r.2 = true) :
    e ≠ .send i false := by
  rintro rfl
  have hm := step_moves hst i
  generalize t.streams i = s at hm hsends
  cases hm with
  | other hacts => exact hacts rfl
  | @send ok msg hphase =>
    have hlast := hsends (⟨[msg], false⟩, false) (by simp [Stream.send, hphase])
    cases hlast

end GpuTel.Mq.Broker
