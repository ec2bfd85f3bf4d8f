import GpuTel.Mq.WorldInvariant

/-!
# What a subscription receives

For one channel: what its owner received followed by what is still buffered is the list of messages
that were stored on its topic while it was registered and had room. Other subscriptions do not enter
into it: the channel refines a feed that sees only its own events.
-/

set_option autoImplicit false

namespace GpuTel.Mq.World

open Fifo Transition

/-- The message taken from channel `c`. A receive from a closed and drained channel takes none. -/
def receivedBy (c : Nat) (w : World) : Event → Option Message
  | .receive d => if d = c then (w.subs c).ch.received else none
  | _ => none

/-- The message stored on the topic of channel `c` while `c` is registered and has room. -/
def acceptedBy (c : Nat) (w : World) : Event → Option Message
  | .store msg newID now _ =>
    if msg.topic = (w.subs c).topic ∧ w.Registered c ∧ (w.subs c).ch.buf.length < 100 then
      some (msg.filledIn newID now)
    else none
  | _ => none

/-- What concerns channel `c`: its own registration, receives and clean-up, the messages stored on
its topic, and the closing of the store. -/
def view (c : Nat) (w : World) : Event → Option (FeedEvent Message)
  | .subscribe _ _ => if c = w.made then some .attach else none
  | .store msg newID now _ =>
    if c < w.made ∧ msg.topic = (w.subs c).topic then some (.offer (msg.filledIn newID now))
    else none
  | .receive d => if d = c then some .receive else none
  | .cleanUp d => if d = c then some .detach else none
  | .close _ => if c < w.made then some .detach else none
  | _ => none

section Step

variable {w t : World} {e : Event} (hinv : w.Inv) (hst : world.Step w e t) (c : Nat)
include hinv

theorem deliver_buf (msg : Message) : ((w.deliver msg).subs c).ch.buf =
    if msg.topic = (w.subs c).topic ∧ w.Registered c ∧ (w.subs c).ch.buf.length < 100 then
      (w.subs c).ch.buf ++ [msg] else (w.subs c).ch.buf := by
  simp only [deliver, hinv.mem_members_iff]
  by_cases hreg : (w.subs c).topic = msg.topic ∧ w.Registered c
  · rw [if_pos hreg]
    simp only [Chan.offer_buf, hreg.1, hreg.2, true_and]
  · rw [if_neg hreg, if_neg fun h => hreg ⟨h.1.symm, h.2.1⟩]

include hst

theorem received_append_buf_step :
    (receivedBy c w e).toList ++ (t.subs c).ch.buf =
      (w.subs c).ch.buf ++ (acceptedBy c w e).toList := by
  rw [hinv.step_eq hst]
  cases e with
  | store msg newID now order =>
    simp only [effect, deliver_buf hinv, receivedBy, acceptedBy, stamp_eq, Message.filledIn_topic]
    by_cases hacc : msg.topic = (w.subs c).topic ∧ w.Registered c ∧ (w.subs c).ch.buf.length < 100
    · simp [hacc]
    · simp [hacc]
  | subscribe ctxDone topic =>
    simp only [effect, subscribe, receivedBy, acceptedBy, Function.update_apply]
    split
    · rename_i heq
      rw [hinv.unmade (le_of_eq heq.symm)]
      rfl
    · simp
  | receive d =>
    simp only [effect, setChan, setSub_subs, receivedBy, acceptedBy]
    by_cases hd : d = c
    · subst hd
      simpa using Chan.received_append (w.subs d).ch
    · simp [hd, Ne.symm hd]
  | cancel d =>
    have hbuf : ((w.setSub d { w.subs d with ctxDone := true }).subs c).ch.buf =
        (w.subs c).ch.buf := setSub_proj (fun sub => sub.ch.buf) (by rfl) c
    simpa [effect, receivedBy, acceptedBy] using hbuf
  | cleanUp d => simp [effect, retire_buf, receivedBy, acceptedBy]
  | close order =>
    simp only [effect, shutDown, receivedBy, acceptedBy]
    split <;> simp
  | _ => simp [effect, receivedBy, acceptedBy]

end Step

variable {w : World} {es : List Event}

theorem received_append_buf (hrun : world.Run init es w) (c : Nat) :
    world.trace (receivedBy c) init es ++ (w.subs c).ch.buf =
      world.trace (acceptedBy c) init es := by
  refine hrun.history (H := fun es w => world.trace (receivedBy c) init es ++ (w.subs c).ch.buf =
    world.trace (acceptedBy c) init es) rfl ?_
  intro es m e t hm ih hst
  rw [hm.trace_snoc _ hst, hm.trace_snoc _ hst, ← ih, List.append_assoc, List.append_assoc,
    received_append_buf_step (inv_run hm) hst c]

theorem acceptedBy_eq_some {c : Nat} {e : Event} {msg : Message} (hinv : w.Inv)
    (h : acceptedBy c w e = some msg) : msg.topic = (w.subs c).topic ∧ c < w.made := by
  cases e with
  | store m newID now order =>
    simp only [acceptedBy] at h
    split at h
    · rename_i hacc
      rw [← Option.some.inj h]
      exact ⟨hacc.1, hinv.made_lt hacc.2.1⟩
    · cases h
  | _ => cases h

theorem registered_of_acceptedBy {c : Nat} {e : Event} {msg : Message}
    (h : acceptedBy c w e = some msg) : w.Registered c := by
  cases e with
  | store m newID now order =>
    simp only [acceptedBy] at h
    split at h
    · rename_i hacc
      exact hacc.2.1
    · cases h
  | _ => cases h

theorem accepted_topic (hrun : world.Run init es w) (c : Nat) :
    ∀ msg ∈ world.trace (acceptedBy c) init es, msg.topic = (w.subs c).topic := by
  intro msg hmsg
  obtain ⟨before, e, after, v, rfl, hbefore, hacc⟩ := hrun.mem_trace hmsg
  have hv := inv_run hbefore
  obtain ⟨htopic, hmade⟩ := acceptedBy_eq_some hv hacc
  obtain ⟨v', hv', hrest⟩ := Machine.Run.append_iff.mp hrun
  obtain rfl := hv'.det hbefore
  have hkeep := hrest.invariant
    (I := fun s => s.Inv ∧ c < s.made ∧ (s.subs c).topic = (v'.subs c).topic)
    (fun s e t hs hst => ⟨inv_step hs.1 hst, Nat.lt_of_lt_of_le hs.2.1 (made_le_step hs.1 hst),
      (topic_step hs.1 hst hs.2.1).trans hs.2.2⟩) ⟨hv, hmade, rfl⟩
  rw [htopic, hkeep.2.2]

def feed (c : Nat) (received : List Message) (w : World) : Feed Message where
  attached := decide (w.Registered c)
  pending := (w.subs c).ch.buf
  received := received

theorem feed_congr {c : Nat} {received received' : List Message} {w t : World}
    (hreg : t.Registered c ↔ w.Registered c) (hbuf : (t.subs c).ch.buf = (w.subs c).ch.buf)
    (hrec : received' = received) : feed c received' t = feed c received w := by
  simp only [feed, hreg, hbuf, hrec]

theorem registered_setSub (w : World) {c : Nat} {sub : Subscription}
    (h : sub.topic = (w.subs c).topic) (d : Nat) :
    (w.setSub c sub).Registered d ↔ w.Registered d := by
  unfold Registered
  rw [setSub_proj Subscription.topic h d]
  rfl

theorem registered_deliver (w : World) (msg : Message) (c : Nat) :
    (w.deliver msg).Registered c ↔ w.Registered c := by
  have htopic : ((w.deliver msg).subs c).topic = (w.subs c).topic := by
    simp only [deliver]
    split <;> rfl
  unfold Registered
  rw [htopic]
  rfl

theorem registered_retire (w : World) (c d : Nat) :
    (w.retire d).Registered c ↔ w.Registered c ∧ c ≠ d := by
  unfold Registered
  rw [retire_topic]
  unfold retire
  split
  · simp only [setSub_mem, SetMap.mem_members_remove]
    constructor
    · rintro ⟨hmem, hne⟩
      exact ⟨hmem, fun heq => hne ⟨by rw [heq], heq⟩⟩
    · rintro ⟨hmem, hne⟩
      exact ⟨hmem, fun heq => hne heq.2⟩
  · rename_i hreg
    constructor
    · intro hmem
      exact ⟨hmem, fun heq => hreg (heq ▸ hmem)⟩
    · exact And.left

theorem feed_deliver {w : World} (hinv : w.Inv) (c : Nat) (received : List Message)
    (msg : Message) : feed c received (w.deliver msg) =
      if c < w.made ∧ msg.topic = (w.subs c).topic then
        (feed c received w).step 100 (.offer msg)
      else feed c received w := by
  have hreg := registered_deliver w msg c
  have hbuf := deliver_buf hinv c msg
  by_cases hview : c < w.made ∧ msg.topic = (w.subs c).topic
  · rw [if_pos hview, Feed.step]
    by_cases hroom : w.Registered c ∧ (w.subs c).ch.buf.length < 100
    · simp [feed, hreg, hbuf, hview.2, hroom.1, hroom.2]
    · have hfull : ¬ ((feed c received w).attached = true ∧
          (feed c received w).pending.length < 100) := by simpa [feed] using hroom
      rw [if_neg hfull]
      refine feed_congr hreg ?_ rfl
      rw [hbuf, if_neg fun h => hroom h.2]
  · rw [if_neg hview]
    refine feed_congr hreg ?_ rfl
    rw [hbuf, if_neg fun h => hview ⟨hinv.made_lt h.2.1, h.1⟩]

theorem feed_subscribe {w : World} (hinv : w.Inv) (c : Nat) (received : List Message)
    (ctxDone : Bool) (topic : String) : feed c received (w.subscribe ctxDone topic) =
      if c = w.made then (feed c received w).step 100 .attach else feed c received w := by
  by_cases hc : c = w.made
  · subst hc
    have hblank := hinv.unmade (le_refl w.made)
    simp [feed, subscribe, Registered, SetMap.mem_members_add, Feed.step, hblank, blank]
  · rw [if_neg hc]
    refine feed_congr ?_ ?_ rfl
    · simp [subscribe, Registered, SetMap.mem_members_add, hc]
    · simp [subscribe, hc]

theorem feed_receive (w : World) (c d : Nat) (received : List Message) :
    feed c (received ++ (receivedBy c w (.receive d)).toList)
        (w.setChan d (w.subs d).ch.afterReceive) =
      if d = c then (feed c received w).step 100 .receive else feed c received w := by
  have hreg : (w.setChan d (w.subs d).ch.afterReceive).Registered c ↔ w.Registered c :=
    registered_setSub w (by rfl) c
  have hbuf : ((w.setChan d (w.subs d).ch.afterReceive).subs c).ch.buf =
      if d = c then (w.subs c).ch.buf.tail else (w.subs c).ch.buf := by
    rw [setChan, setSub_subs]
    by_cases hd : d = c
    · simp [hd]
    · simp [hd, Ne.symm hd]
  simp only [receivedBy]
  by_cases hd : d = c
  · subst hd
    simp [feed, hreg, hbuf, Feed.step, Chan.received]
  · rw [if_neg hd, if_neg hd]
    refine feed_congr hreg ?_ (List.append_nil received)
    rw [hbuf, if_neg hd]

theorem feed_retire (w : World) (c d : Nat) (received : List Message) :
    feed c received (w.retire d) =
      if d = c then (feed c received w).step 100 .detach else feed c received w := by
  have hreg := registered_retire w c d
  by_cases hd : d = c
  · subst hd
    simp [feed, hreg, retire_buf, Feed.step]
  · rw [if_neg hd]
    exact feed_congr (by rw [hreg, and_iff_left (Ne.symm hd)]) (retire_buf w d c) rfl

theorem feed_shutDown {w : World} (hinv : w.Inv) (c : Nat) (received : List Message) :
    feed c received w.shutDown =
      if c < w.made then (feed c received w).step 100 .detach else feed c received w := by
  have hreg : ¬ w.shutDown.Registered c := by
    simp [Registered, shutDown, InMemoryStore.newInMemoryStore]
  have hbuf : (w.shutDown.subs c).ch.buf = (w.subs c).ch.buf := by
    simp only [shutDown]
    split <;> rfl
  by_cases hc : c < w.made
  · simp [feed, hreg, hbuf, hc, Feed.step]
  · rw [if_neg hc]
    exact feed_congr (iff_of_false hreg fun h => hc (hinv.made_lt h)) hbuf rfl

theorem feed_step {w t : World} {e : Event} (hinv : w.Inv) (hst : world.Step w e t) (c : Nat)
    (received : List Message) : feed c (received ++ (receivedBy c w e).toList) t =
      ((view c w e).toList).foldl (Feed.step 100) (feed c received w) := by
  rw [hinv.step_eq hst]
  cases e with
  | store msg newID now order =>
    simp only [effect, view, receivedBy, Option.toList_none, List.append_nil]
    rw [feed_deliver hinv, stamp_eq, Message.filledIn_topic]
    split <;> rfl
  | subscribe ctxDone topic =>
    simp only [effect, view, receivedBy, Option.toList_none, List.append_nil]
    rw [feed_subscribe hinv]
    split <;> rfl
  | receive d =>
    simp only [effect, view]
    rw [feed_receive]
    split <;> rfl
  | cancel d =>
    refine feed_congr (registered_setSub w (by rfl) c) ?_ (List.append_nil received)
    exact setSub_proj (fun sub => sub.ch.buf) (by rfl) c
  | cleanUp d =>
    simp only [effect, view, receivedBy, Option.toList_none, List.append_nil]
    rw [feed_retire]
    split <;> rfl
  | close order =>
    simp only [effect, view, receivedBy, Option.toList_none, List.append_nil]
    rw [feed_shutDown hinv]
    split <;> rfl
  | acknowledge msgID consumerID =>
    refine feed_congr ?_ rfl (List.append_nil received)
    simp only [effect, Registered, InMemoryStore.acknowledge_subscribers]
  | getMessages topic consumerID batchSize order =>
    refine feed_congr ?_ rfl (List.append_nil received)
    simp only [effect, Registered, InMemoryStore.getMessages_subscribers]
  | _ => exact feed_congr Iff.rfl rfl (List.append_nil received)

/-- A subscription refines the feed that sees only its own events. -/
theorem feed_run (hrun : world.Run init es w) (c : Nat) :
    feed c (world.trace (receivedBy c) init es) w =
      Feed.run 100 (world.trace (view c) init es) := by
  refine hrun.history (H := fun es w => feed c (world.trace (receivedBy c) init es) w =
    Feed.run 100 (world.trace (view c) init es)) ?_ ?_
  · have hreg : ¬ init.Registered c := by simp [Registered, init, InMemoryStore.newInMemoryStore]
    simp only [feed, hreg, decide_false]
    rfl
  · intro es m e t hm ih hst
    rw [hm.trace_snoc _ hst, hm.trace_snoc _ hst, Feed.run_append, ← ih]
    exact feed_step (inv_run hm) hst c _

theorem registered_step {w t : World} {e : Event} (hinv : w.Inv) (hst : world.Step w e t) {c : Nat}
    (hview : view c w e ≠ some .detach) (hreg : w.Registered c ∨ view c w e = some .attach) :
    t.Registered c := by
  have hfeed := congrArg Feed.attached (feed_step hinv hst c [])
  rw [show (feed c _ t).attached = decide (t.Registered c) from rfl] at hfeed
  refine of_decide_eq_true (hfeed.trans ?_)
  cases hv : view c w e with
  | none => simpa [feed, hv] using hreg
  | some ev =>
    cases ev with
    | attach => rfl
    | offer msg =>
      have hw : w.Registered c := hreg.resolve_right (by simp [hv])
      simp only [Option.toList_some, List.foldl_cons, List.foldl_nil, Feed.step]
      split <;> simp [feed, hw]
    | receive =>
      have hw : w.Registered c := hreg.resolve_right (by simp [hv])
      simp [feed, Feed.step, hw]
    | detach => exact absurd hv hview

theorem view_eq_detach {w : World} {e : Event} {c : Nat} (hg : w.guard e)
    (h : view c w e = some .detach) :
    (w.subs c).ctxDone = true ∨ ∃ order, e = .close order := by
  cases e with
  | cleanUp d =>
    simp only [view] at h
    split at h
    · rename_i heq
      subst heq
      exact Or.inl hg.2.1
    · cases h
  | close order => exact Or.inr ⟨order, rfl⟩
  | store msg newID now order =>
    simp only [view] at h
    split at h <;> cases h
  | subscribe ctxDone topic =>
    simp only [view] at h
    split at h <;> cases h
  | receive d =>
    simp only [view] at h
    split at h <;> cases h
  | _ => cases h

theorem view_of_new {w t : World} {e : Event} (hinv : w.Inv) (hst : world.Step w e t) {c : Nat}
    (hold : w.made ≤ c) (hnew : c < t.made) : view c w e = some .attach := by
  rw [hinv.step_eq hst] at hnew
  cases e with
  | subscribe ctxDone topic =>
    have heq : c = w.made := Nat.le_antisymm (Nat.le_of_lt_succ hnew) hold
    simp [view, heq]
  | cleanUp d =>
    simp only [effect, retire_made] at hnew
    exact absurd hnew (Nat.not_lt.mpr hold)
  | _ => exact absurd hnew (Nat.not_lt.mpr hold)

theorem registered_run {w : World} {es : List Event} (hrun : world.Run init es w)
    (hopen : ∀ e ∈ es, ∀ order, e ≠ .close order) {c : Nat} (hc : c < w.made)
    (hdone : (w.subs c).ctxDone = false) : w.Registered c := by
  have hI := hrun.invariant_on (L := fun e => ∀ order, e ≠ .close order)
    (I := fun w => w.Inv ∧ ∀ c < w.made, (w.subs c).ctxDone = false → w.Registered c) ?_ hopen
    ⟨inv_init, fun c hc => absurd hc (Nat.not_lt_zero c)⟩
  · exact hI.2 c hc hdone
  · rintro s e t hL ⟨hinv, hreg⟩ hst
    refine ⟨inv_step hinv hst, fun d hd htdone => ?_⟩
    rcases Nat.lt_or_ge d s.made with hlt | hge
    · have hsdone : (s.subs d).ctxDone = false := by
        rw [← Bool.not_eq_true] at htdone ⊢
        exact fun h => htdone ((subscription_step hinv hst hlt).2.1.mpr (Or.inl h))
      refine registered_step hinv hst ?_ (Or.inl (hreg d hlt hsdone))
      intro hview
      rcases view_eq_detach hst.1 hview with hcontra | ⟨order, he⟩
      · simp [hsdone] at hcontra
      · exact hL order he
    · have hview := view_of_new hinv hst hge hd
      exact registered_step hinv hst (by simp [hview]) (Or.inr hview)

/-- For every subscription of every run: what was received and then what is buffered are, in order,
the messages stored on its topic while it was registered and had room; they are all of its topic; at
most 100 are buffered; and the outcome is determined by the subscription's own view of the run. -/
theorem subscription_fifo (hrun : world.Run init es w) (c : Nat) :
    world.trace (receivedBy c) init es ++ (w.subs c).ch.buf =
      world.trace (acceptedBy c) init es ∧
    (∀ msg ∈ world.trace (receivedBy c) init es ++ (w.subs c).ch.buf,
      msg.topic = (w.subs c).topic) ∧
    (w.subs c).ch.buf.length ≤ 100 ∧
    (∀ es' w' c', world.Run init es' w' →
      world.trace (view c') init es' = world.trace (view c) init es →
      world.trace (receivedBy c') init es' = world.trace (receivedBy c) init es ∧
        (w'.subs c').ch.buf = (w.subs c).ch.buf) := by
  have hfifo := received_append_buf hrun c
  refine ⟨hfifo, ?_, (w.subs c).ch.fits, ?_⟩
  · rw [hfifo]
    exact accepted_topic hrun c
  · intro es' w' c' hrun' hview
    have hfeed : feed c' (world.trace (receivedBy c') init es') w' =
        feed c (world.trace (receivedBy c) init es) w := by
      rw [feed_run hrun', feed_run hrun, hview]
    exact ⟨congrArg Feed.received hfeed, congrArg Feed.pending hfeed⟩

def twoReaders : List Event :=
  [.subscribe false "t", .subscribe false "t", .store ⟨"m", "t", [], none⟩ "" ⟨0, 0⟩ [1, 0],
    .store ⟨"n", "u", [], none⟩ "" ⟨0, 0⟩ [], .receive 0]

theorem subscription_fifo_twoReaders : ∃ w, world.Run init twoReaders w ∧
    (w.subs 1).ch.buf.length = 1 ∧
    world.trace (receivedBy 0) init twoReaders ++ (w.subs 0).ch.buf =
      world.trace (acceptedBy 0) init twoReaders ∧ (w.subs 0).ch.buf.length ≤ 100 := by
  obtain ⟨w, hrun, hlen⟩ := Machine.exists_run (M := world) (fun w => (w.subs 1).ch.buf.length = 1)
    init twoReaders (by decide)
  have h := subscription_fifo hrun 0
  exact ⟨w, hrun, hlen, h.1, h.2.2.1⟩

end GpuTel.Mq.World
