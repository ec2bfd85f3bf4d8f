import GpuTel.Mq.World

/-!
# The invariant of the store with its channels

In a state of the invariant no enabled label faults, and what a label does can be said without the
loops in it: `effect`. Everything proved about runs of the machine goes through `Inv.step_eq`.
-/

set_option autoImplicit false

namespace GpuTel.Mq

open Fifo Transition

namespace World

structure Inv (w : World) : Prop where
  coherent : w.mem.Coherent
  /-- Only open channels are registered, each under the topic it was made for. -/
  isOpen : ∀ {topic c}, c ∈ w.mem.subscribers.members topic → (w.subs c).ch.closed = false
  topic_eq : ∀ {topic c}, c ∈ w.mem.subscribers.members topic → (w.subs c).topic = topic
  made_lt : ∀ {topic c}, c ∈ w.mem.subscribers.members topic → c < w.made
  unmade : ∀ {c}, w.made ≤ c → w.subs c = blank

theorem inv_init : init.Inv := by
  refine ⟨InMemoryStore.coherent_new, ?_, ?_, ?_, fun _ => rfl⟩ <;>
    intro topic c h <;> simp [init, InMemoryStore.newInMemoryStore] at h

def Registered (w : World) (c : Nat) : Prop := c ∈ w.mem.subscribers.members (w.subs c).topic

instance (w : World) (c : Nat) : Decidable (w.Registered c) :=
  inferInstanceAs (Decidable (c ∈ w.mem.subscribers.members (w.subs c).topic))

theorem Inv.mem_members_iff {w : World} (h : w.Inv) (topic : String) (c : Nat) :
    c ∈ w.mem.subscribers.members topic ↔ (w.subs c).topic = topic ∧ w.Registered c := by
  constructor
  · intro hc
    have htopic := h.topic_eq hc
    exact ⟨htopic, by rw [Registered, htopic]; exact hc⟩
  · rintro ⟨rfl, hc⟩
    exact hc

def deliver (w : World) (msg : Message) : World where
  mem := w.mem.put msg
  subs c :=
    if c ∈ w.mem.subscribers.members msg.topic then
      { w.subs c with ch := (w.subs c).ch.offer msg }
    else w.subs c
  made := w.made

def retire (w : World) (c : Nat) : World :=
  if w.Registered c then
    { w with mem := { w.mem with
      subscribers := w.mem.subscribers.remove (w.subs c).topic c } }.setSub c
      { w.subs c with ch := { (w.subs c).ch with closed := true }, cleanedUp := true }
  else w.setSub c { w.subs c with cleanedUp := true }

def shutDown (w : World) : World where
  mem := .newInMemoryStore
  subs c :=
    if w.Registered c then { w.subs c with ch := { (w.subs c).ch with closed := true } }
    else w.subs c
  made := w.made

def effect (w : World) : Event → World
  | .store msg newID now _ => w.deliver (stamp msg newID now)
  | .get _ => w
  | .delete id => { w with mem := w.mem.delete id }
  | .subscribe ctxDone topic => w.subscribe ctxDone topic
  | .receive c => w.setChan c (w.subs c).ch.afterReceive
  | .cancel c => w.setSub c { w.subs c with ctxDone := true }
  | .cleanUp c => w.retire c
  | .acknowledge msgID consumerID => { w with mem := (w.mem.acknowledge msgID consumerID).2 }
  | .addSubscriber subscriber => { w with mem := w.mem.addSubscriber subscriber }
  | .removeSubscriber consumerID topic =>
    { w with mem := w.mem.removeSubscriber consumerID topic }
  | .getMessages topic consumerID batchSize order =>
    { w with mem := (w.mem.getMessages topic consumerID batchSize order).2 }
  | .close _ => w.shutDown

@[simp] theorem setSub_mem (w : World) (c : Nat) (sub : Subscription) :
    (w.setSub c sub).mem = w.mem := rfl

@[simp] theorem setSub_made (w : World) (c : Nat) (sub : Subscription) :
    (w.setSub c sub).made = w.made := rfl

theorem setSub_subs (w : World) (c d : Nat) (sub : Subscription) :
    (w.setSub c sub).subs d = if d = c then sub else w.subs d := by
  simp [setSub, Function.update_apply]

theorem setSub_proj {α : Type} (f : Subscription → α) {w : World} {c : Nat} {sub : Subscription}
    (h : f sub = f (w.subs c)) (d : Nat) : f ((w.setSub c sub).subs d) = f (w.subs d) := by
  rw [setSub_subs]
  split
  · rename_i heq
    rw [h, heq]
  · rfl

section Retire

variable (w : World) (c : Nat)

@[simp] theorem retire_messages : (w.retire c).mem.messages = w.mem.messages := by
  unfold retire
  split <;> rfl

@[simp] theorem retire_topics : (w.retire c).mem.topics = w.mem.topics := by
  unfold retire
  split <;> rfl

@[simp] theorem retire_ackTracker : (w.retire c).mem.ackTracker = w.mem.ackTracker := by
  unfold retire
  split <;> rfl

@[simp] theorem retire_made : (w.retire c).made = w.made := by
  unfold retire
  split <;> rfl

theorem mem_members_retire {topic : String} {d : Nat}
    (h : d ∈ (w.retire c).mem.subscribers.members topic) :
    d ∈ w.mem.subscribers.members topic := by
  unfold retire at h
  split at h
  · exact ((SetMap.mem_members_remove _ _ _ _ _).mp h).1
  · exact h

end Retire

theorem retire_buf (w : World) (c d : Nat) : ((w.retire c).subs d).ch.buf = (w.subs d).ch.buf := by
  unfold retire
  split
  · exact setSub_proj (fun sub => sub.ch.buf) (by rfl) d
  · exact setSub_proj (fun sub => sub.ch.buf) (by rfl) d

theorem retire_topic (w : World) (c d : Nat) : ((w.retire c).subs d).topic = (w.subs d).topic := by
  unfold retire
  split
  · exact setSub_proj Subscription.topic (by rfl) d
  · exact setSub_proj Subscription.topic (by rfl) d

theorem notify_eq (msg : Message) {order : List Nat} (horder : order.Nodup) (w : World)
    (hopen : ∀ c ∈ order, (w.subs c).ch.closed = false) :
    notify msg order w = .ok { w with
      subs := fun c => if c ∈ order then { w.subs c with ch := (w.subs c).ch.offer msg }
        else w.subs c } := by
  induction order generalizing w with
  | nil => simp [notify]
  | cons c rest ih =>
    obtain ⟨hc, hrest⟩ := List.nodup_cons.mp horder
    have hne : ∀ d ∈ rest, d ≠ c := fun d hd heq => hc (heq ▸ hd)
    have hopen' : ∀ d ∈ rest,
        ((w.setChan c ((w.subs c).ch.offer msg)).subs d).ch.closed = false := by
      intro d hd
      rw [setChan, setSub_subs, if_neg (hne d hd)]
      exact hopen d (List.mem_cons_of_mem c hd)
    have hsend := Chan.trySend_ok (hopen c List.mem_cons_self) msg
    simp only [notify, hsend, bind, Except.bind]
    rw [ih hrest _ hopen']
    congr 2
    funext d
    rw [setChan, setSub_subs]
    by_cases hd : d = c
    · simp [hd, hc]
    · simp [hd]

theorem closeAll_eq {order : List (String × Nat)} (horder : (order.map Prod.snd).Nodup)
    (w : World) (hopen : ∀ c ∈ order.map Prod.snd, (w.subs c).ch.closed = false) :
    closeAll order w = .ok { w with
      subs := fun c => if c ∈ order.map Prod.snd then
        { w.subs c with ch := { (w.subs c).ch with closed := true } } else w.subs c } := by
  induction order generalizing w with
  | nil => simp [closeAll]
  | cons p rest ih =>
    obtain ⟨topic, c⟩ := p
    rw [List.map_cons] at horder hopen
    obtain ⟨hc, hrest⟩ := List.nodup_cons.mp horder
    have hne : ∀ d ∈ rest.map Prod.snd, d ≠ c := fun d hd heq => hc (heq ▸ hd)
    have hopen' : ∀ d ∈ rest.map Prod.snd,
        ((w.setChan c { (w.subs c).ch with closed := true }).subs d).ch.closed = false := by
      intro d hd
      rw [setChan, setSub_subs, if_neg (hne d hd)]
      exact hopen d (List.mem_cons_of_mem c hd)
    have hclose := Chan.close_ok (hopen c List.mem_cons_self)
    simp only [closeAll, hclose, bind, Except.bind]
    rw [ih hrest _ hopen']
    congr 2
    funext d
    rw [setChan, setSub_subs, List.map_cons]
    by_cases hd : d = c
    · simp only [hd, hc, if_false, if_true, List.mem_cons, true_or]
    · simp only [hd, if_false, List.mem_cons, false_or]

/-- No enabled label faults in a state of the invariant, and the order of a loop does not show. -/
theorem Inv.exec_eq {w : World} (h : w.Inv) {e : Event} (hg : w.guard e) :
    w.exec e = .ok (w.effect e) := by
  cases e with
  | store msg newID now order =>
    have hmem : ∀ c, c ∈ order ↔ c ∈ w.mem.subscribers.members msg.topic := fun c => hg.mem_iff
    have hnotify := notify_eq (stamp msg newID now) hg.nodup
      { w with mem := w.mem.put (stamp msg newID now) } (fun c hc => h.isOpen ((hmem c).mp hc))
    simp only [hmem] at hnotify
    exact hnotify
  | cleanUp c =>
    by_cases hc : w.Registered c
    · have hclose := Chan.close_ok (h.isOpen hc)
      simp only [exec, cleanUp, effect, retire, if_pos hc]
      rw [if_pos (show c ∈ w.mem.subscribers.members (w.subs c).topic from hc), hclose]
      rfl
    · simp only [exec, cleanUp, effect, retire, if_neg hc]
      rw [if_neg (show c ∉ w.mem.subscribers.members (w.subs c).topic from hc)]
  | close order =>
    have hmem' : ∀ topic c, (topic, c) ∈ order ↔ c ∈ w.mem.subscribers.members topic :=
      fun topic c => hg.mem_iff.trans (SetMap.mem_pairs _ topic c)
    have hmem : ∀ c, c ∈ order.map Prod.snd ↔ w.Registered c := by
      intro c
      rw [List.mem_map]
      constructor
      · rintro ⟨⟨topic, d⟩, hp, rfl⟩
        exact ((h.mem_members_iff topic d).mp ((hmem' topic d).mp hp)).2
      · intro hc
        exact ⟨((w.subs c).topic, c), (hmem' _ c).mpr hc, rfl⟩
    have hnodup : (order.map Prod.snd).Nodup := by
      apply List.Nodup.map_on _ hg.nodup
      rintro ⟨topic, c⟩ hp ⟨topic', c'⟩ hp' (rfl : c = c')
      have htopic := h.topic_eq ((hmem' topic c).mp hp)
      have htopic' := h.topic_eq ((hmem' topic' c).mp hp')
      rw [Prod.mk.injEq]
      exact ⟨htopic.symm.trans htopic', rfl⟩
    simp only [exec, close, effect, shutDown]
    rw [closeAll_eq hnodup w (fun c hc => h.isOpen ((hmem c).mp hc))]
    simp only [bind, Except.bind, hmem]
  | _ => rfl

theorem Inv.step_eq {w t : World} (h : w.Inv) {e : Event} (hst : world.Step w e t) :
    t = w.effect e := by
  have hexec : w.exec e = .ok t := hst.2
  rw [h.exec_eq hst.1] at hexec
  exact (Except.ok.inj hexec).symm

namespace Inv

variable {w : World} (h : w.Inv)
include h

theorem with_mem {mem : InMemoryStore} (hmem : mem.Coherent)
    (hsubs : mem.subscribers = w.mem.subscribers) : Inv { w with mem := mem } := by
  refine ⟨hmem, ?_, ?_, ?_, h.unmade⟩
  · intro topic c hc
    exact h.isOpen (hsubs ▸ hc)
  · intro topic c hc
    exact h.topic_eq (hsubs ▸ hc)
  · intro topic c hc
    exact h.made_lt (hsubs ▸ hc)

theorem setSub {c : Nat} (hc : c < w.made) {sub : Subscription}
    (htopic : sub.topic = (w.subs c).topic)
    (hopen : w.Registered c → sub.ch.closed = false) : (w.setSub c sub).Inv := by
  refine ⟨h.coherent, ?_, ?_, h.made_lt, ?_⟩
  · intro topic d hd
    rw [setSub_subs]
    split
    · rename_i heq
      subst heq
      exact hopen ((h.mem_members_iff topic d).mp hd).2
    · exact h.isOpen hd
  · intro topic d hd
    rw [setSub_subs]
    split
    · rename_i heq
      subst heq
      exact htopic.trans (h.topic_eq hd)
    · exact h.topic_eq hd
  · intro d hd
    have hne : d ≠ c := by
      rw [setSub_made] at hd
      omega
    rw [setSub_subs, if_neg hne]
    exact h.unmade hd

theorem deliver (msg : Message) : (w.deliver msg).Inv := by
  refine ⟨h.coherent.put msg, ?_, ?_, h.made_lt, ?_⟩
  · intro topic c hc
    have hopen : (w.subs c).ch.closed = false := @Inv.isOpen _ h topic c hc
    simp only [World.deliver]
    split <;> simp [hopen]
  · intro topic c hc
    have htopic : (w.subs c).topic = topic := h.topic_eq hc
    simp only [World.deliver]
    split <;> exact htopic
  · intro c hc
    have hnot : c ∉ w.mem.subscribers.members msg.topic := by
      intro hmem
      have := h.made_lt hmem
      simp only [World.deliver] at hc
      omega
    simp only [World.deliver, if_neg hnot]
    exact h.unmade hc

theorem subscribe (ctxDone : Bool) (topic : String) : (w.subscribe ctxDone topic).Inv := by
  refine ⟨h.coherent.of_eq rfl rfl rfl, ?_, ?_, ?_, ?_⟩
  · intro t c hc
    simp only [World.subscribe, Function.update_apply]
    split
    · rfl
    · rename_i hne
      rcases (SetMap.mem_members_add _ _ _ _ _).mp hc with ⟨_, heq⟩ | hold
      · exact absurd heq hne
      · exact h.isOpen hold
  · intro t c hc
    simp only [World.subscribe, Function.update_apply]
    rcases (SetMap.mem_members_add _ _ _ _ _).mp hc with ⟨ht, heq⟩ | hold
    · rw [if_pos heq, ht]
    · have hlt := h.made_lt hold
      rw [if_neg (by omega)]
      exact h.topic_eq hold
  · intro t c hc
    simp only [World.subscribe]
    rcases (SetMap.mem_members_add _ _ _ _ _).mp hc with ⟨_, heq⟩ | hold
    · omega
    · have hlt := h.made_lt hold
      omega
  · intro c hc
    simp only [World.subscribe] at hc ⊢
    rw [Function.update_apply, if_neg (by omega)]
    exact h.unmade (by omega)

theorem unregister (topic : String) (c : Nat) :
    Inv { w with mem := { w.mem with subscribers := w.mem.subscribers.remove topic c } } := by
  have hold : ∀ {t d}, d ∈ (w.mem.subscribers.remove topic c).members t →
      d ∈ w.mem.subscribers.members t :=
    fun hd => ((SetMap.mem_members_remove _ _ _ _ _).mp hd).1
  exact ⟨h.coherent.of_eq rfl rfl rfl, fun hd => h.isOpen (hold hd), fun hd => h.topic_eq (hold hd),
    fun hd => h.made_lt (hold hd), h.unmade⟩

theorem retire {c : Nat} (hc : c < w.made) : (w.retire c).Inv := by
  unfold World.retire
  split
  · apply (h.unregister (w.subs c).topic c).setSub hc
    · rfl
    · intro hreg
      have hne := ((SetMap.mem_members_remove _ _ _ _ _).mp hreg).2
      exact absurd ⟨rfl, rfl⟩ hne
  · rename_i hreg
    exact h.setSub hc rfl (fun hreg' => absurd hreg' hreg)

theorem shutDown : w.shutDown.Inv := by
  refine ⟨InMemoryStore.coherent_new, ?_, ?_, ?_, ?_⟩
  · intro topic c hc
    simp [World.shutDown, InMemoryStore.newInMemoryStore] at hc
  · intro topic c hc
    simp [World.shutDown, InMemoryStore.newInMemoryStore] at hc
  · intro topic c hc
    simp [World.shutDown, InMemoryStore.newInMemoryStore] at hc
  · intro c hc
    have hnot : ¬ w.Registered c := by
      intro hreg
      have hlt := h.made_lt hreg
      simp only [World.shutDown] at hc
      omega
    simp only [World.shutDown, if_neg hnot]
    exact h.unmade hc

theorem effect {e : Event} (hg : w.guard e) : (w.effect e).Inv := by
  cases e with
  | store msg newID now order => exact h.deliver _
  | get id => exact h
  | delete id => exact h.with_mem (h.coherent.delete id) rfl
  | subscribe ctxDone topic => exact h.subscribe ctxDone topic
  | receive c => exact h.setSub hg.1 rfl (fun hreg => h.isOpen hreg)
  | cancel c => exact h.setSub hg rfl (fun hreg => h.isOpen hreg)
  | cleanUp c => exact h.retire hg.1
  | acknowledge msgID consumerID =>
    exact h.with_mem (h.coherent.acknowledge msgID consumerID)
      (w.mem.acknowledge_subscribers msgID consumerID)
  | addSubscriber subscriber => exact h.with_mem (h.coherent.of_eq rfl rfl rfl) rfl
  | removeSubscriber consumerID topic => exact h.with_mem (h.coherent.of_eq rfl rfl rfl) rfl
  | getMessages topic consumerID batchSize order =>
    exact h.with_mem (h.coherent.getMessages topic consumerID batchSize hg)
      (w.mem.getMessages_subscribers topic consumerID batchSize order)
  | close order => exact h.shutDown

end Inv

theorem inv_step {w t : World} {e : Event} (h : w.Inv) (hst : world.Step w e t) : t.Inv := by
  rw [h.step_eq hst]
  exact h.effect hst.1

theorem made_le_step {w t : World} (hinv : w.Inv) {e : Event} (hst : world.Step w e t) :
    w.made ≤ t.made := by
  rw [hinv.step_eq hst]
  cases e with
  | subscribe ctxDone topic => exact Nat.le_succ w.made
  | cleanUp c => exact Nat.le_of_eq (w.retire_made c).symm
  | _ => exact Nat.le_refl _

theorem subscription_step {w t : World} {e : Event} (hinv : w.Inv) (hst : world.Step w e t)
    {c : Nat} (hc : c < w.made) : (t.subs c).topic = (w.subs c).topic ∧
      ((t.subs c).ctxDone = true ↔ (w.subs c).ctxDone = true ∨ e = .cancel c) ∧
      ((w.subs c).ch.closed = true → (t.subs c).ch.closed = true) := by
  rw [hinv.step_eq hst]
  cases e with
  | store msg newID now order =>
    simp only [effect, deliver]
    split <;> simp
  | subscribe ctxDone topic =>
    simp only [effect, subscribe, Function.update_apply]
    simp [Nat.ne_of_lt hc]
  | receive d =>
    simp only [effect, setChan, setSub_subs]
    split
    · rename_i heq
      simp [heq]
    · simp
  | cancel d =>
    simp only [effect, setSub_subs]
    split
    · rename_i heq
      simp [heq]
    · rename_i hne
      simp [Ne.symm hne]
  | cleanUp d =>
    simp only [effect, retire]
    split <;> simp only [setSub_subs] <;> split <;> simp_all
  | close order =>
    simp only [effect, shutDown]
    split <;> simp
  | _ => simp [effect]

theorem topic_step {w t : World} {e : Event} (hinv : w.Inv) (hst : world.Step w e t) {c : Nat}
    (hc : c < w.made) : (t.subs c).topic = (w.subs c).topic := (subscription_step hinv hst hc).1

theorem inv_run {w : World} {es : List Event} (hrun : world.Run init es w) : w.Inv :=
  hrun.invariant (fun _ _ _ h hst => inv_step h hst) inv_init

end World

end GpuTel.Mq
