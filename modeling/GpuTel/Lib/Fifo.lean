import Mathlib.Data.List.Basic
import Mathlib.Tactic.TypeStar

/-!
# Buffered channels

A bounded first-in first-out buffer with a closed flag. Sending is non-blocking: it drops the value
when the buffer is full. Sending on a closed channel and closing it twice are faults.
-/

set_option autoImplicit false

namespace Fifo

inductive Fault where
  | sendOnClosed
  | closeOfClosed
  deriving DecidableEq, Repr

/-- The bound is part of the type: an overfull channel cannot be built. -/
@[ext] structure Chan (α : Type*) (cap : Nat) where
  buf : List α
  closed : Bool
  fits : buf.length ≤ cap

namespace Chan

variable {α : Type*} {cap : Nat}

def make : Chan α cap := ⟨[], false, Nat.zero_le cap⟩

def offer (ch : Chan α cap) (a : α) : Chan α cap :=
  if h : ch.buf.length < cap then
    ⟨ch.buf ++ [a], ch.closed, by simpa using Nat.succ_le_of_lt h⟩
  else ch

/-- `select { case ch <- a: default: }` -/
def trySend (ch : Chan α cap) (a : α) : Except Fault (Chan α cap) :=
  if ch.closed then .error .sendOnClosed else .ok (ch.offer a)

def close (ch : Chan α cap) : Except Fault (Chan α cap) :=
  if ch.closed then .error .closeOfClosed else .ok { ch with closed := true }

def Ready (ch : Chan α cap) : Prop := ch.buf ≠ [] ∨ ch.closed = true

instance (ch : Chan α cap) : Decidable ch.Ready :=
  decidable_of_iff (ch.buf.isEmpty = false ∨ ch.closed = true) (by simp [Ready])

/-- What a ready receive yields: `none` is the zero value of a closed and drained channel. -/
def received (ch : Chan α cap) : Option α := ch.buf.head?

def afterReceive (ch : Chan α cap) : Chan α cap where
  buf := ch.buf.tail
  closed := ch.closed
  fits := by
    have h := ch.fits
    rw [List.length_tail]
    omega

@[simp] theorem offer_closed (ch : Chan α cap) (a : α) : (ch.offer a).closed = ch.closed := by
  unfold offer
  split <;> rfl

theorem offer_buf (ch : Chan α cap) (a : α) :
    (ch.offer a).buf = if ch.buf.length < cap then ch.buf ++ [a] else ch.buf := by
  unfold offer
  split <;> simp_all

@[simp] theorem afterReceive_closed (ch : Chan α cap) : ch.afterReceive.closed = ch.closed := rfl

@[simp] theorem afterReceive_buf (ch : Chan α cap) : ch.afterReceive.buf = ch.buf.tail := rfl

theorem received_append (ch : Chan α cap) :
    ch.received.toList ++ ch.afterReceive.buf = ch.buf := by
  obtain ⟨buf, closed, fits⟩ := ch
  cases buf <;> rfl

theorem closed_of_received_eq_none {ch : Chan α cap} (hready : ch.Ready) (h : ch.received = none) :
    ch.closed = true := by
  rcases hready with hbuf | hclosed
  · exact absurd (List.head?_eq_none_iff.mp h) hbuf
  · exact hclosed

theorem trySend_ok {ch : Chan α cap} (h : ch.closed = false) (a : α) :
    ch.trySend a = .ok (ch.offer a) := by
  simp [trySend, h]

theorem close_ok {ch : Chan α cap} (h : ch.closed = false) :
    ch.close = .ok { ch with closed := true } := by
  simp [close, h]

end Chan

inductive FeedEvent (α : Type*) where
  | attach
  | offer (a : α)
  | receive
  | detach
  deriving DecidableEq, Repr

structure Feed (α : Type*) where
  attached : Bool
  pending : List α
  received : List α

namespace Feed

variable {α : Type*}

def idle : Feed α := ⟨false, [], []⟩

def step (cap : Nat) (f : Feed α) : FeedEvent α → Feed α
  | .attach => { f with attached := true }
  | .offer a =>
    if f.attached = true ∧ f.pending.length < cap then { f with pending := f.pending ++ [a] } else f
  | .receive =>
    { f with pending := f.pending.tail, received := f.received ++ f.pending.head?.toList }
  | .detach => { f with attached := false }

def run (cap : Nat) (es : List (FeedEvent α)) : Feed α := es.foldl (step cap) idle

theorem run_append (cap : Nat) (es fs : List (FeedEvent α)) :
    run cap (es ++ fs) = fs.foldl (step cap) (run cap es) := by
  simp [run, List.foldl_append]

end Feed

end Fifo
