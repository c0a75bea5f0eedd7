import Mathlib.Data.List.Basic

/-! # Watch channels

A watch channel holds one value and counts how often it was sent; a receiver remembers the count it
has seen. `changed` returns once the count has moved on or the sender is gone, and from then on it
always does. Channels are named by their place in a heap that only grows. -/
namespace Mappf.Watch

structure Channel (α : Type) where
  value : α
  version : ℕ := 0
  senderAlive : Bool := true

structure Receiver where
  channel : ℕ
  seen : ℕ
  deriving DecidableEq

abbrev Heap (α : Type) := List (Channel α)

namespace Heap

variable {α : Type}

/-- `watch::channel`: the name of the new channel is the size of the heap before. -/
def create (heap : Heap α) (value : α) : Heap α := heap ++ [{ value := value }]

def subscribe (heap : Heap α) (channel : ℕ) : Receiver where
  channel := channel
  seen := (heap[channel]?).elim 0 Channel.version

/-- A last `send_modify` before the sender is dropped. -/
def sendAndDrop (heap : Heap α) (channel : ℕ) (f : α → α) : Heap α :=
  heap.modify channel (fun c => { value := f c.value, version := c.version + 1, senderAlive := false })

def dropSender (heap : Heap α) (channel : ℕ) : Heap α :=
  heap.modify channel (fun c => { c with senderAlive := false })

/-- Would `changed` return at once? -/
def changed (heap : Heap α) (receiver : Receiver) : Bool :=
  match heap[receiver.channel]? with
  | some c => c.version != receiver.seen || !c.senderAlive
  | none => false

variable {heap : Heap α} {recv : Receiver}

theorem changed_iff : heap.changed recv = true ↔
      ∃ c, heap[recv.channel]? = some c ∧ (c.version ≠ recv.seen ∨ c.senderAlive = false) := by
  unfold changed
  cases heap[recv.channel]? with
  | none | some c => simp

theorem changed_create (value : α) (h : heap.changed recv = true) : (heap.create value).changed recv = true := by
  obtain ⟨c, hc, hmoved⟩ := changed_iff.mp h
  refine changed_iff.mpr ⟨c, ?_, hmoved⟩
  rw [create, List.getElem?_append_left (List.getElem?_eq_some_iff.mp hc).1]
  exact hc

theorem changed_modify (channel : ℕ) {f : Channel α → Channel α} (hclosed : ∀ c, (f c).senderAlive = false)
    (h : heap.changed recv = true) : Heap.changed (heap.modify channel f) recv = true := by
  obtain ⟨c, hc, hmoved⟩ := changed_iff.mp h
  rw [changed_iff, List.getElem?_modify, hc]
  by_cases hchan : channel = recv.channel
  · exact ⟨f c, by simp [hchan], .inr (hclosed c)⟩
  · exact ⟨c, by simp [hchan], hmoved⟩

theorem modify_changed {f : Channel α → Channel α} (hclosed : ∀ c, (f c).senderAlive = false)
    (hexists : recv.channel < heap.length) : Heap.changed (heap.modify recv.channel f) recv = true := by
  rw [changed_iff, List.getElem?_modify, List.getElem?_eq_getElem hexists]
  exact ⟨f heap[recv.channel], by simp, .inr (hclosed _)⟩

end Heap
end Mappf.Watch
