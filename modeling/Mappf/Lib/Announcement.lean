import Mappf.Lib.Machine

/-! # Announcements ahead of a queue

A value is announced under a new ticket before the item that establishes it joins a queue. An item that is withdrawn or
dropped takes the announcement back if its ticket is the last one. Items may join in another order than they were
announced in; as long as none joins behind the one announced last, the announcement tells which item completed last
once nothing is left to happen. -/
namespace Mappf
open Function

/-- Holders `κ` of items that have not joined the queue yet, tickets `γ`, values `π`. -/
@[ext] structure Line (κ γ π : Type) where
  announced : Option π
  ticket : γ
  held : κ → Option (γ × π)
  queue : List (γ × π)
  /-- The value of the item that ended last, if it completed. -/
  established : Option π

namespace Line

variable {κ γ π : Type} [DecidableEq κ] [DecidableEq γ]

def retract (line : Line κ γ π) (ticket : γ) : Option π := if line.ticket = ticket then none else line.announced

inductive Step (line : Line κ γ π) : Line κ γ π → Prop
  | announce (holder : κ) (ticket : γ) (value : π) (hnone : line.held holder = none)
      (hheld : ∀ holder value, line.held holder ≠ some (ticket, value)) (hqueue : ∀ item ∈ line.queue, item.1 ≠ ticket) :
      Step line { line with
        announced := some value, ticket, held := update line.held holder (some (ticket, value)) }
  /-- No item joins behind the one announced last while the announcement stands. -/
  | join (holder : κ) (item : γ × π) (hitem : line.held holder = some item)
      (horder : line.announced = none ∨ ∃ holder value, line.held holder = some (line.ticket, value)) :
      Step line { line with held := update line.held holder none, queue := line.queue ++ [item] }
  | withdraw (holder : κ) (item : γ × π) (hitem : line.held holder = some item) :
      Step line { line with held := update line.held holder none, announced := line.retract item.1 }
  | drop (item : γ × π) (rest : List (γ × π)) (hqueue : line.queue = item :: rest) :
      Step line { line with queue := rest, announced := line.retract item.1 }
  | complete (item : γ × π) (rest : List (γ × π)) (hqueue : line.queue = item :: rest) :
      Step line { line with queue := rest, established := some item.2 }
  | fail (hqueue : line.queue ≠ []) : Step line { line with established := none }

theorem Step.of_parts {line line' target : Line κ γ π} (h : Step line target)
    (hann : line'.announced = target.announced) (htick : line'.ticket = target.ticket)
    (hheld : line'.held = target.held) (hqueue : line'.queue = target.queue)
    (hest : line'.established = target.established) : Step line line' := by
  rw [Line.ext hann htick hheld hqueue hest]
  exact h

def Follows (line line' : Line κ γ π) : Prop := line' = line ∨ Step line line'

/-- Where the item announced last is. -/
inductive Backed (line : Line κ γ π) (value : π) : Prop
  | held (holder : κ) (h : line.held holder = some (line.ticket, value))
  | queued (front : List (γ × π)) (hqueue : line.queue = front ++ [(line.ticket, value)])
      (hheld : ∀ holder value, line.held holder ≠ some (line.ticket, value))
  | established (hqueue : line.queue = []) (hheld : ∀ holder value, line.held holder ≠ some (line.ticket, value))
      (h : line.established = some value)

structure Sound (line : Line κ γ π) : Prop where
  backed : ∀ value, line.announced = some value → line.Backed value
  single : ∀ holder holder' value value', line.held holder = some (line.ticket, value) →
    line.held holder' = some (line.ticket, value') → holder = holder'
  ahead : ∀ holder value, line.held holder = some (line.ticket, value) → ∀ item ∈ line.queue, item.1 ≠ line.ticket

namespace Sound

variable {line line' : Line κ γ π}

omit [DecidableEq κ] in
theorem retract_eq_some {ticket : γ} {value : π} (h : line.retract ticket = some value) :
    line.ticket ≠ ticket ∧ line.announced = some value := by
  unfold retract at h
  split_ifs at h with htick
  exact ⟨htick, h⟩

variable {holder : κ} {item : γ × π} {rest : List (γ × π)}

omit [DecidableEq γ] in
theorem held_of_update {other : κ} (h : update line.held holder none other = some item) :
    other ≠ holder ∧ line.held other = some item := by
  by_cases hother : other = holder
  · subst hother
    rw [update_self] at h
    cases h
  · rw [update_of_ne hother] at h
    exact ⟨hother, h⟩

omit [DecidableEq γ] in
theorem announce (holder : κ) (ticket : γ) (value : π) (hheld : ∀ holder value, line.held holder ≠ some (ticket, value))
    (hqueue : ∀ item ∈ line.queue, item.1 ≠ ticket) : Sound { line with
      announced := some value, ticket, held := update line.held holder (some (ticket, value)) } := by
  have honly : ∀ other value', update line.held holder (some (ticket, value)) other = some (ticket, value') →
      other = holder := by
    intro other value' h
    by_contra hother
    rw [update_of_ne hother] at h
    exact hheld other value' h
  refine ⟨fun announced h => ?_, fun first second v v' hfirst hsnd => ?_, fun _ _ _ => hqueue⟩
  · cases h
    exact .held holder (update_self holder _ _)
  · exact (honly first v hfirst).trans (honly second v' hsnd).symm

variable (h : Sound line)
include h

omit [DecidableEq γ] in
theorem join (hitem : line.held holder = some item)
    (horder : line.announced = none ∨ ∃ holder value, line.held holder = some (line.ticket, value)) :
    Sound { line with held := update line.held holder none, queue := line.queue ++ [item] } := by
  have hlast : ∀ other value, update line.held holder none other = some (line.ticket, value) →
      item.1 ≠ line.ticket := by
    intro other value hother htick
    obtain ⟨hne, hheld⟩ := held_of_update hother
    have hself : line.held holder = some (line.ticket, item.2) := by rw [hitem, ← htick]
    exact hne (h.single other holder value item.2 hheld hself)
  refine ⟨fun value hvalue => ?_, fun first second v v' hfirst hsnd => ?_, fun other value hother => ?_⟩
  · obtain ⟨holder', value', hheld'⟩ := horder.resolve_left (by rw [hvalue]; exact Option.some_ne_none value)
    cases h.backed value hvalue with
    | held last hheld =>
      by_cases hsame : last = holder
      · subst hsame
        rw [hitem] at hheld
        cases hheld
        refine .queued line.queue rfl (fun other v hother => ?_)
        exact hlast other v hother rfl
      · exact .held last ((update_of_ne hsame none line.held).trans hheld)
    | queued front hqueue hheld | established hqueue hheld hest => exact absurd hheld' (hheld holder' value')
  · exact h.single first second v v' (held_of_update hfirst).2 (held_of_update hsnd).2
  · intro queued hqueued
    obtain hold | hnew := List.mem_append.mp hqueued
    · exact h.ahead other value (held_of_update hother).2 queued hold
    · rw [List.mem_singleton.mp hnew]
      exact hlast other value hother

theorem withdraw (hitem : line.held holder = some item) :
    Sound { line with held := update line.held holder none, announced := line.retract item.1 } := by
  refine ⟨fun value hvalue => ?_, fun first second v v' hfirst hsnd => ?_, fun other value hother => ?_⟩
  · obtain ⟨htick, hann⟩ := retract_eq_some hvalue
    cases h.backed value hann with
    | held last hheld =>
      have hother : last ≠ holder := by
        rintro rfl
        rw [hitem] at hheld
        cases hheld
        exact htick rfl
      exact .held last ((update_of_ne hother none line.held).trans hheld)
    | queued front hqueue hheld =>
      exact .queued front hqueue (fun other v hother => hheld other v (held_of_update hother).2)
    | established hqueue hheld hest =>
      exact .established hqueue (fun other v hother => hheld other v (held_of_update hother).2) hest
  · exact h.single first second v v' (held_of_update hfirst).2 (held_of_update hsnd).2
  · exact h.ahead other value (held_of_update hother).2

omit h

omit [DecidableEq γ] in
theorem tail_cases {front : List (γ × π)} {last : γ × π} (h : item :: rest = front ++ [last]) :
    (item = last ∧ rest = []) ∨ ∃ front', rest = front' ++ [last] := by
  cases front with
  | nil =>
    cases h
    exact .inl ⟨rfl, rfl⟩
  | cons first front =>
    cases h
    exact .inr ⟨front, rfl⟩

include h

omit [DecidableEq κ] in
theorem drop (hqueue : line.queue = item :: rest) :
    Sound { line with queue := rest, announced := line.retract item.1 } := by
  refine ⟨fun value hvalue => ?_, h.single, fun holder value hheld queued hqueued => ?_⟩
  · obtain ⟨htick, hann⟩ := retract_eq_some hvalue
    cases h.backed value hann with
    | held holder hheld => exact .held holder hheld
    | queued front hfront hheld =>
      obtain ⟨hitem, -⟩ | ⟨front', hrest⟩ := tail_cases (hqueue.symm.trans hfront)
      · rw [hitem] at htick
        exact absurd rfl htick
      · exact .queued front' hrest hheld
    | established hnil => rw [hqueue] at hnil; cases hnil
  · exact h.ahead holder value hheld queued (by rw [hqueue]; exact List.mem_cons_of_mem item hqueued)

omit [DecidableEq κ] [DecidableEq γ] in
theorem complete (hqueue : line.queue = item :: rest) :
    Sound { line with queue := rest, established := some item.2 } := by
  refine ⟨fun value hvalue => ?_, h.single, fun holder value hheld queued hqueued => ?_⟩
  · cases h.backed value hvalue with
    | held holder hheld => exact .held holder hheld
    | queued front hfront hheld =>
      obtain ⟨hitem, hrest⟩ | ⟨front', hrest⟩ := tail_cases (hqueue.symm.trans hfront)
      · exact .established hrest hheld (by rw [hitem])
      · exact .queued front' hrest hheld
    | established hnil => rw [hqueue] at hnil; cases hnil
  · exact h.ahead holder value hheld queued (by rw [hqueue]; exact List.mem_cons_of_mem item hqueued)

omit [DecidableEq κ] [DecidableEq γ] in
theorem fail (hqueue : line.queue ≠ []) : Sound { line with established := none } := by
  refine ⟨fun value hvalue => ?_, h.single, h.ahead⟩
  cases h.backed value hvalue with
  | held holder hheld => exact .held holder hheld
  | queued front hfront hheld => exact .queued front hfront hheld
  | established hnil => exact absurd hnil hqueue

theorem step (hstep : Step line line') : Sound line' := by
  cases hstep with
  | announce holder ticket value hnone hheld hqueue => exact announce holder ticket value hheld hqueue
  | join holder item hitem horder => exact h.join hitem horder
  | withdraw holder item hitem => exact h.withdraw hitem
  | drop item rest hqueue => exact h.drop hqueue
  | complete item rest hqueue => exact h.complete hqueue
  | fail hqueue => exact h.fail hqueue

theorem follows (hfollows : line.Follows line') : Sound line' := by
  obtain rfl | hstep := hfollows
  · exact h
  · exact h.step hstep

omit [DecidableEq κ] [DecidableEq γ] in
/-- Nothing held, nothing queued: the announcement is what was established last. -/
theorem established_of_drained (hheld : ∀ holder, line.held holder = none) (hqueue : line.queue = [])
    {value : π} (hvalue : line.announced = some value) : line.established = some value := by
  cases h.backed value hvalue with
  | held holder hsome => rw [hheld] at hsome; cases hsome
  | queued front hfront =>
    exact absurd (hfront.symm.trans hqueue) (List.append_ne_nil_of_right_ne_nil front (List.cons_ne_nil _ _))
  | established _ _ hest => exact hest

omit h

end Sound

end Line

end Mappf
