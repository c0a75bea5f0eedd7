import Mathlib.Logic.Function.Basic
import Mappf.Lib.HashMap
import Mappf.Lib.Log
import Mappf.Lib.Watch

/-! # Single flight

`singleflight.rs`: at most one leader for a key; the others follow on a watch channel. A sender is named by
its channel. Dropping a leader's guard is two steps: the key is removed under the lock, then the sender
taken out with it sends the outcome, if there is one, and is dropped. -/
namespace Mappf.Common
open Option

structure SingleFlight (κ ε : Type) where
  entries : HashMap κ ℕ := ∅
  channels : Watch.Heap (Option ε) := []

inductive Flight
  | leader
  | follower (receiver : Watch.Receiver)

namespace SingleFlight

variable {κ ε : Type} [DecidableEq κ] (flights : SingleFlight κ ε)

def begin (key : κ) : SingleFlight κ ε × Flight :=
  match flights.entries.lookup key with
  | some sender => (flights, .follower (flights.channels.subscribe sender))
  | none =>
    ({ entries := flights.entries.insert key flights.channels.length
       channels := flights.channels.create none }, .leader)

/-- What `Follower::wait` returns; `none` while it is still pending. -/
def wait (receiver : Watch.Receiver) : Option (Option ε) :=
  if flights.channels.changed receiver then some ((flights.channels[receiver.channel]?).bind Watch.Channel.value)
  else none

/-- The first half of dropping a guard, with the sender it took out. -/
def remove (key : κ) : SingleFlight κ ε × Option ℕ :=
  ({ flights with entries := flights.entries.erase key }, flights.entries.lookup key)

/-- The second half. -/
def finish (sender : Option ℕ) (outcome : Option ε) : SingleFlight κ ε :=
  match sender, outcome with
  | none, _ => flights
  | some channel, none => { flights with channels := flights.channels.dropSender channel }
  | some channel, some value => { flights with channels := flights.channels.sendAndDrop channel (fun _ => some value) }

def published (channel : ℕ) : Option ε :=
  (flights.channels[channel]?).bind Watch.Channel.value

variable (flights : SingleFlight κ ε)

theorem begin_cases (key : κ) : (∃ recv, flights.begin key = (flights, .follower recv)) ∨
      (flights.entries.lookup key = none ∧ (flights.begin key).2 = .leader ∧
        (flights.begin key).1.entries = flights.entries.insert key flights.channels.length) := by
  unfold begin
  cases h : flights.entries.lookup key with
  | some sender => exact .inl ⟨_, rfl⟩
  | none => exact .inr ⟨rfl, rfl, rfl⟩

omit [DecidableEq κ] in
@[simp] theorem entries_finish (sender : Option ℕ) (outcome : Option ε) :
    (flights.finish sender outcome).entries = flights.entries := by
  cases sender with
  | none => rfl
  | some channel => cases outcome <;> rfl

variable {flights} {recv : Watch.Receiver} {key : κ} {outcome : ε} {channel : ℕ}

theorem begin_follower (h : (flights.begin key).2 = .follower recv) :
    flights.entries.lookup key = some recv.channel ∧ (flights.begin key).1 = flights := by
  unfold begin at h ⊢
  cases hentry : flights.entries.lookup key with
  | some sender =>
    rw [hentry] at h
    cases h
    exact ⟨rfl, rfl⟩
  | none =>
    rw [hentry] at h
    cases h

omit [DecidableEq κ] in
theorem wait_eq_some (h : flights.wait recv = some (some outcome)) : flights.published recv.channel = some outcome := by
  unfold wait at h
  split_ifs at h
  exact some.inj h

theorem published_begin
    (h : (flights.begin key).1.published channel = some outcome) : flights.published channel = some outcome := by
  unfold begin at h
  cases hentry : flights.entries.lookup key with
  | some sender =>
    rw [hentry] at h
    exact h
  | none =>
    rw [hentry] at h
    unfold published at h ⊢
    obtain ⟨c, hc, hvalue⟩ := bind_eq_some_iff.mp h
    obtain hold | ⟨-, rfl⟩ := getElem?_log.mp hc
    · rw [hold]
      exact hvalue
    · cases hvalue

omit [DecidableEq κ] in
theorem published_finish {sender : Option ℕ} {res : Option ε}
    (h : (flights.finish sender res).published channel = some outcome) :
    flights.published channel = some outcome ∨ (sender = some channel ∧ res = some outcome) := by
  cases sender with
  | none => exact .inl h
  | some sent =>
    cases res with
    | none =>
      unfold finish published Watch.Heap.dropSender at h
      obtain ⟨c, hc, hvalue⟩ := bind_eq_some_iff.mp h
      rw [List.getElem?_modify] at hc
      obtain ⟨c₀, hc₀, rfl⟩ := map_eq_some_iff.mp hc
      left
      unfold published
      rw [hc₀]
      split_ifs at hvalue <;> exact hvalue
    | some value =>
      unfold finish published Watch.Heap.sendAndDrop at h
      obtain ⟨c, hc, hvalue⟩ := bind_eq_some_iff.mp h
      rw [List.getElem?_modify] at hc
      obtain ⟨c₀, hc₀, rfl⟩ := map_eq_some_iff.mp hc
      split_ifs at hvalue with hchan
      · exact .inr ⟨by rw [hchan], hvalue⟩
      · left
        unfold published
        rw [hc₀]
        exact hvalue

omit [DecidableEq κ] in
theorem length_finish (flights : SingleFlight κ ε) (sender : Option ℕ) (res : Option ε) :
    (flights.finish sender res).channels.length = flights.channels.length := by
  cases sender with
  | none => rfl
  | some channel =>
    cases res with
    | none | some value => exact List.length_modify _ _ _

end SingleFlight

/-! ## One leader for a key -/

section Leaders

variable {κ α : Type} [DecidableEq κ]

/-- How a step of one party changes the entries and the key whose guard it holds. -/
def GuardMoved (entries entries' : HashMap κ ℕ) (before after : Option κ) : Prop :=
  (entries' = entries ∧ after = before) ∨
    (∃ key channel, entries.lookup key = none ∧ entries' = entries.insert key channel ∧ before = none ∧
      after = some key) ∨
    ∃ key, before = some key ∧ entries' = entries.erase key ∧ after = none

/-- The key of every guard is taken, so no two parties hold guards of one key. -/
structure Leaders (entries : HashMap κ ℕ) (holds : α → Option κ) (parties : List α) : Prop where
  taken : ∀ (i : ℕ) party key, parties[i]? = some party → holds party = some key → entries.lookup key ≠ none
  alone : ∀ (i j : ℕ) party party' key, parties[i]? = some party → parties[j]? = some party' →
    holds party = some key → holds party' = some key → i = j

namespace Leaders

variable {entries entries' : HashMap κ ℕ} {holds : α → Option κ} {ps : List α}

theorem nil : Leaders entries holds [] where
  taken := by
    nofun
  alone := by
    nofun

theorem append (h : Leaders entries holds ps) {party : α} (hparty : holds party = none) :
    Leaders entries holds (ps ++ [party]) where
  taken := by
    intro i other key hother hkey
    obtain hold | ⟨-, rfl⟩ := getElem?_log.mp hother
    · exact h.taken i other key hold hkey
    · rw [hparty] at hkey
      cases hkey
  alone := by
    intro i j other other' key hother hother' hkey hkey'
    obtain hold | ⟨-, rfl⟩ := getElem?_log.mp hother
    · obtain hold' | ⟨-, rfl⟩ := getElem?_log.mp hother'
      · exact h.alone i j other other' key hold hold' hkey hkey'
      · simp [hparty] at hkey'
    · simp [hparty] at hkey

theorem move (h : Leaders entries holds ps) {i : ℕ} {before after : α} (hbef : ps[i]? = some before)
    (hmoved : GuardMoved entries entries' (holds before) (holds after)) : Leaders entries' holds (ps.set i after) := by
  obtain ⟨rfl, hkeeps⟩ | ⟨key, channel, hfree, rfl, -, hafter⟩ | ⟨key, hheld, rfl, hafter⟩ := hmoved
  · constructor
    · intro j party k hparty hk
      obtain ⟨rfl, rfl⟩ | ⟨-, hold⟩ := getElem?_set_cases hparty
      · exact h.taken j before k hbef (hkeeps ▸ hk)
      · exact h.taken j party k hold hk
    · intro j l party party' k hparty hparty' hk hk'
      obtain ⟨rfl, rfl⟩ | ⟨-, hold⟩ := getElem?_set_cases hparty
      · obtain ⟨rfl, -⟩ | ⟨-, hold'⟩ := getElem?_set_cases hparty'
        · rfl
        · exact h.alone j l before party' k hbef hold' (hkeeps ▸ hk) hk'
      · obtain ⟨rfl, rfl⟩ | ⟨-, hold'⟩ := getElem?_set_cases hparty'
        · exact h.alone j l party before k hold hbef hk (hkeeps ▸ hk')
        · exact h.alone j l party party' k hold hold' hk hk'
  · constructor
    · intro j party k hparty hk
      rw [HashMap.lookup_insert_eq]
      split_ifs with hkey
      · exact some_ne_none _
      · obtain ⟨rfl, rfl⟩ | ⟨-, hold⟩ := getElem?_set_cases hparty
        · rw [hafter] at hk
          exact absurd (some.inj hk).symm hkey
        · exact h.taken j party k hold hk
    · -- nobody held the key that is taken now
      intro j l party party' k hparty hparty' hk hk'
      obtain ⟨rfl, rfl⟩ | ⟨-, hold⟩ := getElem?_set_cases hparty
      · obtain ⟨rfl, -⟩ | ⟨-, hold'⟩ := getElem?_set_cases hparty'
        · rfl
        · rw [hafter] at hk
          cases hk
          exact absurd hfree (h.taken l party' key hold' hk')
      · obtain ⟨rfl, rfl⟩ | ⟨-, hold'⟩ := getElem?_set_cases hparty'
        · rw [hafter] at hk'
          cases hk'
          exact absurd hfree (h.taken j party key hold hk)
        · exact h.alone j l party party' k hold hold' hk hk'
  · constructor
    · intro j party k hparty hk
      obtain ⟨rfl, rfl⟩ | ⟨hne, hold⟩ := getElem?_set_cases hparty
      · simp [hafter] at hk
      · rw [HashMap.lookup_erase_eq]
        split_ifs with hkey
        · -- the key that is given up had no other holder
          subst hkey
          exact absurd (h.alone j i party before k hold hbef hk hheld) hne
        · exact h.taken j party k hold hk
    · intro j l party party' k hparty hparty' hk hk'
      obtain ⟨rfl, rfl⟩ | ⟨-, hold⟩ := getElem?_set_cases hparty
      · simp [hafter] at hk
      · obtain ⟨rfl, rfl⟩ | ⟨-, hold'⟩ := getElem?_set_cases hparty'
        · simp [hafter] at hk'
        · exact h.alone j l party party' k hold hold' hk hk'

end Leaders
end Leaders

/-! ## One key for a channel -/

section Tuned

variable {κ ε α : Type} [DecidableEq κ]

/-- A channel has one key: that of the entry that names it and of all parties that listen to it or hold its sender.
`tunes` is the key and the channel of a party. -/
def Tuned (flights : SingleFlight κ ε) (tunes : α → Option (κ × ℕ)) (parties : List α) : Prop :=
  ∃ owner : ℕ → κ,
    (∀ key channel, flights.entries.lookup key = some channel →
      channel < flights.channels.length ∧ owner channel = key) ∧
    ∀ party ∈ parties, ∀ key channel, tunes party = some (key, channel) →
      channel < flights.channels.length ∧ owner channel = key

namespace Tuned

variable {flights flights' : SingleFlight κ ε} {tunes : α → Option (κ × ℕ)} {ps ps' : List α}

theorem nil [Inhabited κ] : Tuned ({} : SingleFlight κ ε) tunes [] := by
  refine ⟨fun _ => default, fun key channel hentry => ?_, fun party hparty => ?_⟩
  · cases hentry
  · cases hparty

theorem same_key (h : Tuned flights tunes ps) {party party' : α} (hparty : party ∈ ps)
    (hparty' : party' ∈ ps) {key key' : κ} {channel : ℕ} (htunes : tunes party = some (key, channel))
    (htunes' : tunes party' = some (key', channel)) : key = key' := by
  obtain ⟨owner, -, howner⟩ := h
  rw [← (howner party hparty key channel htunes).2, ← (howner party' hparty' key' channel htunes').2]

theorem change (h : Tuned flights tunes ps)
    (hents : ∀ key channel, flights'.entries.lookup key = some channel → flights.entries.lookup key = some channel)
    (hlen : flights'.channels.length = flights.channels.length)
    (hpties : ∀ party ∈ ps', party ∈ ps ∨ ∀ key channel, tunes party = some (key, channel) →
      flights.entries.lookup key = some channel ∨ ∃ other ∈ ps, tunes other = some (key, channel)) :
    Tuned flights' tunes ps' := by
  obtain ⟨owner, hnamed, howner⟩ := h
  refine ⟨owner, fun key channel hentry => ?_, fun party hparty key channel htunes => ?_⟩
  · rw [hlen]
    exact hnamed key channel (hents key channel hentry)
  · rw [hlen]
    obtain hold | hnew := hpties party hparty
    · exact howner party hold key channel htunes
    · obtain hentry | ⟨other, hother, hsame⟩ := hnew key channel htunes
      · exact hnamed key channel hentry
      · exact howner other hother key channel hsame

theorem begin (h : Tuned flights tunes ps) (key : κ) : Tuned (flights.begin key).1 tunes ps := by
  unfold SingleFlight.begin
  cases hentry : flights.entries.lookup key with
  | some sender => exact h
  | none =>
    obtain ⟨owner, hnamed, howner⟩ := h
    have hlen : (flights.channels.create none).length = flights.channels.length + 1 := List.length_append
    -- the new channel is owned by the key, and nobody listens to it yet
    refine ⟨Function.update owner flights.channels.length key, fun key' channel hentry' => ?_,
      fun party hparty key' channel htunes => ?_⟩
    · rw [HashMap.lookup_insert_eq] at hentry'
      rw [hlen]
      split_ifs at hentry' with hkey
      · cases hentry'
        exact ⟨Nat.lt_succ_self _, by rw [Function.update_self, hkey]⟩
      · obtain ⟨hlt, hsame⟩ := hnamed key' channel hentry'
        rw [Function.update_of_ne (by omega)]
        exact ⟨by omega, hsame⟩
    · obtain ⟨hlt, hsame⟩ := howner party hparty key' channel htunes
      rw [hlen, Function.update_of_ne (by omega)]
      exact ⟨by omega, hsame⟩

end Tuned

/-- Nothing has been published on the channel of an entry, and no party holds its sender any more. -/
structure Silent (flights : SingleFlight κ ε) (sender : α → Option ℕ) (parties : List α) : Prop where
  unnamed : ∀ party ∈ parties, ∀ channel, sender party = some channel →
    ∀ key, flights.entries.lookup key ≠ some channel
  unpublished : ∀ key channel, flights.entries.lookup key = some channel → flights.published channel = none

namespace Silent

variable {flights : SingleFlight κ ε} {sender : α → Option ℕ} {tunes : α → Option (κ × ℕ)} {ps ps' : List α}

theorem nil : Silent ({} : SingleFlight κ ε) sender [] := by
  refine ⟨fun party hparty => ?_, fun key channel hentry => ?_⟩
  · cases hparty
  · cases hentry

section

variable (h : Silent flights sender ps)
include h

theorem change (hpties : ∀ party ∈ ps', party ∈ ps ∨ sender party = none) : Silent flights sender ps' := by
  refine ⟨fun party hparty channel hsend => ?_, h.unpublished⟩
  obtain hold | hnone := hpties party hparty
  · exact h.unnamed party hold channel hsend
  · rw [hnone] at hsend
    cases hsend

theorem begin (htuned : Tuned flights tunes ps)
    (hsend : ∀ party ∈ ps, ∀ channel, sender party = some channel → ∃ key, tunes party = some (key, channel))
    (key : κ) : Silent (flights.begin key).1 sender ps := by
  obtain ⟨recv, hfoll⟩ | ⟨hfree, -, hents⟩ := flights.begin_cases key
  · rw [hfoll]
    exact h
  · obtain ⟨owner, hnamed, howner⟩ := htuned
    constructor
    · intro party hparty channel hchan key' hentry
      rw [hents, HashMap.lookup_insert_eq] at hentry
      split_ifs at hentry with hkey
      · -- the new channel is younger than every sender
        cases hentry
        obtain ⟨key'', htunes⟩ := hsend party hparty _ hchan
        exact absurd (howner party hparty key'' _ htunes).1 (Nat.lt_irrefl _)
      · exact h.unnamed party hparty channel hchan key' hentry
    · intro key' channel hentry
      rw [hents, HashMap.lookup_insert_eq] at hentry
      by_contra hpub
      obtain ⟨outcome, hout⟩ := ne_none_iff_exists'.mp hpub
      have hold := SingleFlight.published_begin hout
      split_ifs at hentry with hkey
      · cases hentry
        unfold SingleFlight.published at hold
        simp at hold
      · simp [h.unpublished key' channel hentry] at hold

theorem remove (htuned : Tuned flights tunes ps) (key : κ)
    (hpties : ∀ party ∈ ps', party ∈ ps ∨ sender party = flights.entries.lookup key) :
    Silent (flights.remove key).1 sender ps' := by
  obtain ⟨owner, hnamed, -⟩ := htuned
  constructor
  · intro party hparty channel hchan key' hentry
    dsimp only [SingleFlight.remove] at hentry
    rw [HashMap.lookup_erase_eq] at hentry
    split_ifs at hentry with hkey
    obtain hold | htaken := hpties party hparty
    · exact h.unnamed party hold channel hchan key' hentry
    · rw [htaken] at hchan
      apply hkey
      rw [← (hnamed key channel hchan).2, ← (hnamed key' channel hentry).2]
  · intro key' channel hentry
    dsimp only [SingleFlight.remove] at hentry
    rw [HashMap.lookup_erase_eq] at hentry
    split_ifs at hentry
    exact h.unpublished key' channel hentry

theorem finish {party : α} (hparty : party ∈ ps) (res : Option ε)
    (hpties : ∀ party ∈ ps', party ∈ ps ∨ sender party = none) :
    Silent (flights.finish (sender party) res) sender ps' := by
  constructor
  · intro other hother channel hchan key hentry
    rw [SingleFlight.entries_finish] at hentry
    exact (h.change hpties).unnamed other hother channel hchan key hentry
  · intro key channel hentry
    rw [SingleFlight.entries_finish] at hentry
    by_contra hpub
    obtain ⟨outcome, hout⟩ := ne_none_iff_exists'.mp hpub
    obtain hold | ⟨hsent, -⟩ := SingleFlight.published_finish hout
    · simp [h.unpublished key channel hentry] at hold
    · exact h.unnamed party hparty channel hsent key hentry

end

end Silent
end Tuned
end Mappf.Common
