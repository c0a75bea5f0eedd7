import Mappf.Biei.RenderCacheIsolation

/-! # Invalidation fences renders under way

The epoch counts invalidations, and a leader may insert only while the epoch is the one it was elected
in; so between its election and its insertion no style was invalidated at all. Flights are owned by
leaders: a key has a flight exactly while it has a leader, and a follower that still waits has its
leader's flight, which the leader's end takes away together with the channel's sender. -/
namespace Mappf.Biei.RenderCacheRun
open Session List Option

open Styles (StyleId)

variable {ρ : Type}

def Entry.isInvalidated : Entry ρ → Bool
  | .invalidated _ => true
  | _ => false

variable (log : List (Entry ρ))

def invalidations : ℕ := log.countP Entry.isInvalidated

theorem invalidations_append (x : Entry ρ) :
    invalidations (log ++ [x]) = invalidations log + if x.isInvalidated = true then 1 else 0 := by
  simp [invalidations, countP_append, countP_singleton]

theorem invalidations_take_le (n : ℕ) : invalidations (log.take n) ≤ invalidations log :=
  (take_sublist n log).countP_le

/-! ## The epoch counts invalidations -/

def ReadsEpoch (epoch : UInt64) (n : ℕ) : Prop :=
  epoch = UInt64.ofNat (invalidations (log.take n))

theorem readsEpoch_append {log : List (Entry ρ)} {epoch : UInt64} {n : ℕ} (hn : n ≤ log.length) (x : Entry ρ) :
    ReadsEpoch (log ++ [x]) epoch n ↔ ReadsEpoch log epoch n := by
  unfold ReadsEpoch
  rw [take_append_of_le_length hn]

structure Fenced (session : Session ρ) : Prop where
  epoch : ReadsEpoch session.log session.inner.invalidationEpoch session.log.length
  elected : ∀ i key required guard, session.log[i]? = some (.returned key required (.leader guard)) →
    ReadsEpoch session.log guard.invalidationEpoch i
  accepted : ∀ j i result, session.log[j]? = some (.inserted i result true) → i < j ∧
    ∃ key required guard, session.log[i]? = some (.returned key required (.leader guard)) ∧
      ReadsEpoch session.log guard.invalidationEpoch j

namespace Fenced

variable {before after : Session ρ} {x : Entry ρ}

theorem append (h : Fenced before) (hlog : after.log = before.log ++ [x]) (hepoch : after.inner.invalidationEpoch =
      if x.isInvalidated = true then before.inner.invalidationEpoch + 1 else before.inner.invalidationEpoch)
    (helec : ∀ key required guard, x = .returned key required (.leader guard) →
      guard.invalidationEpoch = before.inner.invalidationEpoch)
    (hacc : ∀ i res, x = .inserted i res true → ∃ key required guard,
      before.log[i]? = some (.returned key required (.leader guard)) ∧
        guard.invalidationEpoch = before.inner.invalidationEpoch) :
    Fenced after where
  epoch := by
    have hbef := h.epoch
    unfold ReadsEpoch at hbef ⊢
    rw [take_length] at hbef ⊢
    rw [hlog, invalidations_append, hepoch, hbef]
    by_cases hx : x.isInvalidated = true
    · rw [if_pos hx, if_pos hx]
      exact (UInt64.ofNat_add _ 1).symm
    · rw [if_neg hx, if_neg hx, Nat.add_zero]
  elected := by
    intro i key required guard hentry
    rw [hlog] at hentry ⊢
    cases getElem?_log.mp hentry with
    | inl hold =>
      have hi := lt_length hold
      exact (readsEpoch_append (Nat.le_of_lt hi) x).mpr (h.elected i key required guard hold)
    | inr hnew =>
      obtain ⟨rfl, hx⟩ := hnew
      rw [helec key required guard hx]
      exact (readsEpoch_append le_rfl x).mpr h.epoch
  accepted := by
    intro j i res hentry
    rw [hlog] at hentry ⊢
    cases getElem?_log.mp hentry with
    | inl hold =>
      obtain ⟨hij, key, required, guard, hguard, hreads⟩ := h.accepted j i res hold
      have hj := lt_length hold
      exact ⟨hij, key, required, guard, getElem?_log.mpr (.inl hguard), (readsEpoch_append (Nat.le_of_lt hj) x).mpr hreads⟩
    | inr hnew =>
      obtain ⟨rfl, hx⟩ := hnew
      obtain ⟨key, required, guard, hguard, hsame⟩ := hacc i res hx
      refine ⟨(lt_length hguard), key, required, guard, getElem?_log.mpr (.inl hguard), ?_⟩
      rw [hsame]
      exact (readsEpoch_append le_rfl x).mpr h.epoch

/-- Between the election of a leader and an insertion by it no style was invalidated. -/
theorem no_invalidation {s : Session ρ} (h : Fenced s) (hfew : invalidations s.log < 2 ^ 64)
    {i j : ℕ} {res : TaskResult} (hins : s.log[j]? = some (.inserted i res true)) {m : ℕ}
    {sid : StyleId} (him : i ≤ m) (hmj : m < j) : s.log[m]? ≠ some (.invalidated sid) := by
  intro hentry
  obtain ⟨hij, key, required, guard, hguard, hacc⟩ := h.accepted j i res hins
  have hsame : invalidations (s.log.take i) = invalidations (s.log.take j) := by
    have hwords := (h.elected i key required guard hguard).symm.trans hacc
    have hi := lt_of_le_of_lt (invalidations_take_le s.log i) hfew
    have hj := lt_of_le_of_lt (invalidations_take_le s.log j) hfew
    have hnat := congrArg UInt64.toNat hwords
    rwa [UInt64.toNat_ofNat_of_lt' hi, UInt64.toNat_ofNat_of_lt' hj] at hnat
  exact nomatch countP_take_eq (Nat.le_of_lt hij) hsame him hmj hentry

variable [DecidableEq ρ]

theorem of_effect {hash : RenderCacheKey ρ → UInt64} (h : Fenced before) (htraced : Traced before)
    (heff : Effect hash before after) : Fenced after := by
  cases heff with
  | idle hinner hlead hlog =>
    exact ⟨by rw [hinner, hlog]; exact h.epoch, by rw [hlog]; exact h.elected, by rw [hlog]; exact h.accepted⟩
  | missed key readable hinner hlead hlog | hit key readable output hhit hinner hlead hlog
  | joined key readable channel hfly hinner hlead hlog | refused leader res hinner hlead hlog
  | evicted key hinner hlead hlog | invalidated sid hinner hlead hlog =>
    exact h.append hlog (by rw [hinner]; rfl) (fun _ _ _ hx => nomatch hx) (fun _ _ hx => nomatch hx)
  | elected key readable hfree hcache hepoch hchans hflies hlead hlog =>
    refine h.append hlog (by rw [hepoch]; rfl) ?_ (fun _ _ hx => nomatch hx)
    intro _ _ guard hx
    cases hx
    rfl
  | inserted leader guard output key hguard hkey hepoch hresid hinner hlead hlog =>
    refine h.append hlog (by rw [hinner]; rfl) (fun _ _ _ hx => nomatch hx) ?_
    intro i res hx
    cases hx
    obtain ⟨key, -, hentry⟩ := htraced.leaders leader guard hguard
    exact ⟨key, _, guard, hentry, hepoch⟩
  | dropped leader guard hguard hinner hlead hlog =>
    obtain ⟨key, hkey, -⟩ := htraced.leaders leader guard hguard
    refine h.append hlog ?_ (fun _ _ _ hx => nomatch hx) (fun _ _ hx => nomatch hx)
    rw [hinner, (guard.drop_spec hash before.inner hkey).1]
    rfl

end Fenced

variable [DecidableEq ρ] (hash : RenderCacheKey ρ → UInt64)

theorem fenced_new : Fenced (sessions hash).init :=
  ⟨rfl, by simp [sessions, new], by simp [sessions, new]⟩

/-! ## Flights belong to leaders -/

/-- The follower is woken, or the leader elected at step `i` is at work and its flight is the one the
follower waits on. -/
def AwaitsLeader (session : Session ρ) (i : ℕ) (key : RenderCacheKey ρ) (receiver : Watch.Receiver) : Prop :=
  session.inner.channels.changed receiver = true ∨
    (∃ guard, session.leaders.lookup i = some guard ∧ guard.key = some key) ∧
      session.inner.flight hash key = some receiver.channel

structure Flights (hash : RenderCacheKey ρ → UInt64) (session : Session ρ) : Prop where
  live : ∀ i guard key, session.leaders.lookup i = some guard → guard.key = some key →
    session.inner.flight hash key ≠ none
  unique : ∀ i i' guard guard', session.leaders.lookup i = some guard → session.leaders.lookup i' = some guard' →
    guard.key = guard'.key → i = i'
  owner : ∀ key channel, session.inner.flight hash key = some channel → channel < session.inner.channels.length ∧
    ∃ i guard, session.leaders.lookup i = some guard ∧ guard.key = some key
  undropped : ∀ i guard (m : ℕ), session.leaders.lookup i = some guard → session.log[m]? ≠ some (.dropped i)
  dropped : ∀ m i : ℕ, session.log[m]? = some (.dropped i) → i < m
  followers : ∀ (j : ℕ) key readable follower, session.log[j]? = some (.returned key readable (.wait follower)) →
    ∃ i required, i < j ∧ Elected session.log i key required ∧ (∀ m : ℕ, m < j → session.log[m]? ≠ some (.dropped i)) ∧
      AwaitsLeader hash session i key follower.changed

theorem flights_new : Flights hash (Session.new : Session ρ) where
  live := by intro i guard key h; simp [new] at h
  unique := by intro i i' guard guard' h; simp [new] at h
  owner := by intro key channel h; simp [new, RenderOutputCacheInner.new, RenderOutputCacheInner.flight] at h
  undropped := by intro i guard m h; simp [new] at h
  dropped := by intro m i h; simp [new] at h
  followers := by intro j key readable foll h; simp [new] at h

namespace Flights

variable {hash : RenderCacheKey ρ → UInt64} {before after : Session ρ} {x : Entry ρ}

section

variable (h : Flights hash before) {guard : RenderFlightLeader ρ}
  {readable : Option NamespaceSet} {key : RenderCacheKey ρ}
include h

theorem followers_append (hlog : after.log = before.log ++ [x])
    (hold : ∀ i key recv, AwaitsLeader hash before i key recv → AwaitsLeader hash after i key recv)
    (hnew : ∀ key readable foll, x = .returned key readable (.wait foll) →
      ∃ i required, Elected before.log i key required ∧ (∀ m : ℕ, before.log[m]? ≠ some (.dropped i)) ∧
        AwaitsLeader hash after i key foll.changed) :
    ∀ (j : ℕ) key readable foll, after.log[j]? = some (.returned key readable (.wait foll)) →
      ∃ i required, i < j ∧ Elected after.log i key required ∧ (∀ m : ℕ, m < j → after.log[m]? ≠ some (.dropped i)) ∧
        AwaitsLeader hash after i key foll.changed := by
  intro j key readable foll hentry
  rw [hlog] at hentry ⊢
  cases getElem?_log.mp hentry with
  | inl hj =>
    obtain ⟨i, required, hij, helec, hundropped, hawaits⟩ := h.followers j key readable foll hj
    have hlen := lt_length hj
    refine ⟨i, required, hij, (elected_append helec.lt x).mpr helec, ?_, hold i key _ hawaits⟩
    intro m hm
    rw [getElem?_append_left (by omega)]
    exact hundropped m hm
  | inr hj =>
    obtain ⟨rfl, hx⟩ := hj
    obtain ⟨i, required, helec, hundropped, hawaits⟩ := hnew key readable foll hx
    refine ⟨i, required, helec.lt, (elected_append helec.lt x).mpr helec, ?_, hawaits⟩
    intro m hm
    rw [getElem?_append_left hm]
    exact hundropped m

theorem undropped_append (hx : ∀ i, x ≠ .dropped i) {i : ℕ}
    (hguard : before.leaders.lookup i = some guard) (m : ℕ) : (before.log ++ [x])[m]? ≠ some (.dropped i) := by
  intro hentry
  cases getElem?_log.mp hentry with
  | inl hold => exact h.undropped i guard m hguard hold
  | inr hnew => exact hx i hnew.2

theorem dropped_append (hx : ∀ i, x = .dropped i → i < before.log.length) (m i : ℕ)
    (hentry : (before.log ++ [x])[m]? = some (.dropped i)) : i < m := by
  cases getElem?_log.mp hentry with
  | inl hold => exact h.dropped m i hold
  | inr hnew =>
    rw [hnew.1]
    exact hx i hnew.2

theorem of_same (hlog : after.log = before.log ++ [x]) (hflies : after.inner.flight hash = before.inner.flight hash)
    (hchans : after.inner.channels = before.inner.channels) (hlead : after.leaders = before.leaders)
    (hdropped : ∀ i, x ≠ .dropped i) (hnew : ∀ key readable foll, x = .returned key readable (.wait foll) →
      ∃ i required, Elected before.log i key required ∧ (∀ m : ℕ, before.log[m]? ≠ some (.dropped i)) ∧
        AwaitsLeader hash before i key foll.changed) :
    Flights hash after := by
  have hawaits : ∀ i key recv, AwaitsLeader hash after i key recv ↔ AwaitsLeader hash before i key recv := by
    intro i key recv
    unfold AwaitsLeader
    rw [hflies, hchans, hlead]
  refine ⟨?_, ?_, ?_, ?_, ?_, ?_⟩
  · rw [hflies, hlead]; exact h.live
  · rw [hlead]; exact h.unique
  · rw [hflies, hchans, hlead]; exact h.owner
  · rw [hlog, hlead]; exact fun i guard m hguard => h.undropped_append hdropped hguard m
  · rw [hlog]; exact h.dropped_append (fun i hx => absurd hx (hdropped i))
  · refine h.followers_append hlog (fun i key recv => (hawaits i key recv).mpr) ?_
    intro key readable foll hx
    obtain ⟨i, required, helec, hundropped, hbef⟩ := hnew key readable foll hx
    exact ⟨i, required, helec, hundropped, (hawaits i key _).mpr hbef⟩

theorem of_joined (htraced : Traced before) {channel : ℕ} (hfly : before.inner.flight hash key = some channel)
    (hinner : after.inner = before.inner) (hlead : after.leaders = before.leaders)
    (hlog : after.log = before.log ++
      [.returned key readable (.wait ⟨key, readable, before.inner.channels.subscribe channel⟩)]) :
    Flights hash after := by
  refine h.of_same hlog (by rw [hinner]) (by rw [hinner]) hlead (fun _ hx => nomatch hx) ?_
  intro _ _ foll hx
  cases hx
  obtain ⟨-, i, guard, hguard, hkey⟩ := h.owner key channel hfly
  obtain ⟨key', hkey', hentry⟩ := htraced.leaders i guard hguard
  obtain rfl : key = key' := some.inj (hkey.symm.trans hkey')
  exact ⟨i, _, elected_of_entry hkey hentry, fun m => h.undropped i guard m hguard, .inr ⟨⟨guard, hguard, hkey⟩, hfly⟩⟩

theorem of_elected (htraced : Traced before) (hkey : guard.key = some key)
    (hfree : before.inner.flight hash key = none) (hchans : after.inner.channels = before.inner.channels.create 0)
    (hflies : ∀ k, after.inner.flight hash k =
      if k = key then some before.inner.channels.length else before.inner.flight hash k)
    (hlead : after.leaders = before.leaders.insert before.log.length guard)
    (hlog : after.log = before.log ++ [.returned key readable (.leader guard)]) : Flights hash after := by
  -- no leader is at work for a key without a flight
  have hother : ∀ i guard', before.leaders.lookup i = some guard' → guard'.key ≠ some key :=
    fun i guard' hguard' hkey' => h.live i guard' key hguard' hkey' hfree
  have hold : ∀ i guard', before.leaders.lookup i = some guard' → i < before.log.length := by
    intro i guard' hguard'
    obtain ⟨_, _, hentry⟩ := htraced.leaders i guard' hguard'
    exact lt_length hentry
  have hlook : ∀ i guard', after.leaders.lookup i = some guard' ↔
      (i = before.log.length ∧ guard = guard') ∨ before.leaders.lookup i = some guard' := by
    intro i guard'
    rw [hlead, HashMap.lookup_insert_eq]
    by_cases hi : i = before.log.length
    · rw [if_pos hi, some.injEq]
      constructor
      · exact fun hg => .inl ⟨hi, hg⟩
      · rintro (hg | hg)
        · exact hg.2
        · exact absurd (hold i guard' hg) (by omega)
    · simp [hi]
  have hlen : after.inner.channels.length = before.inner.channels.length + 1 := by
    rw [hchans, Watch.Heap.create, length_append, length_singleton]
  refine ⟨?_, ?_, ?_, ?_, ?_, ?_⟩
  · intro i guard' k hguard' hk
    rw [hflies]
    split_ifs with hkk
    · exact some_ne_none _
    · cases (hlook i guard').mp hguard' with
      | inl hg =>
        obtain ⟨_, rfl⟩ := hg
        exact absurd (some.inj (hk.symm.trans hkey)) hkk
      | inr hg => exact h.live i guard' k hg hk
  · intro i i' guard₁ guard₂ h₁ h₂ hsame
    cases (hlook i guard₁).mp h₁ with
    | inl hg =>
      obtain ⟨rfl, rfl⟩ := hg
      cases (hlook i' guard₂).mp h₂ with
      | inl hg' => exact hg'.1.symm
      | inr hg' => exact absurd (hsame.symm.trans hkey) (hother i' guard₂ hg')
    | inr hg =>
      cases (hlook i' guard₂).mp h₂ with
      | inl hg' =>
        obtain ⟨rfl, rfl⟩ := hg'
        exact absurd (hsame.trans hkey) (hother i guard₁ hg)
      | inr hg' => exact h.unique i i' guard₁ guard₂ hg hg' hsame
  · intro k channel hfly
    rw [hflies] at hfly
    split_ifs at hfly with hk
    · rw [some.injEq] at hfly
      subst hk hfly
      exact ⟨by omega, before.log.length, guard, (hlook _ _).mpr (.inl ⟨rfl, rfl⟩), hkey⟩
    · obtain ⟨hchan, i, guard', hguard', hkey'⟩ := h.owner k channel hfly
      exact ⟨by omega, i, guard', (hlook i guard').mpr (.inr hguard'), hkey'⟩
  · intro i guard' m hguard'
    rw [hlog]
    cases (hlook i guard').mp hguard' with
    | inl hg =>
      obtain ⟨rfl, rfl⟩ := hg
      intro hentry
      cases getElem?_log.mp hentry with
      | inl hm => exact absurd (h.dropped m _ hm) (by have := (lt_length hm); omega)
      | inr hm => cases hm.2
    | inr hg =>
      refine h.undropped_append ?_ hg m
      intro _ hx
      cases hx
  · rw [hlog]
    refine h.dropped_append ?_
    intro i hx
    cases hx
  · refine h.followers_append hlog ?_ (fun _ _ _ hx => by cases hx)
    intro i k recv hawaits
    cases hawaits with
    | inl hchanged =>
      left
      rw [hchans]
      exact Watch.Heap.changed_create 0 hchanged
    | inr hwait =>
      obtain ⟨⟨guard', hguard', hkey'⟩, hfly⟩ := hwait
      refine .inr ⟨⟨guard', (hlook i guard').mpr (.inr hguard'), hkey'⟩, ?_⟩
      rw [hflies, if_neg (fun hk => hother i guard' hguard' (by rw [hkey', hk])), hfly]

theorem of_dropped (htraced : Traced before) {leader : ℕ}
    (hguard : before.leaders.lookup leader = some guard) (hinner : after.inner = guard.drop hash before.inner)
    (hlead : after.leaders = before.leaders.erase leader) (hlog : after.log = before.log ++ [.dropped leader]) :
    Flights hash after := by
  obtain ⟨key, hkey, hentry⟩ := htraced.leaders leader guard hguard
  have hleader := lt_length hentry
  obtain ⟨-, hchans, hflies⟩ := guard.drop_spec hash before.inner hkey
  rw [← hinner] at hchans hflies
  obtain ⟨channel, hfly⟩ := ne_none_iff_exists'.mp (h.live leader guard key hguard hkey)
  rw [hfly, elim_some] at hchans
  have hlook : ∀ i guard', after.leaders.lookup i = some guard' ↔
      i ≠ leader ∧ before.leaders.lookup i = some guard' := by
    intro i guard'
    rw [hlead, HashMap.lookup_erase_eq, ite_none_left_eq_some]
  -- the other leaders have other keys
  have hother : ∀ i guard', i ≠ leader → before.leaders.lookup i = some guard' → guard'.key ≠ some key :=
    fun i guard' hi hguard' hkey' => hi (h.unique i leader guard' guard hguard' hguard (hkey'.trans hkey.symm))
  refine ⟨?_, ?_, ?_, ?_, ?_, ?_⟩
  · intro i guard' k hguard' hk
    obtain ⟨hi, hg⟩ := (hlook i guard').mp hguard'
    rw [hflies, if_neg (fun hkk => hother i guard' hi hg (by rw [hk, hkk]))]
    exact h.live i guard' k hg hk
  · intro i i' guard₁ guard₂ h₁ h₂
    exact h.unique i i' guard₁ guard₂ ((hlook i guard₁).mp h₁).2 ((hlook i' guard₂).mp h₂).2
  · intro k channel' hfly'
    rw [hflies, ite_none_left_eq_some] at hfly'
    obtain ⟨hk, hfly'⟩ := hfly'
    obtain ⟨hchan, i, guard', hguard', hkey'⟩ := h.owner k channel' hfly'
    refine ⟨?_, i, guard', (hlook i guard').mpr ⟨?_, hguard'⟩, hkey'⟩
    · rw [hchans, Watch.Heap.sendAndDrop, length_modify]
      exact hchan
    · rintro rfl
      obtain rfl := some.inj (hguard.symm.trans hguard')
      exact hk (some.inj (hkey'.symm.trans hkey))
  · intro i guard' m hguard'
    obtain ⟨hi, hg⟩ := (hlook i guard').mp hguard'
    rw [hlog]
    intro hdropped
    cases getElem?_log.mp hdropped with
    | inl hm => exact h.undropped i guard' m hg hm
    | inr hm =>
      cases hm.2
      exact hi rfl
  · rw [hlog]
    refine h.dropped_append ?_
    intro i hx
    cases hx
    exact hleader
  · refine h.followers_append hlog ?_ (fun _ _ _ hx => nomatch hx)
    intro i k recv hawaits
    have hclosed : ∀ c : Watch.Channel UInt64,
        (⟨c.value + 1, c.version + 1, false⟩ : Watch.Channel UInt64).senderAlive = false := fun _ => rfl
    cases hawaits with
    | inl hchanged =>
      left
      rw [hchans]
      exact Watch.Heap.changed_modify channel hclosed hchanged
    | inr hwait =>
      obtain ⟨⟨guard', hguard', hkey'⟩, hwaits⟩ := hwait
      by_cases hi : i = leader
      · -- the follower's own leader: its channel is the one that was closed
        subst hi
        left
        obtain rfl := some.inj (hguard.symm.trans hguard')
        obtain rfl : k = key := some.inj (hkey'.symm.trans hkey)
        obtain rfl : channel = recv.channel := some.inj (hfly.symm.trans hwaits)
        rw [hchans]
        exact Watch.Heap.modify_changed hclosed (h.owner k _ hwaits).1
      · refine .inr ⟨⟨guard', (hlook i guard').mpr ⟨hi, hguard'⟩, hkey'⟩, ?_⟩
        rw [hflies, if_neg (fun hk => hother i guard' hi hguard' (by rw [hkey', hk])), hwaits]

theorem of_effect (htraced : Traced before) (heff : Effect hash before after) : Flights hash after := by
  cases heff with
  | idle hinner hlead hlog =>
    refine ⟨?_, ?_, ?_, ?_, ?_, ?_⟩
    · rw [hinner, hlead]; exact h.live
    · rw [hlead]; exact h.unique
    · rw [hinner, hlead]; exact h.owner
    · rw [hlog, hlead]; exact h.undropped
    · rw [hlog]; exact h.dropped
    · unfold AwaitsLeader
      rw [hinner, hlead, hlog]
      exact h.followers
  | missed key readable hinner hlead hlog | hit key readable output hhit hinner hlead hlog
  | refused leader res hinner hlead hlog =>
    exact h.of_same hlog (by rw [hinner]) (by rw [hinner]) hlead (fun _ hx => nomatch hx) (fun _ _ _ hx => nomatch hx)
  | joined key readable channel hfly hinner hlead hlog => exact h.of_joined htraced hfly hinner hlead hlog
  | elected key readable hfree hcache hepoch hchans hflies hlead hlog =>
    exact h.of_elected htraced rfl hfree hchans hflies hlead hlog
  | inserted leader guard output key hguard hkey hepoch hresid hinner hlead hlog =>
    exact h.of_same hlog (by rw [hinner]; rfl) (by rw [hinner]) hlead (fun _ hx => nomatch hx) (fun _ _ _ hx => nomatch hx)
  | dropped leader guard hguard hinner hlead hlog => exact h.of_dropped htraced hguard hinner hlead hlog
  | evicted key hinner hlead hlog | invalidated sid hinner hlead hlog =>
    exact h.of_same hlog (by rw [hinner]; rfl) (by rw [hinner]; rfl) hlead (fun _ hx => nomatch hx)
      (fun _ _ _ hx => nomatch hx)

end

end Flights

theorem all_reachable {hash : RenderCacheKey ρ → UInt64} {s : Session ρ}
    (h : Reachable (sessions hash) s) : Fenced s ∧ Flights hash s ∧ Traced s := by
  refine h.invariant (I := fun s => Fenced s ∧ Flights hash s ∧ Traced s)
    ⟨fenced_new hash, flights_new hash, traced_new⟩ ?_
  rintro s _ ⟨hfence, hflies, htraced⟩ ⟨action, rfl⟩
  have heff := s.step_effect hash action
  exact ⟨hfence.of_effect htraced heff, hflies.of_effect htraced heff, htraced.of_effect heff⟩

/-! ## The fence -/

/-- In every session with fewer than `2 ^ 64` invalidations: an image of a style returned after an
invalidation of that style was rendered by a leader elected after it, and a leader elected before it
inserts nothing after it. In every session: a key has at most one leader, and a follower that joined is
woken unless the leader it joined, which had not been dropped then, is still at work. -/
theorem invalidation_fences_renders (hash : RenderCacheKey ρ → UInt64) (session : Session ρ)
    (h : Reachable (sessions hash) session) :
    (invalidations session.log < 2 ^ 64 → ∀ k styleId, session.log[k]? = some (.invalidated styleId) →
      (∀ n key readable output, session.log[n]? = some (.returned key readable (.hit output)) → k < n →
        key.styleId = styleId.value → ∃ required i j, k < i ∧ Produced session.log n key required output i j) ∧
      ∀ i j key required result, Elected session.log i key required → i < k → k < j →
        key.styleId = styleId.value → session.log[j]? ≠ some (.inserted i result true)) ∧
    (∀ i i' guard guard', session.leaders.lookup i = some guard → session.leaders.lookup i' = some guard' →
      guard.key = guard'.key → i = i') ∧
    ∀ j key readable follower, session.log[j]? = some (.returned key readable (.wait follower)) →
      ∃ i required, i < j ∧ Elected session.log i key required ∧ (∀ m : ℕ, m < j → session.log[m]? ≠ some (.dropped i)) ∧
        (session.inner.channels.changed follower.changed = true ∨
          ∃ guard, session.leaders.lookup i = some guard ∧ guard.key = some key) := by
  obtain ⟨hfenced, hflights, htraced⟩ := all_reachable h
  refine ⟨?_, hflights.unique, ?_⟩
  · intro hfew k styleId hinvalidated
    refine ⟨?_, ?_⟩
    · intro n key readable output hhit hkn hstyle
      obtain ⟨required, i, j, hproduced, -⟩ := htraced.hits n key readable output hhit
      -- not between insertion and hit, not between election and insertion: so before the election
      have hkj : k ≤ j := by
        by_contra hlt
        exact hproduced.kept k styleId (by omega) hkn hinvalidated hstyle
      have hne : k ≠ j := by
        rintro rfl
        exact nomatch hinvalidated.symm.trans hproduced.inserted
      have hki : k < i := by
        by_contra hge
        exact hfenced.no_invalidation hfew hproduced.inserted (by omega) (by omega) hinvalidated
      exact ⟨required, i, j, hki, hproduced⟩
    · intro i j key required result _ hik hkj _ hinserted
      exact hfenced.no_invalidation hfew hinserted (Nat.le_of_lt hik) hkj hinvalidated
  · intro j key readable follower hjoined
    obtain ⟨i, required, hij, helected, hundropped, hawaits⟩ := hflights.followers j key readable follower hjoined
    exact ⟨i, required, hij, helected, hundropped, hawaits.imp_right And.left⟩

/-- The style is invalidated while it is rendered; the result is refused and the image rendered again. -/
def fencedRender : Session Unit := run (fun _ => 0)
  [.lookup sampleKey none, .join 0, .invalidateStyle ⟨"demo/basic"⟩, .insertFromOutcome 1 (.completed sampleImage),
    .dropLeader 1, .lookup sampleKey none, .join 5, .insertFromOutcome 6 (.completed sampleImage),
    .lookup sampleKey none]

theorem fencedRender_rendered_again :
    ∃ required i j, 2 < i ∧ Produced fencedRender.log 8 sampleKey required sampleImage i j :=
  (((invalidation_fences_renders (fun _ => 0) fencedRender (reachable_run _ _)).1 (by decide +kernel) 2
    ⟨"demo/basic"⟩ (by decide +kernel)).1 8 sampleKey none sampleImage (by decide +kernel) (by decide) rfl)

end Mappf.Biei.RenderCacheRun
