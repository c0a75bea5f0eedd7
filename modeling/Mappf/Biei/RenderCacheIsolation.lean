import Mappf.Biei.RenderCacheRun

/-! # Images reach only callers that may read them

Every resident image is traced back through the log to the step that inserted it and to the election of
its leader (`Produced`). A hit is a read of a resident image under the check of its requirement, so the
trace carries over to everything a call returns. -/
namespace Mappf.Biei.RenderCacheRun
open RenderOutputCacheInner Option List

open Styles (StyleId)

variable {ρ : Type}

/-- The call that returned at step `i` made its caller, with the namespaces `required`, leader for `key`. -/
def Elected (log : List (Entry ρ)) (i : ℕ) (key : RenderCacheKey ρ) (required : Option NamespaceSet) : Prop :=
  ∃ epoch, log[i]? = some (.returned key required (.leader ⟨some key, required, epoch⟩))

variable {log : List (Entry ρ)} {i : ℕ} {required : Option NamespaceSet} {key : RenderCacheKey ρ}

theorem Elected.lt (h : Elected log i key required) : i < log.length := by
  obtain ⟨_, hentry⟩ := h
  exact lt_length hentry

theorem elected_append (hi : i < log.length) (x : Entry ρ) :
    Elected (log ++ [x]) i key required ↔ Elected log i key required := by
  unfold Elected
  rw [getElem?_append_left hi]

theorem elected_of_entry {guard : RenderFlightLeader ρ} (hkey : guard.key = some key)
    (hentry : log[i]? = some (.returned key guard.requiredNamespaces (.leader guard))) :
    Elected log i key guard.requiredNamespaces := by
  refine ⟨guard.invalidationEpoch, ?_⟩
  rw [hentry, ← hkey]

theorem Elected.unique {key' : RenderCacheKey ρ} {required' : Option NamespaceSet}
    (h : Elected log i key required) (h' : Elected log i key' required') : key = key' := by
  obtain ⟨_, hentry⟩ := h
  obtain ⟨_, hentry'⟩ := h'
  rw [hentry] at hentry'
  cases hentry'
  rfl

/-- Just before step `n` the image of `key` is `output`: the leader elected at step `i` inserted it at
step `j`, and no image of `key` was inserted and no invalidation of its style took place since. -/
structure Produced (log : List (Entry ρ)) (n : ℕ) (key : RenderCacheKey ρ) (required : Option NamespaceSet)
    (output : RenderOutput) (i j : ℕ) : Prop where
  order : i < j ∧ j < n
  elected : Elected log i key required
  inserted : log[j]? = some (.inserted i (.completed output) true)
  latest : ∀ m leader result required', j < m → m < n → log[m]? = some (.inserted leader result true) →
    leader < m → ¬ Elected log leader key required'
  kept : ∀ m styleId, j < m → m < n → log[m]? = some (.invalidated styleId) → key.styleId ≠ styleId.value

namespace Produced

variable {output : RenderOutput} {j : ℕ}

theorem append {n : ℕ} (h : Produced log n key required output i j) (hn : n ≤ log.length) (x : Entry ρ) :
    Produced (log ++ [x]) n key required output i j := by
  obtain ⟨hij, hjn⟩ := h.order
  refine ⟨h.order, (elected_append (by omega) x).mpr h.elected, ?_, ?_, ?_⟩
  · rw [getElem?_append_left (by omega)]
    exact h.inserted
  · intro m leader res required' hjm hmn hentry hleader
    rw [getElem?_append_left (by omega)] at hentry
    rw [elected_append (by omega)]
    exact h.latest m leader res required' hjm hmn hentry hleader
  · intro m sid hjm hmn hentry
    rw [getElem?_append_left (by omega)] at hentry
    exact h.kept m sid hjm hmn hentry

theorem extend (h : Produced log log.length key required output i j) {x : Entry ρ}
    (hlat : ∀ leader res required', x = .inserted leader res true → ¬ Elected log leader key required')
    (hkept : ∀ sid, x = .invalidated sid → key.styleId ≠ sid.value) :
    Produced (log ++ [x]) (log.length + 1) key required output i j := by
  have hold := h.append le_rfl x
  refine ⟨⟨h.order.1, Nat.lt_succ_of_lt h.order.2⟩, hold.elected, hold.inserted, ?_, ?_⟩
  · intro m leader res required' hjm hmn hentry hleader
    cases Nat.lt_or_ge m log.length with
    | inl hm => exact hold.latest m leader res required' hjm hm hentry hleader
    | inr hm =>
      obtain rfl : m = log.length := by omega
      rw [getElem?_concat_length, some.injEq] at hentry
      rw [elected_append hleader]
      exact hlat leader res required' hentry
  · intro m sid hjm hmn hentry
    cases Nat.lt_or_ge m log.length with
    | inl hm => exact hold.kept m sid hjm hm hentry
    | inr hm =>
      obtain rfl : m = log.length := by omega
      rw [getElem?_concat_length, some.injEq] at hentry
      exact hkept sid hentry

theorem fresh (helec : Elected log i key required) :
    Produced (log ++ [Entry.inserted i (.completed output) true]) (log.length + 1) key required output i log.length := by
  have hi := helec.lt
  refine ⟨⟨hi, Nat.lt_succ_self _⟩, (elected_append hi _).mpr helec, getElem?_concat_length, ?_, ?_⟩
  · intro m _ _ _ hjm hmn
    omega
  · intro m _ hjm hmn
    omega

end Produced

/-! ## The trace of every image -/

def Entry.quiet : Entry ρ → Bool
  | .returned _ _ (.hit _) => false
  | .inserted _ _ true => false
  | .invalidated _ => false
  | _ => true

variable [DecidableEq ρ] {hash : RenderCacheKey ρ → UInt64}

structure Traced (session : Session ρ) : Prop where
  leaders : ∀ i guard, session.leaders.lookup i = some guard →
    ∃ key, guard.key = some key ∧ session.log[i]? = some (.returned key guard.requiredNamespaces (.leader guard))
  resident : ∀ key entry, session.inner.cache.lookup key = some entry →
    ∃ i j, Produced session.log session.log.length key entry.requiredNamespaces entry.output i j
  hits : ∀ n key readable output, session.log[n]? = some (.returned key readable (.hit output)) →
    ∃ required i j, Produced session.log n key required output i j ∧ Authorized required readable

theorem traced_new : Traced (Session.new : Session ρ) where
  leaders := by intro i guard h; simp [Session.new] at h
  resident := by intro key entry h; simp [Session.new, new] at h
  hits := by intro n key readable output h; simp [Session.new] at h

namespace Traced

variable {before after : Session ρ} {x : Entry ρ}

section

variable (h : Traced before) {guard : RenderFlightLeader ρ}
include h

theorem hits_append (hlog : after.log = before.log ++ [x])
    (hhit : ∀ key readable output, x = .returned key readable (.hit output) →
      before.inner.cachedHit key readable = some output) :
    ∀ n key readable output, after.log[n]? = some (.returned key readable (.hit output)) →
      ∃ required i j, Produced after.log n key required output i j ∧ Authorized required readable := by
  intro n key readable output hentry
  rw [hlog] at hentry ⊢
  cases getElem?_log.mp hentry with
  | inl hold =>
    obtain ⟨required, i, j, hprod, hauth⟩ := h.hits n key readable output hold
    have hn := lt_length hold
    exact ⟨required, i, j, hprod.append (Nat.le_of_lt hn) x, hauth⟩
  | inr hnew =>
    obtain ⟨hn, hx⟩ := hnew
    -- the image read by this step is resident, so its trace ends just before the step
    obtain ⟨entry, hentry, hout, hauth⟩ :=
      cachedHit_eq_some.mp (hhit key readable output hx)
    obtain ⟨i, j, hprod⟩ := h.resident key entry hentry
    rw [hout] at hprod
    rw [hn]
    exact ⟨entry.requiredNamespaces, i, j, hprod.append le_rfl x, hauth⟩

theorem leaders_append (x : Entry ρ) (hguard : before.leaders.lookup i = some guard) : ∃ key, guard.key = some key ∧
      (before.log ++ [x])[i]? = some (.returned key guard.requiredNamespaces (.leader guard)) := by
  obtain ⟨key, hkey, hentry⟩ := h.leaders i guard hguard
  exact ⟨key, hkey, getElem?_log.mpr (.inl hentry)⟩

theorem of_reads (hlog : after.log = before.log ++ [x]) (hlead : ∀ i guard, after.leaders.lookup i = some guard →
      ∃ key, guard.key = some key ∧
        (before.log ++ [x])[i]? = some (.returned key guard.requiredNamespaces (.leader guard)))
    (hcache : ∀ key entry, after.inner.cache.lookup key = some entry → before.inner.cache.lookup key = some entry)
    (hinsert : ∀ leader res, x ≠ .inserted leader res true)
    (hkept : ∀ key entry sid, after.inner.cache.lookup key = some entry → x = .invalidated sid →
      key.styleId ≠ sid.value)
    (hhit : ∀ key readable output, x = .returned key readable (.hit output) →
      before.inner.cachedHit key readable = some output) :
    Traced after where
  leaders := by rw [hlog]; exact hlead
  resident := by
    intro key entry hentry
    obtain ⟨i, j, hprod⟩ := h.resident key entry (hcache key entry hentry)
    rw [hlog, length_append, length_singleton]
    exact ⟨i, j, hprod.extend (fun leader res _ hx => absurd hx (hinsert leader res))
      (fun sid => hkept key entry sid hentry)⟩
  hits := h.hits_append hlog hhit

theorem of_quiet (hlog : after.log = before.log ++ [x]) (hquiet : x.quiet = true)
    (hlead : ∀ i guard, after.leaders.lookup i = some guard →
      ∃ key, guard.key = some key ∧
        (before.log ++ [x])[i]? = some (.returned key guard.requiredNamespaces (.leader guard)))
    (hcache : ∀ key entry, after.inner.cache.lookup key = some entry → before.inner.cache.lookup key = some entry) :
    Traced after := by
  refine h.of_reads hlog hlead hcache ?_ ?_ ?_
  · rintro leader res rfl
    cases hquiet
  · rintro key entry sid _ rfl
    cases hquiet
  · rintro key readable output rfl
    cases hquiet

theorem of_insert {output : RenderOutput} (hguard : before.leaders.lookup i = some guard) (hkey : guard.key = some key)
    (hcache : after.inner.cache = before.inner.cache.insert key ⟨output, guard.requiredNamespaces⟩)
    (hlead : after.leaders = before.leaders)
    (hlog : after.log = before.log ++ [.inserted i (.completed output) true]) : Traced after := by
  obtain ⟨_, hkey', hgrd⟩ := h.leaders i guard hguard
  obtain rfl : key = _ := some.inj (hkey.symm.trans hkey')
  have helec := elected_of_entry hkey hgrd
  refine ⟨?_, ?_, h.hits_append hlog nofun⟩
  · rw [hlog, hlead]
    exact fun _ _ => h.leaders_append _
  · intro k entry hentry
    rw [hcache, HashMap.lookup_insert_eq] at hentry
    rw [hlog, length_append, length_singleton]
    split_ifs at hentry with hk
    · rw [some.injEq] at hentry
      subst hk hentry
      exact ⟨i, before.log.length, .fresh helec⟩
    · obtain ⟨i', j', hprod⟩ := h.resident k entry hentry
      refine ⟨i', j', hprod.extend ?_ nofun⟩
      intro leader res required' hx hleader
      cases hx
      exact hk (hleader.unique helec)

theorem of_effect (heff : Effect hash before after) : Traced after := by
  cases heff with
  | idle hinner hlead hlog =>
    exact ⟨by rw [hlead, hlog]; exact h.leaders, by rw [hinner, hlog]; exact h.resident, by rw [hlog]; exact h.hits⟩
  | missed key readable hinner hlead hlog | joined key readable channel hfly hinner hlead hlog
  | refused leader res hinner hlead hlog =>
    refine h.of_quiet hlog rfl ?_ ?_
    · rw [hlead]; exact fun _ _ => h.leaders_append _
    · rw [hinner]; exact fun _ _ => id
  | hit key readable output hhit hinner hlead hlog =>
    refine h.of_reads hlog ?_ ?_ nofun nofun ?_
    · rw [hlead]; exact fun _ _ => h.leaders_append _
    · rw [hinner]; exact fun _ _ => id
    · intro _ _ _ hx
      cases hx
      exact hhit
  | elected key readable hfree hcache hepoch hchans hflies hlead hlog =>
    refine h.of_quiet hlog rfl ?_ ?_
    · intro i guard hguard
      rw [hlead, HashMap.lookup_insert_eq] at hguard
      split_ifs at hguard with hi
      · rw [some.injEq] at hguard
        subst hi hguard
        exact ⟨key, rfl, getElem?_concat_length⟩
      · exact h.leaders_append _ hguard
    · rw [hcache]; exact fun _ _ => id
  | inserted leader guard output key hguard hkey hepoch hresid hinner hlead hlog =>
    exact h.of_insert hguard hkey (by rw [hinner]) hlead hlog
  | dropped leader guard hguard hinner hlead hlog =>
    refine h.of_quiet hlog rfl ?_ ?_
    · intro i guard' hguard'
      rw [hlead, HashMap.lookup_erase_eq, ite_none_left_eq_some] at hguard'
      exact h.leaders_append _ hguard'.2
    · rw [hinner, guard.drop_cache]; exact fun _ _ => id
  | evicted key hinner hlead hlog =>
    refine h.of_quiet hlog rfl ?_ ?_
    · rw [hlead]; exact fun _ _ => h.leaders_append _
    · intro k entry hentry
      rw [hinner, lookup_evict] at hentry
      exact hentry.2
  | invalidated sid hinner hlead hlog =>
    refine h.of_reads hlog ?_ ?_ nofun ?_ nofun
    · rw [hlead]; exact fun _ _ => h.leaders_append _
    · intro k entry hentry
      rw [hinner, lookup_invalidateStyle] at hentry
      exact hentry.1
    · intro k entry _ hentry hx
      cases hx
      rw [hinner, lookup_invalidateStyle] at hentry
      exact hentry.2

end

end Traced

theorem traced_reachable {s : Session ρ} (h : Reachable (sessions hash) s) : Traced s := by
  refine h.invariant (I := Traced) traced_new ?_
  rintro s _ htraced ⟨action, rfl⟩
  exact htraced.of_effect (s.step_effect hash action)

/-! ## Requirements and hits -/

/-- A resident image gives way only to one under the same requirement. -/
theorem requirement_kept {before after : Session ρ}
    (heff : Effect hash before after) {entry entry' : CachedRenderOutput}
    (hbef : before.inner.cache.lookup key = some entry) (hafter : after.inner.cache.lookup key = some entry') :
    entry'.requiredNamespaces = entry.requiredNamespaces := by
  have hsame : before.inner.cache.lookup key = some entry' →
      entry'.requiredNamespaces = entry.requiredNamespaces := by
    intro h
    rw [some.inj (h.symm.trans hbef)]
  cases heff with
  | idle hinner | missed _ _ hinner | hit _ _ _ _ hinner | joined _ _ _ _ hinner | refused _ _ hinner =>
    rw [hinner] at hafter
    exact hsame hafter
  | elected _ _ _ hcache =>
    rw [hcache] at hafter
    exact hsame hafter
  | inserted leader guard output key' hguard hkey hepoch hresid hinner =>
    rw [hinner] at hafter
    rw [HashMap.lookup_insert_eq] at hafter
    split_ifs at hafter with hk
    · rw [some.injEq] at hafter
      subst hk hafter
      exact (hresid entry hbef).symm
    · exact hsame hafter
  | dropped _ guard _ hinner =>
    rw [hinner, guard.drop_cache] at hafter
    exact hsame hafter
  | evicted _ hinner =>
    rw [hinner, lookup_evict] at hafter
    exact hsame hafter.2
  | invalidated _ hinner =>
    rw [hinner, lookup_invalidateStyle] at hafter
    exact hsame hafter.1

/-- In every session: an image returned as a hit was inserted by a leader elected for the same key under a
requirement the caller satisfies; a follower's wait ends in lookups for its own key with its own caller's
namespaces, so its output passes the same check; and a resident image is only ever replaced by one under
the same requirement. -/
theorem cache_hit_authorized (hash : RenderCacheKey ρ → UInt64) (session : Session ρ)
    (h : Reachable (sessions hash) session) :
    (∀ n key readable output, session.log[n]? = some (.returned key readable (.hit output)) →
      ∃ required i j, Produced session.log n key required output i j ∧ Authorized required readable) ∧
    (∀ j key readable follower, session.log[j]? = some (.returned key readable (.wait follower)) →
      (session.step hash (.recheck j)).log = session.log ∨
        (∃ output, (session.step hash (.recheck j)).log = session.log ++ [.returned key readable (.hit output)]) ∨
        (session.step hash (.recheck j)).log = session.log ++ [.missed key readable]) ∧
    (∀ call key readable, session.log[call]? = some (.missed key readable) →
      (session.step hash (.join call)).log = session.log ∨
        ∃ lookup, (session.step hash (.join call)).log = session.log ++ [.returned key readable lookup]) ∧
    ∀ action key entry entry', session.inner.cache.lookup key = some entry →
      (session.step hash action).inner.cache.lookup key = some entry' →
        entry'.requiredNamespaces = entry.requiredNamespaces := by
  have hregistered := registered_reachable h
  refine ⟨(traced_reachable h).hits, ?_, ?_, ?_⟩
  · intro j key readable follower hjoined
    exact recheck_log hregistered hash hjoined
  · intro call key readable hmissed
    exact join_log hregistered hash hmissed
  · intro action key entry entry' hbefore hafter
    exact requirement_kept (session.step_effect hash action) hbefore hafter

def sampleKey : RenderCacheKey Unit := ⟨"demo/basic", 1, (), .x1, .png, none⟩

def sampleImage : RenderOutput := ⟨[0x89, 0x50], .png⟩

def demoOnly : NamespaceSet where
  labels := ["demo"]
  nonempty := by decide
  bounded := by decide
  valid := by decide +kernel
  ascending := List.pairwise_singleton _ _
  canonical := fun h => absurd h (by decide)

/-- A caller with every namespace follows the render of a caller with one, and is woken. -/
def sharedRender : Session Unit := run (fun _ => 0)
  [.lookup sampleKey (some demoOnly), .join 0, .lookup sampleKey (some .wildcard), .join 2,
    .insertFromOutcome 1 (.completed sampleImage), .dropLeader 1, .recheck 3]

theorem sharedRender_authorized :
    ∃ required i j, Produced sharedRender.log 6 sampleKey required sampleImage i j ∧
      Authorized required (some .wildcard) :=
  (cache_hit_authorized (fun _ => 0) sharedRender (reachable_run _ _)).1 6 sampleKey (some .wildcard) sampleImage
    (by decide +kernel)

end Mappf.Biei.RenderCacheRun
