import Mappf.Lib.Machine
import Mappf.Styles.CatalogSpec

/-! # Acceptance across a changeover

The latest version of a style may come from a peer, from a local fetch or from the configuration. A
request or a peer observation never stops accepting it. A record does in one case: it replaces a
version learned from a peer by content of its own, and the local entry never held that version. -/
namespace Mappf.Styles
open StyleCatalogInner

inductive Transition
  | recordObserved (now : Instant) (styleId : StyleId) (version : UInt64) (servedFreshness : Duration)
      (fence : RevalidationFence)
  | requestRevalidation (styleId : StyleId) (hintId : Option String)
  | applyClusterObservation (observation : StyleRevisionObservation)

def StyleCatalog.apply (wire : Wire) (catalog : StyleCatalog) : Transition → StyleCatalog
  | .recordObserved now styleId version servedFreshness fence =>
    (catalog.recordObservedForGeneration wire now styleId version servedFreshness fence).1
  | .requestRevalidation styleId hintId => (catalog.requestRevalidationInner styleId hintId).1
  | .applyClusterObservation observation => (catalog.applyClusterObservation wire.json observation).1

/-- All states a catalog reaches by its methods, in any order and with any arguments. -/
def catalogs (wire : Wire) (interval : Duration) : Machine StyleCatalog where
  init := StyleCatalog.withMinimumRevalidationInterval interval
  step := fun catalog catalog' =>
    (∃ transition, catalog' = catalog.apply wire transition) ∨
      ∃ configuration, catalog' = catalog.configure configuration

theorem reachable_apply {wire : Wire} {interval : Duration} {cat : StyleCatalog}
    (transition : Transition) (h : Reachable (catalogs wire interval) cat) :
    Reachable (catalogs wire interval) (cat.apply wire transition) :=
  h.step (.inl ⟨transition, rfl⟩)

/-! ## What is accepted -/

def ObservedStyle.Accepts (observed : ObservedStyle) (version : UInt64) : Prop :=
  observed.version = version ∨ observed.previous = some version ∨ observed.bootstrap = some version

def ClusterObservedStyle.Accepts (peer : ClusterObservedStyle) (version : UInt64) : Prop :=
  peer.version = version ∨ peer.previous = some version

namespace StyleCatalogInner

variable {inner next : StyleCatalogInner} {styleId : StyleId} {version : UInt64}

theorem latestVersion_of_peer {peer : ClusterObservedStyle} (h : inner.clusterObserved.lookup styleId = some peer) :
    inner.latestVersion styleId = some peer.version := by
  simp [latestVersion, h]

theorem latestVersion_of_observed {o : ObservedStyle} (hpeer : inner.clusterObserved.lookup styleId = none)
    (h : inner.observed.lookup styleId = some o) : inner.latestVersion styleId = some o.version := by
  simp [latestVersion, hpeer, h]

theorem latestVersion_of_configured (hpeer : inner.clusterObserved.lookup styleId = none)
    (h : inner.observed.lookup styleId = none) : inner.latestVersion styleId = inner.configuredVersion styleId := by
  simp [latestVersion, hpeer, h]

theorem acceptsVersion_iff : inner.acceptsVersion styleId version = true ↔
      (∃ peer, inner.clusterObserved.lookup styleId = some peer ∧ peer.Accepts version) ∨
        (∃ o, inner.observed.lookup styleId = some o ∧ o.Accepts version) ∨
        (inner.clusterObserved.lookup styleId = none ∧ inner.observed.lookup styleId = none ∧
          inner.configuredVersion styleId = some version) := by
  unfold acceptsVersion HashMap.contains ClusterObservedStyle.Accepts ObservedStyle.Accepts
  cases hpeer : inner.clusterObserved.lookup styleId with
  | some peer => cases hobs : inner.observed.lookup styleId <;> simp [or_assoc]
  | none =>
    cases hobs : inner.observed.lookup styleId with
    | some o => simp [or_assoc]
    | none => simp [latestVersion_of_configured hpeer hobs]

/-- Whatever its source, the latest version is accepted. -/
theorem acceptsVersion_latest (h : inner.latestVersion styleId = some version) :
    inner.acceptsVersion styleId version = true := by
  rw [acceptsVersion_iff]
  cases hpeer : inner.clusterObserved.lookup styleId with
  | some peer =>
    rw [latestVersion_of_peer hpeer] at h
    exact .inl ⟨peer, rfl, .inl (Option.some.inj h)⟩
  | none =>
    cases hobs : inner.observed.lookup styleId with
    | some o =>
      rw [latestVersion_of_observed hpeer hobs] at h
      exact .inr (.inl ⟨o, rfl, .inl (Option.some.inj h)⟩)
    | none =>
      rw [latestVersion_of_configured hpeer hobs] at h
      exact .inr (.inr ⟨rfl, rfl, h⟩)

/-- The version stays accepted while the peer entry stays, the configuration stays, and a local
entry keeps accepting what it accepted. -/
theorem acceptsVersion_mono (h : inner.acceptsVersion styleId version = true)
    (hpeer : next.clusterObserved.lookup styleId = inner.clusterObserved.lookup styleId)
    (hconf : next.configuredVersion styleId = inner.configuredVersion styleId)
    (hnone : inner.observed.lookup styleId = none → next.observed.lookup styleId = none)
    (hsome : ∀ o, inner.observed.lookup styleId = some o →
      ∃ o', next.observed.lookup styleId = some o' ∧ (o.Accepts version → o'.Accepts version)) :
    next.acceptsVersion styleId version = true := by
  rw [acceptsVersion_iff] at h ⊢
  rw [hpeer, hconf]
  cases h with
  | inl h => exact .inl h
  | inr h =>
    cases h with
    | inl h =>
      obtain ⟨o, ho, hacc⟩ := h
      obtain ⟨o', ho', himp⟩ := hsome o ho
      exact .inr (.inl ⟨o', ho', himp hacc⟩)
    | inr h => exact .inr (.inr ⟨h.1, hnone h.2.1, h.2.2⟩)

/-! ## The record that drops a version -/

/-- Whether the local entry accepts `old` besides the fetched `version` after the fetch, read off the
state before it: the same content again keeps what the entry accepted, other content keeps the version
it replaces, and a first fetch keeps the configured version. -/
def KeepsLocally (inner : StyleCatalogInner) (styleId : StyleId) (version old : UInt64) : Prop :=
  match inner.observed.lookup styleId with
  | some o => if o.version = version then o.previous = some old ∨ o.bootstrap = some old else o.version = old
  | none => inner.configuredVersion styleId = some old

theorem observe_accepts_iff (observedAt revalidateAfter : Instant) (cur : Bool) (old : UInt64) :
    (inner.observe styleId version observedAt revalidateAfter cur).1.Accepts old ↔
      version = old ∨ inner.KeepsLocally styleId version old := by
  unfold observe KeepsLocally ObservedStyle.Accepts
  cases inner.observed.lookup styleId with
  | some o =>
    dsimp only
    split_ifs with hsame
    · rw [hsame]
    · simp
  | none =>
    simp only [reduceCtorEq, false_or, Option.filter_eq_some_iff]
    constructor
    · intro h
      cases h with
      | inl h => exact .inl h
      | inr h => exact .inr h.1
    · intro h
      by_cases hv : version = old
      · exact .inl hv
      · cases h with
        | inl h => exact .inl h
        | inr h => exact .inr ⟨h, by simpa using fun e => hv e.symm⟩

theorem settledPeer_of_announceable {json : JsonWriter} (hann : inner.Announceable styleId json version)
    {peer settled : ClusterObservedStyle} (hpeer : inner.clusterObserved.lookup styleId = some peer)
    (hother : peer.version ≠ version) (h : inner.settledPeer styleId json version = some settled) :
    settled = ⟨version, none⟩ := by
  unfold settledPeer at h
  cases hpend : inner.pendingHints.lookup styleId with
  | some hintId =>
    rw [hpend] at h
    dsimp only at h
    rw [if_pos (hann hintId hpend)] at h
    exact (Option.some.inj h).symm
  | none =>
    rw [hpend, hpeer] at h
    obtain ⟨heq, hsame⟩ := Option.filter_eq_some_iff.mp h
    obtain rfl := Option.some.inj heq
    exact absurd (of_decide_eq_true hsame) hother

theorem settledPeer_of_not_announceable {json : JsonWriter} (hann : ¬ inner.Announceable styleId json version) :
    inner.settledPeer styleId json version = inner.clusterObserved.lookup styleId := by
  unfold Announceable at hann
  push Not at hann
  obtain ⟨hintId, hpend, henc⟩ := hann
  unfold settledPeer
  rw [hpend]
  dsimp only
  rw [if_neg henc]

/-- A latest version that is not a peer's is kept by the local entry. -/
theorem keepsLocally_of_latest {old : UInt64} (hpeer : inner.clusterObserved.lookup styleId = none)
    (h : inner.latestVersion styleId = some old) : version = old ∨ inner.KeepsLocally styleId version old := by
  unfold KeepsLocally
  cases hobs : inner.observed.lookup styleId with
  | some o =>
    rw [latestVersion_of_observed hpeer hobs] at h
    obtain rfl := Option.some.inj h
    dsimp only
    by_cases hsame : o.version = version
    · exact .inl hsame.symm
    · rw [if_neg hsame]
      exact .inr rfl
  | none =>
    rw [latestVersion_of_configured hpeer hobs] at h
    exact .inr h

end StyleCatalogInner

/-- Every transition but a record qualifies. A record must not be the one that drops a peer's version:
current, past its clock arithmetic and its announcement, with other content than the peer's, and with
a local entry that does not keep the peer's version. -/
def StyleCatalog.KeepsPeerVersion (json : JsonWriter) (catalog : StyleCatalog) : Transition → Prop
  | .recordObserved now styleId version servedFreshness fence =>
    ∀ peer, catalog.inner.clusterObserved.lookup styleId = some peer → peer.version ≠ version →
      now + max servedFreshness catalog.minimumRevalidationInterval < 2 ^ 63 * 10 ^ 9 →
      catalog.inner.fetchIsCurrent styleId fence = true → catalog.inner.Announceable styleId json version →
        catalog.inner.KeepsLocally styleId version peer.version
  | _ => True

namespace StyleCatalog

variable (wire : Wire) (cat : StyleCatalog) (now : Instant) (styleId : StyleId)

/-- A record accepts afterwards what its peer entry, its content and its local entry accept. -/
theorem record_accepts_iff (version : UInt64) (fresh : Duration)
    (fence : RevalidationFence) (old : UInt64)
    (hfits : now + max fresh cat.minimumRevalidationInterval < 2 ^ 63 * 10 ^ 9) :
    (cat.apply wire (.recordObserved now styleId version fresh fence)).inner.acceptsVersion
        styleId old = true ↔
      (∃ peer, cat.recordedPeer styleId wire.json version fence = some peer ∧ peer.Accepts old) ∨
        version = old ∨ cat.inner.KeepsLocally styleId version old := by
  obtain ⟨hints, announcements, cluster, hstate, hclus, _⟩ :=
    cat.recordObserved_spec styleId wire now version fresh fence hfits
  unfold apply
  dsimp only
  rw [hstate, acceptsVersion_iff]
  rw [hclus styleId, if_pos rfl, AList.lookup_insert, ← cat.inner.observe_accepts_iff]
  constructor
  · intro h
    cases h with
    | inl h => exact .inl h
    | inr h =>
      cases h with
      | inl h =>
        obtain ⟨o, ho, hacc⟩ := h
        obtain rfl := Option.some.inj ho
        exact .inr hacc
      | inr h => exact absurd h.2.1 nofun
  · intro h
    cases h with
    | inl h => exact .inl h
    | inr h => exact .inr (.inl ⟨_, rfl, h⟩)

variable {s : StyleId} {old : UInt64}

theorem record_accepts_other (version : UInt64) (fresh : Duration)
    (fence : RevalidationFence) (hs : s ≠ styleId) (h : cat.inner.acceptsVersion s old = true) :
    (cat.apply wire (.recordObserved now styleId version fresh fence)).inner.acceptsVersion s old =
      true := by
  unfold apply
  dsimp only
  by_cases hfits : now + max fresh cat.minimumRevalidationInterval < 2 ^ 63 * 10 ^ 9
  · obtain ⟨hints, announcements, cluster, hstate, hclus, _⟩ :=
      cat.recordObserved_spec styleId wire now version fresh fence hfits
    rw [hstate]
    have hsame : (cat.inner.observed.insert styleId
        (cat.recordedStyle styleId now version fresh fence)).lookup s = cat.inner.observed.lookup s :=
      AList.lookup_insert_ne hs
    refine acceptsVersion_mono h ?_ rfl ?_ ?_
    · rw [hclus s, if_neg hs]
    · intro hnone
      exact hsame.trans hnone
    · intro o ho
      exact ⟨o, hsame.trans ho, fun hacc => hacc⟩
  · rw [cat.recordObserved_overflow styleId wire now version fresh fence (Nat.not_lt.mp hfits)]
    exact h

theorem request_accepts (hintId : Option String) (h : cat.inner.acceptsVersion s old = true) :
    (cat.apply wire (.requestRevalidation styleId hintId)).inner.acceptsVersion s old = true := by
  obtain ⟨hints, generations, observed, hstate, hothers, hunobs, hobs⟩ :=
    cat.requestRevalidation_spec styleId hintId
  unfold apply
  dsimp only
  rw [hstate]
  refine acceptsVersion_mono h rfl rfl ?_ ?_
  · intro hnone
    by_cases hs : s = styleId
    · subst hs
      exact (hunobs hnone).1
    · exact (hothers s hs).1.trans hnone
  · intro o ho
    by_cases hs : s = styleId
    · subst hs
      cases hobs o ho with
      | inl hover => exact ⟨o, hover.2, fun hacc => hacc⟩
      | inr hmark =>
        -- the mark and the due time are no part of what is accepted
        obtain ⟨due, hdue⟩ := hmark.1
        exact ⟨_, hdue, fun hacc => hacc⟩
    · exact ⟨o, (hothers s hs).1.trans ho, fun hacc => hacc⟩

theorem observation_accepts (observation : StyleRevisionObservation) (h : cat.inner.latestVersion s = some old) :
    (cat.apply wire (.applyClusterObservation observation)).inner.acceptsVersion s old = true := by
  have hacc := acceptsVersion_latest h
  unfold apply
  dsimp only
  cases cat.applyClusterObservation_spec wire.json observation with
  | inl hstate =>
    rw [hstate]
    exact hacc
  | inr hstate =>
    obtain ⟨hints, hstate⟩ := hstate
    rw [hstate]
    by_cases hs : s = ⟨observation.styleId⟩
    · subst hs
      rw [acceptsVersion_iff]
      refine .inl ⟨_, AList.lookup_insert _, ?_⟩
      by_cases hsame : observation.version = old
      · exact .inl hsame
      · refine .inr ?_
        rw [h, Option.filter_some, if_pos (by simpa using fun e => hsame e.symm)]
    · refine acceptsVersion_mono hacc ?_ rfl (fun hnone => hnone) ?_
      · exact AList.lookup_insert_ne hs
      · exact fun o ho => ⟨o, ho, fun hold => hold⟩

/-- The latest version survives a record exactly when the record keeps the peer's version. -/
theorem record_accepts_latest_iff (version : UInt64) (fresh : Duration)
    (fence : RevalidationFence) (h : cat.inner.latestVersion styleId = some old) :
    (cat.apply wire (.recordObserved now styleId version fresh fence)).inner.acceptsVersion
        styleId old = true ↔
      cat.KeepsPeerVersion wire.json (.recordObserved now styleId version fresh fence) := by
  by_cases hfits : now + max fresh cat.minimumRevalidationInterval < 2 ^ 63 * 10 ^ 9
  · rw [cat.record_accepts_iff wire now styleId version fresh fence old hfits]
    constructor
    · intro hacc peer hpeer hother _ hcur hann
      rw [latestVersion_of_peer hpeer] at h
      obtain rfl := Option.some.inj h
      cases hacc with
      | inl hsettled =>
        obtain ⟨settled, hsome, hacc⟩ := hsettled
        rw [recordedPeer, if_pos hcur] at hsome
        obtain rfl := settledPeer_of_announceable hann hpeer hother hsome
        cases hacc with
        | inl hsame => exact absurd hsame.symm hother
        | inr hnone => cases hnone
      | inr hlocal =>
        cases hlocal with
        | inl hsame => exact absurd hsame.symm hother
        | inr hkeeps => exact hkeeps
    · intro hkeeps
      cases hpeer : cat.inner.clusterObserved.lookup styleId with
      | none => exact .inr (keepsLocally_of_latest hpeer h)
      | some peer =>
        rw [latestVersion_of_peer hpeer] at h
        obtain rfl := Option.some.inj h
        by_cases hsame : peer.version = version
        · exact .inr (.inl hsame.symm)
        · by_cases hcur : cat.inner.fetchIsCurrent styleId fence = true
          · by_cases hann : cat.inner.Announceable styleId wire.json version
            · exact .inr (.inr (hkeeps peer hpeer hsame hfits hcur hann))
            · refine .inl ⟨peer, ?_, .inl rfl⟩
              rw [recordedPeer, if_pos hcur, settledPeer_of_not_announceable hann, hpeer]
          · refine .inl ⟨peer, ?_, .inl rfl⟩
            rw [recordedPeer, if_neg hcur, hpeer]
  · constructor
    · intro _ peer _ _ hfits'
      exact absurd hfits' hfits
    · intro _
      unfold apply
      dsimp only
      rw [cat.recordObserved_overflow styleId wire now version fresh fence (Nat.not_lt.mp hfits)]
      exact acceptsVersion_latest h

end StyleCatalog

/-- In every state and for every transition: the version that was latest before it, and the one that is
latest after it, are accepted after it for every style, exactly when the transition is not a record
that drops a peer's version. -/
theorem changeover_accepted_iff (wire : Wire) (catalog : StyleCatalog) (transition : Transition) :
    (∀ styleId version, catalog.resolveLatest styleId = some version →
        (catalog.apply wire transition).acceptsRevision ⟨styleId, version⟩ = true ∧
          ∀ latest, (catalog.apply wire transition).resolveLatest styleId = some latest →
            (catalog.apply wire transition).acceptsRevision ⟨styleId, latest⟩ = true) ↔
      catalog.KeepsPeerVersion wire.json transition := by
  constructor
  · intro haccepted
    cases transition with
    | recordObserved now styleId version servedFreshness fence =>
      intro peer hpeer
      have hlatest := StyleCatalogInner.latestVersion_of_peer hpeer
      have hkeeps := (catalog.record_accepts_latest_iff wire now styleId version servedFreshness fence hlatest).mp
        (haccepted styleId peer.version hlatest).1
      exact hkeeps peer hpeer
    | requestRevalidation styleId hintId | applyClusterObservation observation => trivial
  · intro hkeeps styleId version hlatest
    refine ⟨?_, fun latest hnew => StyleCatalogInner.acceptsVersion_latest hnew⟩
    cases transition with
    | recordObserved now recorded fetched servedFreshness fence =>
      by_cases hs : styleId = recorded
      · subst hs
        exact (catalog.record_accepts_latest_iff wire now styleId fetched servedFreshness fence hlatest).mpr hkeeps
      · exact catalog.record_accepts_other wire now recorded fetched servedFreshness fence hs
          (StyleCatalogInner.acceptsVersion_latest hlatest)
    | requestRevalidation hinted hintId =>
      exact catalog.request_accepts wire hinted hintId (StyleCatalogInner.acceptsVersion_latest hlatest)
    | applyClusterObservation observation => exact catalog.observation_accepts wire observation hlatest

/-- Version 1 was fetched here, a peer announced version 2 for the next hint, and it was adopted. -/
def peerAhead : StyleCatalog :=
  (((catalogs demoWire minStyleRevalidateInterval).init.apply demoWire
        (.recordObserved 0 demoStyle (contentVersion 1) (3600 * 10 ^ 9)
          ((catalogs demoWire minStyleRevalidateInterval).init.revalidationFence demoStyle))).apply
      demoWire (.requestRevalidation demoStyle (some "mutation-2"))).apply
    demoWire (.applyClusterObservation (.new "mutation-2" demoStyle (contentVersion 2)))

theorem peerAhead_reachable : Reachable (catalogs demoWire minStyleRevalidateInterval) peerAhead :=
  reachable_apply _ (reachable_apply _ (reachable_apply _ Reachable.init))

/-- The next local fetch finds version 3: requests admitted under version 2 are now rejected, while
version 1 is still accepted. -/
theorem peerAhead_version_dropped :
    let next := peerAhead.apply demoWire (.recordObserved (20 * 10 ^ 9) demoStyle (contentVersion 3) (3600 * 10 ^ 9)
      (peerAhead.revalidationFence demoStyle))
    Reachable (catalogs demoWire minStyleRevalidateInterval) peerAhead ∧
      peerAhead.resolveLatest demoStyle = some (contentVersion 2) ∧
      next.resolveLatest demoStyle = some (contentVersion 3) ∧
      next.acceptsRevision ⟨demoStyle, contentVersion 2⟩ = false ∧
      next.acceptsRevision ⟨demoStyle, contentVersion 1⟩ = true :=
  ⟨peerAhead_reachable, by decide +kernel, by decide +kernel, by decide +kernel, by decide +kernel⟩

theorem peerAhead_confirmed_locally :
    let next := peerAhead.apply demoWire (.recordObserved (20 * 10 ^ 9) demoStyle (contentVersion 2) (3600 * 10 ^ 9)
      (peerAhead.revalidationFence demoStyle))
    next.acceptsRevision ⟨demoStyle, contentVersion 2⟩ = true := by
  have hlatest : peerAhead.resolveLatest demoStyle = some (contentVersion 2) := by decide +kernel
  refine ((changeover_accepted_iff demoWire peerAhead _).mpr ?_ demoStyle (contentVersion 2) hlatest).1
  intro peer hpeer hother
  have hsame : peerAhead.resolveLatest demoStyle = some peer.version := StyleCatalogInner.latestVersion_of_peer hpeer
  exact absurd (Option.some.inj hsame).symm hother

end Mappf.Styles
