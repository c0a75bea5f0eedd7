import Mappf.Styles.Catalog

/-! # What the catalog's methods do

One specification per transition, as an equation between the state before and after: the fields it
leaves alone are visible in the equation, and the maps it writes are given by their lookups. -/
namespace Mappf.Styles
open Instant StyleCatalogInner Option

theorem Instant.add_eq_some {instant sum : Instant} {dur : Duration} : Instant.add instant dur = some sum ↔
      instant + dur < 2 ^ 63 * 10 ^ 9 ∧ instant + dur = sum := by
  rw [add, ite_none_right_eq_some, some.injEq]

theorem Instant.add_eq_none {instant : Instant} {dur : Duration} :
    Instant.add instant dur = none ↔ 2 ^ 63 * 10 ^ 9 ≤ instant + dur := by
  unfold add
  split_ifs with h
  · exact ⟨nofun, fun hle => absurd h (Nat.not_lt.mpr hle)⟩
  · exact ⟨fun _ => Nat.not_lt.mp h, fun _ => rfl⟩

namespace StyleCatalogInner

variable (inner : StyleCatalogInner) (styleId : StyleId)

/-- The announcement of a pending hint, if there is one, can be encoded. -/
def Announceable (json : JsonWriter) (version : UInt64) : Prop :=
  ∀ hintId, inner.pendingHints.lookup styleId = some hintId →
    ((StyleRevisionObservation.new hintId styleId version).encode json).isSome = true

def settledPeer (json : JsonWriter) (version : UInt64) : Option ClusterObservedStyle :=
  match inner.pendingHints.lookup styleId with
  | some hintId =>
    if ((StyleRevisionObservation.new hintId styleId version).encode json).isSome then some ⟨version, none⟩
    else inner.clusterObserved.lookup styleId
  | none => (inner.clusterObserved.lookup styleId).filter (fun cluster => cluster.version = version)

theorem observe_fields (ver : UInt64) (observedAt revalidateAfter : Instant) (cur : Bool) :
    let observed := (inner.observe styleId ver observedAt revalidateAfter cur).1
    observed.lastObservedAt = observedAt ∧ observed.revalidateAfter = revalidateAfter ∧
      observed.pendingRevalidation = !cur := by
  unfold observe
  cases inner.observed.lookup styleId with
  | none => exact ⟨rfl, rfl, rfl⟩
  | some observed =>
    dsimp only
    split_ifs <;> exact ⟨rfl, rfl, rfl⟩

theorem settleHint_spec (wire : Wire) (ver : UInt64) : ∃ hints announcements cluster,
      (inner.settleHint styleId wire ver).1 =
          { inner with
            pendingHints := hints, revisionAnnouncements := announcements, clusterObserved := cluster } ∧
        (∀ t, cluster.lookup t =
          if t = styleId then inner.settledPeer styleId wire.json ver else inner.clusterObserved.lookup t) ∧
        (inner.settleHint styleId wire ver).2 ≠ .error .instantOverflow := by
  unfold settleHint settledPeer
  cases hpend : inner.pendingHints.lookup styleId with
  | some hintId =>
    dsimp only
    cases henc : (StyleRevisionObservation.new hintId styleId ver).encode wire.json with
    | none =>
      refine ⟨_, _, _, rfl, fun t => ?_, nofun⟩
      exact HashMap.lookup_eq_ite _ _ _
    | some encoded =>
      refine ⟨_, _, _, rfl, fun t => ?_, nofun⟩
      rw [HashMap.lookup_insert_eq]
      rfl
  | none =>
    split_ifs with hother
    · refine ⟨_, _, _, rfl, fun t => ?_, nofun⟩
      rw [HashMap.lookup_erase_eq]
      cases hpeer : inner.clusterObserved.lookup styleId with
      | none => rfl
      | some peer =>
        have hne : ¬ decide (peer.version = ver) = true := by simpa [hpeer] using hother
        rw [filter_some, if_neg hne]
    · refine ⟨_, _, _, rfl, fun t => ?_, nofun⟩
      by_cases ht : t = styleId
      · subst ht
        rw [if_pos rfl]
        cases hpeer : inner.clusterObserved.lookup t with
        | none => rfl
        | some peer =>
          have heq : peer.version = ver := by simpa [hpeer] using hother
          rw [filter_some, if_pos (by simpa using heq)]
      · rw [if_neg ht]

theorem storeHint_spec (hintId : Option String) :
    ∃ hints, (inner.storeHint styleId hintId).1 = { inner with pendingHints := hints } := by
  unfold storeHint
  cases hintId with
  | none => exact ⟨_, rfl⟩
  | some hintId =>
    split_ifs <;> exact ⟨_, rfl⟩

/-- A generation once present is counted up and never leaves the map; a new one starts at 1. -/
theorem advanceGeneration_spec :
    ∃ generations, (inner.advanceGeneration styleId).1 = { inner with revalidationGenerations := generations } ∧
      (∀ t, t ≠ styleId → generations.lookup t = inner.revalidationGenerations.lookup t) ∧
      (∀ g, inner.revalidationGenerations.lookup styleId = some g →
        generations.lookup styleId = some (wrappingAdd g 1)) ∧
      (inner.revalidationGenerations.lookup styleId = none →
        ∀ g, generations.lookup styleId = some g → g = 1) := by
  unfold advanceGeneration
  cases hgen : inner.revalidationGenerations.lookup styleId with
  | some gen =>
    refine ⟨_, rfl, fun t ht => AList.lookup_insert_ne ht, ?_, nofun⟩
    intro g hg
    obtain rfl := some.inj hg
    exact AList.lookup_insert _
  | none =>
    split_ifs
    · refine ⟨_, rfl, fun t ht => AList.lookup_insert_ne ht, nofun, fun _ g hg => ?_⟩
      rw [AList.lookup_insert] at hg
      exact (some.inj hg).symm
    · refine ⟨_, rfl, fun t _ => rfl, nofun, fun _ g hg => ?_⟩
      simp [hgen] at hg

end StyleCatalogInner

namespace StyleCatalog

variable (catalog : StyleCatalog) (styleId : StyleId)

/-! ## Recording a fetch -/

def recordedStyle (now : Instant) (version : UInt64) (servedFreshness : Duration)
    (fence : RevalidationFence) : ObservedStyle :=
  let current := catalog.inner.fetchIsCurrent styleId fence
  (catalog.inner.observe styleId version now
    (if current then now + max servedFreshness catalog.minimumRevalidationInterval
      else now + catalog.minimumRevalidationInterval) current).1

def recordedPeer (json : JsonWriter) (version : UInt64) (fence : RevalidationFence) : Option ClusterObservedStyle :=
  if catalog.inner.fetchIsCurrent styleId fence then catalog.inner.settledPeer styleId json version
  else catalog.inner.clusterObserved.lookup styleId

theorem recordObserved_overflow (wire : Wire) (now : Instant) (ver : UInt64)
    (fresh : Duration) (fence : RevalidationFence)
    (hover : 2 ^ 63 * 10 ^ 9 ≤ now + max fresh catalog.minimumRevalidationInterval) :
    catalog.recordObservedForGeneration wire now styleId ver fresh fence = (catalog, .error .instantOverflow) := by
  unfold recordObservedForGeneration
  rw [add_eq_none.mpr hover]

theorem recordObserved_spec (wire : Wire) (now : Instant) (ver : UInt64)
    (fresh : Duration) (fence : RevalidationFence)
    (hfits : now + max fresh catalog.minimumRevalidationInterval < 2 ^ 63 * 10 ^ 9) :
    ∃ hints announcements cluster, (catalog.recordObservedForGeneration wire now styleId ver fresh fence).1 =
          { catalog with
            inner := { catalog.inner with
              observed := catalog.inner.observed.insert styleId (catalog.recordedStyle styleId now ver fresh fence)
              pendingHints := hints, revisionAnnouncements := announcements, clusterObserved := cluster } } ∧
        (∀ t, cluster.lookup t =
          if t = styleId then catalog.recordedPeer styleId wire.json ver fence
          else catalog.inner.clusterObserved.lookup t) ∧
        (catalog.recordObservedForGeneration wire now styleId ver fresh fence).2 ≠
          .error .instantOverflow := by
  have hfull := add_eq_some.mpr ⟨hfits, rfl⟩
  have hdue : add now catalog.minimumRevalidationInterval = some (now + catalog.minimumRevalidationInterval) :=
    add_eq_some.mpr ⟨lt_of_le_of_lt (Nat.add_le_add_left (le_max_right _ _) now) hfits, rfl⟩
  unfold recordObservedForGeneration recordedStyle recordedPeer
  rw [hfull, hdue]
  cases hcur : catalog.inner.fetchIsCurrent styleId fence with
  | false =>
    exact ⟨_, _, _, rfl, fun t => HashMap.lookup_eq_ite _ _ _, nofun⟩
  | true =>
    simp only [if_true]
    -- the hint is settled in the state that already has the new local entry
    obtain ⟨hints, announcements, cluster, hstate, hclus, hout⟩ :=
      settleHint_spec
        { catalog.inner with
          observed := catalog.inner.observed.insert styleId (catalog.inner.observe styleId ver now
              (now + max fresh catalog.minimumRevalidationInterval) true).1 }
        styleId wire ver
    refine ⟨hints, announcements, cluster, ?_, hclus, ?_⟩
    · rw [hstate]
    · intro herror
      apply hout
      revert herror
      generalize (settleHint _ styleId wire ver).2 = settled
      cases settled with
      | error panic => exact fun herror => congrArg Except.error (Except.error.inj herror)
      | ok _ => exact nofun

/-! ## Requests and peer observations -/

theorem requestRevalidation_spec (hintId : Option String) : ∃ hints generations observed,
      (catalog.requestRevalidationInner styleId hintId).1 =
          { catalog with
            inner := { catalog.inner with
              revalidationRequests := wrappingAdd catalog.inner.revalidationRequests 1
              pendingHints := hints, revalidationGenerations := generations, observed := observed } } ∧
        (∀ t, t ≠ styleId → observed.lookup t = catalog.inner.observed.lookup t ∧
          generations.lookup t = catalog.inner.revalidationGenerations.lookup t) ∧
        (catalog.inner.observed.lookup styleId = none → observed.lookup styleId = none ∧
          generations.lookup styleId = catalog.inner.revalidationGenerations.lookup styleId) ∧
        ∀ o, catalog.inner.observed.lookup styleId = some o →
          (2 ^ 63 * 10 ^ 9 ≤ o.lastObservedAt + catalog.minimumRevalidationInterval ∧
              observed.lookup styleId = some o) ∨
            ((∃ due, observed.lookup styleId =
                some { o with revalidateAfter := due, pendingRevalidation := true }) ∧
              (∀ g, catalog.inner.revalidationGenerations.lookup styleId = some g →
                generations.lookup styleId = some (wrappingAdd g 1)) ∧
              (catalog.inner.revalidationGenerations.lookup styleId = none →
                ∀ g, generations.lookup styleId = some g → g = 1)) := by
  unfold requestRevalidationInner
  dsimp only
  obtain ⟨hints, hstore⟩ := storeHint_spec
    { catalog.inner with revalidationRequests := wrappingAdd catalog.inner.revalidationRequests 1 } styleId hintId
  rw [hstore]
  cases hobs : catalog.inner.observed.lookup styleId with
  | none => exact ⟨_, _, _, rfl, fun t _ => ⟨rfl, rfl⟩, fun _ => ⟨hobs, rfl⟩, nofun⟩
  | some o =>
    dsimp only
    cases hearliest : add o.lastObservedAt catalog.minimumRevalidationInterval with
    | none =>
      refine ⟨_, _, _, rfl, fun t _ => ⟨rfl, rfl⟩, nofun, fun o' ho' => .inl ?_⟩
      obtain rfl := some.inj ho'
      exact ⟨add_eq_none.mp hearliest, hobs⟩
    | some earliest =>
      obtain ⟨generations, hadv, hothers, hcnt, hfresh⟩ := advanceGeneration_spec
        { catalog.inner with
          revalidationRequests := wrappingAdd catalog.inner.revalidationRequests 1, pendingHints := hints } styleId
      rw [hadv]
      refine ⟨_, generations, _, rfl, ?_, nofun, fun o' ho' => .inr ⟨?_, hcnt, hfresh⟩⟩
      · exact fun t ht => ⟨AList.lookup_insert_ne ht, hothers t ht⟩
      · obtain rfl := some.inj ho'
        exact ⟨_, AList.lookup_insert _⟩

theorem configure_spec (configuration : Configuration) :
    ∃ definitions templates template, catalog.configure configuration =
      { catalog with
        inner := { catalog.inner with
          byId := definitions, namespaceTemplates := templates, defaultTemplate := template } } := by
  cases configuration with
  | _ =>
    exact ⟨_, _, _, rfl⟩

theorem applyClusterObservation_spec (json : JsonWriter) (observation : StyleRevisionObservation) :
    (catalog.applyClusterObservation json observation).1 = catalog ∨
      ∃ hints, (catalog.applyClusterObservation json observation).1 =
        { catalog with
          inner := { catalog.inner with
            pendingHints := hints
            clusterObserved := catalog.inner.clusterObserved.insert ⟨observation.styleId⟩ ⟨observation.version,
                (catalog.inner.latestVersion ⟨observation.styleId⟩).filter (· ≠ observation.version)⟩ } } := by
  unfold applyClusterObservation
  dsimp only
  split_ifs
  · exact .inl rfl
  · exact .inl rfl
  · exact .inr ⟨_, rfl⟩

end StyleCatalog
end Mappf.Styles
