import Mappf.Lib.Log
import Mappf.Lib.Machine
import Mappf.Styles.CatalogSpec

/-! # Refresh hints are not lost

A session is the catalog with a log of what was done to it. A fetch captures its fence when it
begins and completes any number of steps later, so fetches overlap and finish in any order; it is
named by the number of the step that began it. Requests and the per-style generations count the
hints since a fence was captured, and `fetchIsCurrent_iff` reads the fence test off that count. -/
namespace Mappf.Styles
open StyleCatalog Option Nat

inductive Event
  | configure (configuration : StyleCatalog.Configuration)
  /-- `revalidation_fence`, immediately before the provider is asked. -/
  | beginFetch (styleId : StyleId)
  /-- `record_observed_for_generation` with the fence captured by step `began`. -/
  | completeFetch (began : ℕ) (now : Instant) (version : UInt64) (servedFreshness : Duration)
  /-- `request_revalidation`, or `request_revalidation_for_hint` when there is an id. -/
  | requestRevalidation (styleId : StyleId) (hintId : Option String)
  | applyClusterObservation (observation : StyleRevisionObservation)

namespace Event

def isHint : Event → Bool
  | .requestRevalidation _ _ => true
  | _ => false

def isHintFor (styleId : StyleId) : Event → Bool
  | .requestRevalidation hinted _ => hinted = styleId
  | _ => false

end Event

open Event (isHint isHintFor)

structure Session where
  catalog : StyleCatalog
  log : List (StyleCatalog × Event) := []

namespace Session

/-- The style of the fetch begun by step `began`, and the fence it captured. -/
def fetch (session : Session) (began : ℕ) : Option (StyleId × RevalidationFence) :=
  match session.log[began]? with
  | some (before, .beginFetch styleId) => some (styleId, before.revalidationFence styleId)
  | _ => none

def next (wire : Wire) (session : Session) : Event → StyleCatalog
  | .configure configuration => session.catalog.configure configuration
  | .beginFetch _ => session.catalog
  | .completeFetch began now version servedFreshness =>
    match session.fetch began with
    | some (styleId, fence) =>
      (session.catalog.recordObservedForGeneration wire now styleId version servedFreshness fence).1
    | none => session.catalog
  | .requestRevalidation styleId hintId => (session.catalog.requestRevalidationInner styleId hintId).1
  | .applyClusterObservation observation => (session.catalog.applyClusterObservation wire.json observation).1

def step (wire : Wire) (session : Session) (event : Event) : Session where
  catalog := session.next wire event
  log := session.log ++ [(session.catalog, event)]

/-- A record for `styleId` with the fence captured by step `began` has taken place. One that panics
on its announcement counts, since it has replaced the local entry by then; one stopped by the clock
arithmetic, before anything is written, does not. -/
def Recorded (wire : Wire) (session : Session) (styleId : StyleId) (began : ℕ) : Prop :=
  ∃ n before now version servedFreshness fence, began < n ∧
    session.log[n]? = some (before, .completeFetch began now version servedFreshness) ∧
    session.fetch began = some (styleId, fence) ∧
    (before.recordObservedForGeneration wire now styleId version servedFreshness fence).2 ≠
      .error .instantOverflow

end Session

/-- All sessions of a catalog with the given floor, which production sets to ten seconds. -/
def sessions (wire : Wire) (interval : Duration) : Machine Session where
  init := { catalog := StyleCatalog.withMinimumRevalidationInterval interval }
  step := fun session session' => ∃ event, session' = session.step wire event

theorem reachable_step {wire : Wire} {interval : Duration} {session : Session} (event : Event)
    (h : Reachable (sessions wire interval) session) :
    Reachable (sessions wire interval) (session.step wire event) :=
  h.step ⟨event, rfl⟩

/-! ## Counting hints -/

structure Counts (catalog next : StyleCatalog) (event : Event) : Prop where
  interval : next.minimumRevalidationInterval = catalog.minimumRevalidationInterval
  requests : next.inner.revalidationRequests = catalog.inner.revalidationRequests + if event.isHint = true then 1 else 0
  kept : ∀ s g, catalog.inner.revalidationGenerations.lookup s = some g →
    next.inner.revalidationGenerations.lookup s = some (g + if event.isHintFor s = true then 1 else 0)
  fresh : ∀ s g, catalog.inner.revalidationGenerations.lookup s = none →
    next.inner.revalidationGenerations.lookup s = some g →
      event.isHint = true ∧ g = 1 ∧ catalog.inner.observed.lookup s ≠ none
  observed : ∀ s, catalog.inner.observed.lookup s ≠ none → next.inner.observed.lookup s ≠ none

structure Untouched (catalog next : StyleCatalog) : Prop where
  interval : next.minimumRevalidationInterval = catalog.minimumRevalidationInterval
  requests : next.inner.revalidationRequests = catalog.inner.revalidationRequests
  generations : next.inner.revalidationGenerations = catalog.inner.revalidationGenerations
  observed : next.inner.observed = catalog.inner.observed

variable (cat : StyleCatalog)

theorem configure_untouched (configuration : StyleCatalog.Configuration) :
    Untouched cat (cat.configure configuration) := by
  obtain ⟨definitions, templates, template, hstate⟩ := cat.configure_spec configuration
  rw [hstate]
  exact ⟨rfl, rfl, rfl, rfl⟩

theorem observation_untouched (json : JsonWriter) (observation : StyleRevisionObservation) :
    Untouched cat (cat.applyClusterObservation json observation).1 := by
  cases cat.applyClusterObservation_spec json observation with
  | inl hstate =>
    rw [hstate]
    exact ⟨rfl, rfl, rfl, rfl⟩
  | inr hstate =>
    obtain ⟨hints, hstate⟩ := hstate
    rw [hstate]
    exact ⟨rfl, rfl, rfl, rfl⟩

/-- All a step can do: nothing to counters and local entries, a request, or a record that fits the clock. -/
theorem Session.next_cases (wire : Wire) (session : Session) (event : Event) :
    (event.isHint = false ∧ Untouched session.catalog (session.next wire event)) ∨
      (∃ sid hintId, event = .requestRevalidation sid hintId ∧
        session.next wire event = (session.catalog.requestRevalidationInner sid hintId).1) ∨
      ∃ began now ver fresh sid fence,
        event = .completeFetch began now ver fresh ∧
        session.fetch began = some (sid, fence) ∧
        now + max fresh session.catalog.minimumRevalidationInterval < 2 ^ 63 * 10 ^ 9 ∧
        session.next wire event = (session.catalog.recordObservedForGeneration wire now sid ver fresh fence).1 := by
  cases event with
  | configure configuration => exact .inl ⟨rfl, configure_untouched session.catalog configuration⟩
  | beginFetch sid => exact .inl ⟨rfl, rfl, rfl, rfl, rfl⟩
  | completeFetch began now ver fresh =>
    unfold next
    dsimp only
    split
    case h_2 => exact .inl ⟨rfl, rfl, rfl, rfl, rfl⟩
    case h_1 sid fence hfetch =>
      by_cases hfits : now + max fresh session.catalog.minimumRevalidationInterval < 2 ^ 63 * 10 ^ 9
      · exact .inr (.inr ⟨began, now, ver, fresh, sid, fence, rfl, hfetch, hfits, rfl⟩)
      · rw [session.catalog.recordObserved_overflow sid wire now ver fresh fence (not_lt.mp hfits)]
        exact .inl ⟨rfl, rfl, rfl, rfl, rfl⟩
  | requestRevalidation sid hintId => exact .inr (.inl ⟨sid, hintId, rfl, rfl⟩)
  | applyClusterObservation observation => exact .inl ⟨rfl, observation_untouched session.catalog wire.json observation⟩

variable {event : Event}

theorem Event.isHintFor_of_isHint (h : event.isHint = false) (s : StyleId) : event.isHintFor s = false := by
  cases event with
  | requestRevalidation sid hintId => cases h
  | _ => rfl

theorem Counts.of_unchanged {cat next : StyleCatalog} (hquiet : event.isHint = false)
    (hinterval : next.minimumRevalidationInterval = cat.minimumRevalidationInterval)
    (hreqs : next.inner.revalidationRequests = cat.inner.revalidationRequests)
    (hgens : next.inner.revalidationGenerations = cat.inner.revalidationGenerations)
    (hobs : ∀ s, cat.inner.observed.lookup s ≠ none → next.inner.observed.lookup s ≠ none) : Counts cat next event where
  interval := hinterval
  requests := by simp [hreqs, hquiet]
  kept := by
    intro s g hg
    simp [hgens, hg, Event.isHintFor_of_isHint hquiet s]
  fresh := by
    intro s g hnone hsome
    simp [hgens, hnone] at hsome
  observed := hobs

theorem counts_record (wire : Wire) (cat : StyleCatalog) (sid : StyleId)
    (hquiet : event.isHint = false) (now : Instant) (ver : UInt64) (fresh : Duration) (fence : RevalidationFence)
    (hfits : now + max fresh cat.minimumRevalidationInterval < 2 ^ 63 * 10 ^ 9) : Counts cat
      (cat.recordObservedForGeneration wire now sid ver fresh fence).1 event := by
  obtain ⟨hints, announcements, cluster, hstate, _, _⟩ :=
    cat.recordObserved_spec sid wire now ver fresh fence hfits
  rw [hstate]
  refine .of_unchanged hquiet rfl rfl rfl (fun s hs => ?_)
  rw [HashMap.lookup_insert_eq]
  split_ifs
  · exact nofun
  · exact hs

theorem counts_request (sid : StyleId) (hintId : Option String) (hfew : cat.inner.revalidationRequests + 1 < 2 ^ 64)
    (hfence : ∀ g, cat.inner.revalidationGenerations.lookup sid = some g →
      g + 1 < 2 ^ 64 ∧ cat.inner.observed.lookup sid ≠ none)
    (hfloored : ∀ o, cat.inner.observed.lookup sid = some o →
      o.lastObservedAt + cat.minimumRevalidationInterval < 2 ^ 63 * 10 ^ 9) :
    Counts cat (cat.requestRevalidationInner sid hintId).1 (.requestRevalidation sid hintId) := by
  obtain ⟨hints, generations, observed, hstate, hothers, hunobs, hobs⟩ :=
    cat.requestRevalidation_spec sid hintId
  rw [hstate]
  -- the clock arithmetic of a request fits because that of the last record did
  have hcnt : ∀ o, cat.inner.observed.lookup sid = some o →
      (∃ due, observed.lookup sid =
          some { o with revalidateAfter := due, pendingRevalidation := true }) ∧
        (∀ g, cat.inner.revalidationGenerations.lookup sid = some g →
          generations.lookup sid = some (wrappingAdd g 1)) ∧
        (cat.inner.revalidationGenerations.lookup sid = none →
          ∀ g, generations.lookup sid = some g → g = 1) := by
    intro o ho
    cases hobs o ho with
    | inl h => exact absurd (hfloored o ho) (not_lt.mpr h.1)
    | inr h => exact h
  refine ⟨rfl, wrappingAdd_eq hfew, ?_, ?_, ?_⟩
  · intro s g hg
    by_cases hs : s = sid
    · subst hs
      obtain ⟨hbound, hne⟩ := hfence g hg
      obtain ⟨o, ho⟩ := ne_none_iff_exists'.mp hne
      rw [(hcnt o ho).2.1 g hg, wrappingAdd_eq hbound]
      simp [isHintFor]
    · rw [(hothers s hs).2, hg]
      simp [isHintFor, Ne.symm hs]
  · intro s g hnone hsome
    by_cases hs : s = sid
    · subst hs
      cases hcase : cat.inner.observed.lookup s with
      | none =>
        simp [(hunobs hcase).2, hnone] at hsome
      | some o => exact ⟨rfl, (hcnt o hcase).2.2 hnone g hsome, nofun⟩
    · simp [(hothers s hs).2, hnone] at hsome
  · intro s hne
    by_cases hs : s = sid
    · subst hs
      obtain ⟨o, ho⟩ := ne_none_iff_exists'.mp hne
      obtain ⟨due, hdue⟩ := (hcnt o ho).1
      rw [hdue]
      exact nofun
    · rw [(hothers s hs).1]
      exact hne

/-! ## The invariant of a session -/

namespace Session

variable {wire : Wire} {session : Session}

variable {sid : StyleId} {fence : RevalidationFence} {began : ℕ}

theorem fetch_eq_some : session.fetch began = some (sid, fence) ↔
      ∃ before, session.log[began]? = some (before, .beginFetch sid) ∧
        before.revalidationFence sid = fence := by
  unfold fetch
  split
  case h_1 before begun hentry =>
    constructor
    · intro h
      obtain ⟨rfl, rfl⟩ := Prod.mk.inj (some.inj h)
      exact ⟨before, hentry, rfl⟩
    · rintro ⟨before', hentry', rfl⟩
      rw [hentry] at hentry'
      cases hentry'
      rfl
  case h_2 hother =>
    constructor
    · exact nofun
    · rintro ⟨before, hentry, _⟩
      exact absurd hentry (hother before sid)

theorem since_step (p : Event → Bool) (event : Event) {k : ℕ} (hk : k ≤ session.log.length) :
    since p k (session.step wire event).log = since p k session.log + if p event = true then 1 else 0 :=
  since_log p hk session.catalog event

theorem fetch_step (event : Event) (h : session.fetch began = some (sid, fence)) :
    (session.step wire event).fetch began = some (sid, fence) := by
  obtain ⟨before, hentry, hfence⟩ := fetch_eq_some.mp h
  exact fetch_eq_some.mpr ⟨before, getElem?_log.mpr (.inl hentry), hfence⟩

theorem Recorded.step (event : Event) (h : session.Recorded wire sid began) :
    (session.step wire event).Recorded wire sid began := by
  obtain ⟨n, before, now, ver, fresh, fence, hlater, hentry, hfetch, hout⟩ := h
  exact ⟨n, before, now, ver, fresh, fence, hlater, getElem?_log.mpr (.inl hentry), fetch_step event hfetch, hout⟩

structure Inv (wire : Wire) (session : Session) : Prop where
  total : session.catalog.inner.revalidationRequests = since isHint 0 session.log
  requestsSince : ∀ k before event, session.log[k]? = some (before, event) →
    session.catalog.inner.revalidationRequests = before.inner.revalidationRequests + since isHint k session.log
  /-- An entry of the bounded map stays, and counts the hints for its style. -/
  generationsSince : ∀ k before event s g, session.log[k]? = some (before, event) →
    before.inner.revalidationGenerations.lookup s = some g →
      session.catalog.inner.revalidationGenerations.lookup s = some (g + since (isHintFor s) k session.log)
  fenced : ∀ s g, session.catalog.inner.revalidationGenerations.lookup s = some g →
    g ≤ since isHint 0 session.log ∧ session.catalog.inner.observed.lookup s ≠ none
  /-- A request can pull a style forward without overflowing the clock. -/
  floored : ∀ s o, session.catalog.inner.observed.lookup s = some o →
    o.lastObservedAt + session.catalog.minimumRevalidationInterval < 2 ^ 63 * 10 ^ 9
  pending : ∀ i before s hintId, session.log[i]? = some (before, .requestRevalidation s hintId) →
    (∀ began, i < began → ¬ session.Recorded wire s began) →
      ∀ o, session.catalog.inner.observed.lookup s = some o → o.pendingRevalidation = true

section

variable (h : session.Inv wire)
include h

/-- The fence test, by what was hinted since the fence was captured. An absent entry fails it after
any hint: it cannot be told from one that did not fit the map. -/
theorem Inv.fetchIsCurrent_iff {before : StyleCatalog} (hbegan : session.log[began]? = some (before, .beginFetch sid)) :
    session.catalog.inner.fetchIsCurrent sid (before.revalidationFence sid) = true ↔
      since isHint began session.log = 0 ∨
        ((before.revalidationFence sid).generation.isSome = true ∧
          since (isHintFor sid) began session.log = 0) := by
  have hreqs := h.requestsSince began before _ hbegan
  unfold StyleCatalogInner.fetchIsCurrent StyleCatalogInner.hintIsImpossibleSince
  by_cases hsame : since isHint began session.log = 0
  · have heq : session.catalog.inner.revalidationRequests = before.inner.revalidationRequests := by omega
    simp [revalidationFence, heq, hsame]
  · have hne : session.catalog.inner.revalidationRequests ≠ before.inner.revalidationRequests := by omega
    simp only [revalidationFence, hne, decide_false, Bool.false_eq_true, if_false, hsame, false_or]
    cases eq_none_or_eq_some (before.inner.revalidationGenerations.lookup sid) with
    | inl hnone =>
      simp only [hnone]
      cases session.catalog.inner.revalidationGenerations.lookup sid <;> simp
    | inr hsome =>
      obtain ⟨g, hg⟩ := hsome
      simp [hg, h.generationsSince began before _ sid g hbegan hg]

/-! ## Every step keeps it -/

theorem Inv.counts_next (event : Event) (hfew : since isHint 0 (session.step wire event).log < 2 ^ 64) :
    Counts session.catalog (session.next wire event) event := by
  cases session.next_cases wire event with
  | inl hquiet =>
    obtain ⟨hquiet, hsame⟩ := hquiet
    exact .of_unchanged hquiet hsame.interval hsame.requests hsame.generations
      (fun s hs => by rw [hsame.observed]; exact hs)
  | inr hwrites =>
    cases hwrites with
    | inl hreq =>
      obtain ⟨sid, hintId, rfl, hnext⟩ := hreq
      have hmore : since isHint 0 session.log + 1 < 2 ^ 64 := by
        rw [since_step isHint _ (zero_le _)] at hfew
        exact hfew
      apply counts_request session.catalog sid hintId
      · rw [h.total]
        exact hmore
      · intro g hg
        obtain ⟨hle, hobs⟩ := h.fenced sid g hg
        exact ⟨by omega, hobs⟩
      · exact h.floored sid
    | inr hrec =>
      obtain ⟨began, now, ver, fresh, sid, fence, rfl, _, hfits, hnext⟩ := hrec
      rw [hnext]
      exact counts_record wire session.catalog sid rfl now ver fresh fence hfits

theorem Inv.observed_next (event : Event) (s : StyleId) (o : ObservedStyle)
    (ho : (session.next wire event).inner.observed.lookup s = some o) :
    (session.catalog.inner.observed.lookup s = some o ∧ event.isHintFor s = false) ∨
      (event.isHintFor s = true ∧ o.pendingRevalidation = true ∧
        ∃ o', session.catalog.inner.observed.lookup s = some o' ∧ o.lastObservedAt = o'.lastObservedAt) ∨
      ∃ began now ver fresh before,
        event = .completeFetch began now ver fresh ∧
        session.log[began]? = some (before, .beginFetch s) ∧
        now + max fresh session.catalog.minimumRevalidationInterval < 2 ^ 63 * 10 ^ 9 ∧
        o = session.catalog.recordedStyle s now ver fresh (before.revalidationFence s) := by
  cases session.next_cases wire event with
  | inl hquiet =>
    obtain ⟨hquiet, hsame⟩ := hquiet
    rw [hsame.observed] at ho
    exact .inl ⟨ho, Event.isHintFor_of_isHint hquiet s⟩
  | inr hwrites =>
    cases hwrites with
    | inl hreq =>
      obtain ⟨sid, hintId, rfl, hnext⟩ := hreq
      obtain ⟨hints, generations, observed, hstate, hothers, hunobs, hobs⟩ :=
        session.catalog.requestRevalidation_spec sid hintId
      rw [hnext, hstate] at ho
      by_cases hs : s = sid
      · subst hs
        cases hcase : session.catalog.inner.observed.lookup s with
        | none =>
          rw [(hunobs hcase).1] at ho
          cases ho
        | some o' =>
          cases hobs o' hcase with
          | inl hover => exact absurd (h.floored s o' hcase) (not_lt.mpr hover.1)
          | inr hmark =>
            obtain ⟨due, hdue⟩ := hmark.1
            rw [hdue] at ho
            obtain rfl := some.inj ho
            exact .inr (.inl ⟨by simp [isHintFor], rfl, o', rfl, rfl⟩)
      · rw [(hothers s hs).1] at ho
        exact .inl ⟨ho, by simp [isHintFor, Ne.symm hs]⟩
    | inr hrec =>
      obtain ⟨began, now, ver, fresh, sid, fence, rfl, hfetch, hfits, hnext⟩ := hrec
      obtain ⟨hints, announcements, cluster, hstate, _, _⟩ :=
        session.catalog.recordObserved_spec sid wire now ver fresh fence hfits
      rw [hnext, hstate] at ho
      rw [HashMap.lookup_insert_eq] at ho
      split_ifs at ho with hs
      · subst hs
        obtain ⟨before, hentry, rfl⟩ := fetch_eq_some.mp hfetch
        exact .inr (.inr ⟨began, now, ver, fresh, before, rfl, hentry, hfits, (some.inj ho).symm⟩)
      · exact .inl ⟨ho, rfl⟩

theorem Inv.requestsSince_step
    (hcnts : Counts session.catalog (session.next wire event) event) (k : ℕ) (before : StyleCatalog)
    (e : Event) (hentry : (session.step wire event).log[k]? = some (before, e)) :
    (session.step wire event).catalog.inner.revalidationRequests =
      before.inner.revalidationRequests + since isHint k (session.step wire event).log := by
  have hnext : (session.step wire event).catalog.inner.revalidationRequests = _ := hcnts.requests
  rw [hnext]
  cases getElem?_log.mp hentry with
  | inl hold =>
    obtain ⟨hlt, _⟩ := List.getElem?_eq_some_iff.mp hold
    rw [since_step _ event (le_of_lt hlt), h.requestsSince k before e hold, add_assoc]
  | inr hnew =>
    obtain ⟨rfl, heq⟩ := hnew
    obtain ⟨rfl, rfl⟩ := Prod.mk.inj heq
    rw [since_step _ event le_rfl, since_length, zero_add]

theorem Inv.generationsSince_step
    (hcnts : Counts session.catalog (session.next wire event) event) (k : ℕ) (before : StyleCatalog)
    (e : Event) (s : StyleId) (g : ℕ) (hentry : (session.step wire event).log[k]? = some (before, e))
    (hg : before.inner.revalidationGenerations.lookup s = some g) :
    (session.step wire event).catalog.inner.revalidationGenerations.lookup s =
      some (g + since (isHintFor s) k (session.step wire event).log) := by
  cases getElem?_log.mp hentry with
  | inl hold =>
    obtain ⟨hlt, _⟩ := List.getElem?_eq_some_iff.mp hold
    rw [since_step _ event (le_of_lt hlt), ← add_assoc]
    exact hcnts.kept s _ (h.generationsSince k before e s g hold hg)
  | inr hnew =>
    obtain ⟨rfl, heq⟩ := hnew
    obtain ⟨rfl, rfl⟩ := Prod.mk.inj heq
    rw [since_step _ event le_rfl, since_length, zero_add]
    exact hcnts.kept s g hg

/-- A fetch begun before the hint finds its fence moved and leaves the flag set; one begun after it
is what ends the wait. -/
theorem Inv.pending_step (event : Event) (i : ℕ) (before : StyleCatalog) (s : StyleId) (hintId : Option String)
    (hentry : (session.step wire event).log[i]? = some (before, .requestRevalidation s hintId))
    (hwait : ∀ began, i < began → ¬ (session.step wire event).Recorded wire s began)
    (o : ObservedStyle) (ho : (session.step wire event).catalog.inner.observed.lookup s = some o) :
    o.pendingRevalidation = true := by
  cases h.observed_next event s o ho with
  | inl hsame =>
    obtain ⟨hold, hquiet⟩ := hsame
    cases getElem?_log.mp hentry with
    | inl hlog => exact h.pending i before s hintId hlog (fun b hb hr => hwait b hb (hr.step event)) o hold
    | inr hnew =>
      obtain ⟨_, heq⟩ := hnew
      obtain ⟨_, rfl⟩ := Prod.mk.inj heq
      simp [isHintFor] at hquiet
  | inr hwrote =>
    cases hwrote with
    | inl hmark => exact hmark.2.1
    | inr hrec =>
      obtain ⟨began, now, ver, fresh, start, rfl, hbegan, hfits, rfl⟩ := hrec
      have hlog : session.log[i]? = some (before, .requestRevalidation s hintId) := by
        cases getElem?_log.mp hentry with
        | inl hlog => exact hlog
        | inr hnew => cases hnew.2
      obtain ⟨hlt, _⟩ := List.getElem?_eq_some_iff.mp hbegan
      cases lt_trichotomy i began with
      | inl hafter =>
        obtain ⟨_, _, _, _, _, hout⟩ := session.catalog.recordObserved_spec s wire now ver
          fresh (start.revalidationFence s) hfits
        refine absurd ?_ (hwait began hafter)
        exact ⟨session.log.length, session.catalog, now, ver, fresh, start.revalidationFence s, hlt,
          getElem?_log.mpr (.inr ⟨rfl, rfl⟩),
          fetch_step _ (fetch_eq_some.mpr ⟨start, hbegan, rfl⟩), hout⟩
      | inr hle =>
        have hbef : began < i := by
          cases hle with
          | inl heq =>
            subst heq
            simp [hlog] at hbegan
          | inr hlt => exact hlt
        have hstale : session.catalog.inner.fetchIsCurrent s (start.revalidationFence s) = false := by
          rw [Bool.eq_false_iff]
          intro hcur
          cases (h.fetchIsCurrent_iff hbegan).mp hcur with
          | inl hnone => simpa [isHint] using since_eq_zero.mp hnone i _ (le_of_lt hbef) hlog
          | inr hnone => simpa [isHintFor] using since_eq_zero.mp hnone.2 i _ (le_of_lt hbef) hlog
        unfold recordedStyle
        rw [hstale]
        exact (session.catalog.inner.observe_fields s ver now _ false).2.2

theorem inv_step (event : Event) (hfew : since isHint 0 (session.step wire event).log < 2 ^ 64) :
    (session.step wire event).Inv wire := by
  have hcnts := h.counts_next event hfew
  have hgrows : since isHint 0 (session.step wire event).log = _ :=
    since_step isHint event (zero_le _)
  have htotal : (session.step wire event).catalog.inner.revalidationRequests =
      since isHint 0 (session.step wire event).log := by
    rw [hgrows, ← h.total]
    exact hcnts.requests
  refine ⟨htotal, h.requestsSince_step hcnts, h.generationsSince_step hcnts, ?_, ?_, h.pending_step event⟩
  · intro s g hg
    cases hold : session.catalog.inner.revalidationGenerations.lookup s with
    | none =>
      obtain ⟨hhint, rfl, hobs⟩ := hcnts.fresh s g hold hg
      rw [hgrows, if_pos hhint]
      exact ⟨by omega, hcnts.observed s hobs⟩
    | some g' =>
      obtain ⟨hle, hobs⟩ := h.fenced s g' hold
      have heq : g = g' + if event.isHintFor s = true then 1 else 0 := by
        have hkept := hcnts.kept s g' hold
        exact some.inj (hg.symm.trans hkept)
      have hfor : (if event.isHintFor s = true then 1 else 0) ≤ if event.isHint = true then 1 else 0 := by
        cases event <;> simp [isHintFor, isHint]
        split_ifs <;> omega
      exact ⟨by omega, hcnts.observed s hobs⟩
  · intro s o ho
    show o.lastObservedAt + (session.next wire event).minimumRevalidationInterval < _
    rw [hcnts.interval]
    cases h.observed_next event s o ho with
    | inl hsame => exact h.floored s o hsame.1
    | inr hwrote =>
      cases hwrote with
      | inl hmark =>
        obtain ⟨_, _, o', hold, hlast⟩ := hmark
        rw [hlast]
        exact h.floored s o' hold
      | inr hrec =>
        obtain ⟨_, now, ver, fresh, start, _, _, hfits, rfl⟩ := hrec
        unfold recordedStyle
        rw [(session.catalog.inner.observe_fields s ver now _ _).1]
        exact lt_of_le_of_lt (Nat.add_le_add_left (le_max_right _ _) now) hfits

end

theorem inv_reachable {interval : Duration} (h : Reachable (sessions wire interval) session)
    (hfew : since isHint 0 session.log < 2 ^ 64) : session.Inv wire := by
  have hall : since isHint 0 session.log < 2 ^ 64 → session.Inv wire := by
    refine h.invariant (I := fun session => since isHint 0 session.log < 2 ^ 64 → session.Inv wire) ?_ ?_
    · intro _
      exact ⟨rfl, nofun, nofun, nofun, nofun, nofun⟩
    · rintro session _ ih ⟨event, rfl⟩ hfew'
      have hfew : since isHint 0 session.log < 2 ^ 64 := by
        rw [since_step _ event (zero_le _)] at hfew'
        omega
      exact inv_step (ih hfew) event hfew'
  exact hall hfew

end Session

/-! ## Hints and freshness -/

theorem blocks_of_pending (now : Instant) (revision : StyleRevision)
    (hpend : ∀ o, cat.inner.observed.lookup revision.id = some o → o.pendingRevalidation = true)
    (hother : cat.inner.isCurrentClusterRevision revision = false) :
    cat.revalidationBlocksOutputCache now revision = true := by
  unfold revalidationBlocksOutputCache StyleCatalogInner.hasPendingRevalidation StyleCatalogInner.needsRevalidation
  rw [hother]
  cases hobs : cat.inner.observed.lookup revision.id with
  | none => simp
  | some o => simp [hpend o hobs]

/-- In every session with fewer than `2 ^ 64` hints: from a hint for a style until a record for it whose
fence is younger than the hint, the style has no local entry or its entry is marked, so output under
any other revision than the peers' current one is not reused. A record whose fence saw no hint at all,
or has an entry and saw no hint for its style, gets the full freshness window. -/
theorem refresh_hint_kept (wire : Wire) (interval : Duration) (session : Session)
    (h : Reachable (sessions wire interval) session) (hfew : since isHint 0 session.log < 2 ^ 64)
    (styleId : StyleId) :
    (∀ i before hintId, session.log[i]? = some (before, .requestRevalidation styleId hintId) →
      (∀ began, i < began → ¬ session.Recorded wire styleId began) →
        (session.catalog.inner.observed.lookup styleId = none ∨
          ∃ o, session.catalog.inner.observed.lookup styleId = some o ∧ o.pendingRevalidation = true) ∧
        ∀ now version, session.catalog.inner.isCurrentClusterRevision ⟨styleId, version⟩ = false →
          session.catalog.revalidationBlocksOutputCache now ⟨styleId, version⟩ = true) ∧
      ∀ began before, session.log[began]? = some (before, .beginFetch styleId) →
        (since isHint began session.log = 0 ∨
          ((before.revalidationFence styleId).generation.isSome = true ∧
            since (isHintFor styleId) began session.log = 0)) →
        ∀ now version servedFreshness fullFreshness,
          Instant.add now (max servedFreshness session.catalog.minimumRevalidationInterval) = some fullFreshness →
            ∃ o, (session.step wire (.completeFetch began now version servedFreshness)).catalog.inner.observed.lookup
                styleId = some o ∧ o.revalidateAfter = fullFreshness ∧ o.pendingRevalidation = false := by
  have hinv := Session.inv_reachable h hfew
  refine ⟨?_, ?_⟩
  · intro i before hintId hentry hwaiting
    have hpending := hinv.pending i before styleId hintId hentry hwaiting
    refine ⟨?_, fun now version hother => blocks_of_pending _ now ⟨styleId, version⟩ hpending hother⟩
    cases hobserved : session.catalog.inner.observed.lookup styleId with
    | none => exact .inl rfl
    | some o => exact .inr ⟨o, rfl, hpending o hobserved⟩
  · intro began before hbegan hunhinted now version servedFreshness fullFreshness hfull
    have hcurrent := (hinv.fetchIsCurrent_iff hbegan).mpr hunhinted
    obtain ⟨hfits, rfl⟩ := Instant.add_eq_some.mp hfull
    obtain ⟨hints, announcements, cluster, hstate, _, _⟩ := session.catalog.recordObserved_spec styleId wire now
      version servedFreshness (before.revalidationFence styleId) hfits
    refine ⟨session.catalog.recordedStyle styleId now version servedFreshness (before.revalidationFence styleId),
      ?_, ?_, ?_⟩
    · unfold Session.step Session.next
      dsimp only
      rw [Session.fetch_eq_some.mpr ⟨before, hbegan, rfl⟩]
      dsimp only
      rw [hstate]
      exact AList.lookup_insert _
    · unfold StyleCatalog.recordedStyle
      rw [hcurrent, (session.catalog.inner.observe_fields styleId version now _ true).2.1, if_pos rfl]
    · unfold StyleCatalog.recordedStyle
      rw [hcurrent]
      exact (session.catalog.inner.observe_fields styleId version now _ true).2.2

/-- A hint arrives while the first fetch of a style is under way, and the fetch completes. -/
def overtakenFetch : Session :=
  (((sessions demoWire minStyleRevalidateInterval).init.step demoWire (.beginFetch demoStyle)).step demoWire
    (.requestRevalidation demoStyle none)).step demoWire (.completeFetch 0 0 (contentVersion 1) (3600 * 10 ^ 9))

theorem overtakenFetch_reachable : Reachable (sessions demoWire minStyleRevalidateInterval) overtakenFetch :=
  reachable_step _ (reachable_step _ (reachable_step _ Reachable.init))

theorem overtakenFetch_not_recorded (began : ℕ) (hlater : 1 < began) :
    ¬ overtakenFetch.Recorded demoWire demoStyle began := by
  rintro ⟨n, before, now, ver, fresh, fence, hbegan, hentry, _⟩
  obtain ⟨hn, _⟩ := List.getElem?_eq_some_iff.mp hentry
  have hlen : overtakenFetch.log.length = 3 := rfl
  omega

theorem overtakenFetch_stays_due :
    (∃ o, overtakenFetch.catalog.inner.observed.lookup demoStyle = some o ∧ o.pendingRevalidation = true) ∧
      overtakenFetch.catalog.revalidationBlocksOutputCache 0 ⟨demoStyle, contentVersion 1⟩ = true := by
  obtain ⟨hkept, _⟩ := refresh_hint_kept demoWire minStyleRevalidateInterval overtakenFetch
    overtakenFetch_reachable (by decide) demoStyle
  obtain ⟨hmarked, hblocks⟩ := hkept 1 _ none rfl overtakenFetch_not_recorded
  refine ⟨?_, hblocks 0 (contentVersion 1) (by decide)⟩
  cases hmarked with
  | inl hnone => exact absurd hnone (by decide)
  | inr hsome => exact hsome

end Mappf.Styles
