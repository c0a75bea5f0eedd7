import Mappf.Biei.Profile
import Mappf.Styles.CatalogSpec

/-! # Which bytes a load returns

Every entry of the style cache was sent to a fetch under the credential of its key, and is labelled with the version
of its own content unless its revision is the configured placeholder. A load keeps this in all but one of the ways it
chooses its bytes: the first fetch of a style retains whatever it got under the revision it was asked for, and that
revision may have been learned from a peer. -/
namespace Mappf.Biei
open Option

open Styles (StyleId StyleRevision StyleCatalog StyleCatalogInner StyleRevisionObservation RevalidationFence
  ObservedStyle Instant Duration)

/-! ## The catalog keeps its placeholders -/

/-- The configured versions, and what is kept of them as bootstrap revisions. -/
structure Placeholders (configured : StyleId → Option UInt64) (catalog : StyleCatalog) : Prop where
  version : ∀ styleId, catalog.inner.configuredVersion styleId = configured styleId
  bootstrap : ∀ styleId observed version, catalog.inner.observed.lookup styleId = some observed →
    observed.bootstrap = some version → configured styleId = some version

namespace Placeholders

variable {configured : StyleId → Option UInt64} {cat : StyleCatalog}

theorem start (interval : Duration) (configurations : List StyleCatalog.Configuration) :
    Placeholders (fun sid => (ProfileSession.start interval configurations).preparer.styleCatalog.inner.configuredVersion sid)
      (ProfileSession.start interval configurations).preparer.styleCatalog where
  version := fun _ => rfl
  bootstrap := by
    have hnone : ∀ cat : StyleCatalog, (∀ sid, cat.inner.observed.lookup sid = none) →
        ∀ sid, (configurations.foldl StyleCatalog.configure cat).inner.observed.lookup sid = none := by
      induction configurations with
      | nil => exact fun _ h => h
      | cons configuration configurations ih =>
        intro cat h
        refine ih (cat.configure configuration) (fun sid => ?_)
        obtain ⟨_, _, _, heq⟩ := cat.configure_spec configuration
        rw [heq]
        exact h sid
    intro sid observed ver hobs
    have hstart := hnone (StyleCatalog.withMinimumRevalidationInterval interval) (fun _ => rfl) sid
    rw [show (ProfileSession.start interval configurations).preparer.styleCatalog =
      configurations.foldl StyleCatalog.configure (StyleCatalog.withMinimumRevalidationInterval interval) from rfl,
      hstart] at hobs
    cases hobs

/-- An entry written by a fetch has the bootstrap revision of the entry before it, or the configured one. -/
theorem observe_bootstrap {inner : StyleCatalogInner} {sid : StyleId} {ver boot : UInt64}
    {observedAt revalidateAfter : Instant} {cur : Bool}
    (h : (inner.observe sid ver observedAt revalidateAfter cur).1.bootstrap = some boot) :
    (∃ observed, inner.observed.lookup sid = some observed ∧ observed.bootstrap = some boot) ∨
      inner.configuredVersion sid = some boot := by
  unfold StyleCatalogInner.observe at h
  cases hobs : inner.observed.lookup sid with
  | some observed =>
    rw [hobs] at h
    dsimp only at h
    split_ifs at h
    exact .inl ⟨observed, rfl, h⟩
  | none =>
    rw [hobs] at h
    exact .inr (filter_eq_some_iff.mp h).1

section

variable (h : Placeholders configured cat)
include h

theorem record (wire : Styles.Wire) (now : Instant) (sid : StyleId)
    (ver : UInt64) (fresh : Duration) (fence : RevalidationFence) : Placeholders configured
      (cat.recordObservedForGeneration wire now sid ver fresh fence).1 := by
  by_cases hfits : now + max fresh cat.minimumRevalidationInterval < 2 ^ 63 * 10 ^ 9
  · obtain ⟨hints, announcements, cluster, heq, -, -⟩ :=
      cat.recordObserved_spec sid wire now ver fresh fence hfits
    rw [heq]
    refine ⟨h.version, ?_⟩
    intro other observed boot hobs hboot
    rw [HashMap.lookup_insert_eq] at hobs
    split_ifs at hobs with hother
    · subst hother
      rw [← some.inj hobs] at hboot
      obtain ⟨before, hbef, hkept⟩ | hconf := observe_bootstrap hboot
      · exact h.bootstrap other before boot hbef hkept
      · exact (h.version other).symm.trans hconf
    · exact h.bootstrap other observed boot hobs hboot
  · rw [cat.recordObserved_overflow sid wire now ver fresh fence (Nat.not_lt.mp hfits)]
    exact h

theorem request (sid : StyleId) (hintId : Option String) :
    Placeholders configured (cat.requestRevalidationInner sid hintId).1 := by
  obtain ⟨hints, generations, entries, heq, hothers, hmiss, hpres⟩ :=
    cat.requestRevalidation_spec sid hintId
  rw [heq]
  refine ⟨h.version, ?_⟩
  intro other observed boot hobs hboot
  by_cases hother : other = sid
  · subst hother
    cases hbef : cat.inner.observed.lookup other with
    | none =>
      rw [(hmiss hbef).1] at hobs
      cases hobs
    | some before =>
      obtain ⟨-, hsame⟩ | ⟨⟨due, hdue⟩, -⟩ := hpres before hbef
      · rw [hsame] at hobs
        exact h.bootstrap other before boot hbef (some.inj hobs ▸ hboot)
      · rw [hdue] at hobs
        rw [← some.inj hobs] at hboot
        exact h.bootstrap other before boot hbef hboot
  · rw [(hothers other hother).1] at hobs
    exact h.bootstrap other observed boot hobs hboot

theorem peer (json : JsonWriter) (observation : StyleRevisionObservation) :
    Placeholders configured (cat.applyClusterObservation json observation).1 := by
  obtain heq | ⟨hints, heq⟩ := cat.applyClusterObservation_spec json observation
  · rw [heq]
    exact h
  · rw [heq]
    exact ⟨h.version, h.bootstrap⟩

theorem of_isBootstrapRevision {revision : StyleRevision}
    (hboot : cat.isBootstrapRevision revision = true) : configured revision.id = some revision.version := by
  obtain ⟨observed, hobs, hver⟩ := (any_eq_true _ _).mp hboot
  exact h.bootstrap revision.id observed revision.version hobs (of_decide_eq_true hver)

end

end Placeholders

/-! ## Faithful bytes -/

section Faithful

variable (libraries : PreparerLibraries) (configured : StyleId → Option UInt64) (responses : List StyleResponse)

def Sent (key : StyleCacheKey) (json : String) : Prop :=
  ∃ response ∈ responses, response.styleId = key.revision.id ∧
    credentialPartition response.authorization = key.credential ∧ response.json = json

structure Faithful (key : StyleCacheKey) (json : String) : Prop where
  sent : Sent responses key json
  labelled : libraries.styleContentVersion json = key.revision.version ∨
    configured key.revision.id = some key.revision.version

structure Attempt.Faithful (key : StyleCacheKey) (stale : Option CachedStyleJson) (firstObservation : Bool) : Prop where
  held : ∀ cached, stale = some cached → Biei.Faithful libraries configured responses key cached.json
  first : stale = none → firstObservation = true → configured key.revision.id = some key.revision.version

def LoadEnding.Faithful (key : StyleCacheKey) : LoadEnding → Prop
  | .served json => Biei.Faithful libraries configured responses key json
  | .failed _ _ | .abandoned => True

def LoadPhase.Faithful (key : StyleCacheKey) : LoadPhase → Prop
  | .checking cached | .rechecking cached | .retaining cached =>
    Biei.Faithful libraries configured responses key cached.json
  | .observing stale => ∀ cached, stale = some cached → Biei.Faithful libraries configured responses key cached.json
  | .fencing stale firstObservation => Attempt.Faithful libraries configured responses key stale firstObservation
  | .acquiring attempt | .resolving attempt | .awaiting attempt _ =>
    Attempt.Faithful libraries configured responses key attempt.stale attempt.firstObservation
  | .storing attempt cached | .clearingObserved attempt cached | .clearingRequested attempt cached
  | .recording attempt cached | .answering attempt cached =>
    Attempt.Faithful libraries configured responses key attempt.stale attempt.firstObservation ∧
      Sent responses key cached.json
  | .releasing ending | .sending _ ending => ending.Faithful libraries configured responses key
  | .returned (.ok json) => Biei.Faithful libraries configured responses key json
  | .returned (.error _) => True
  | .looking | .reading | .electing | .following _ | .leading | .rereading | .failing _ | .gone => True

structure MapLibreProfilePreparer.Faithful (preparer : MapLibreProfilePreparer) : Prop where
  cached : ∀ key cached, preparer.styleJsonCache.lookup key = some cached →
    Biei.Faithful libraries configured responses key cached.json
  placeholders : Placeholders configured preparer.styleCatalog

end Faithful

/-! ## More responses -/

section Append

variable {libraries : PreparerLibraries} {configured : StyleId → Option UInt64} {responses : List StyleResponse}
  {key : StyleCacheKey} {json : String}

theorem Sent.append (h : Sent responses key json) (more : List StyleResponse) : Sent (responses ++ more) key json := by
  obtain ⟨response, hmem, hresp⟩ := h
  exact ⟨response, List.mem_append_left more hmem, hresp⟩

theorem Faithful.append (h : Faithful libraries configured responses key json) (more : List StyleResponse) :
    Faithful libraries configured (responses ++ more) key json :=
  ⟨h.sent.append more, h.labelled⟩

theorem Attempt.Faithful.append {stale : Option CachedStyleJson} {firstObservation : Bool}
    (h : Attempt.Faithful libraries configured responses key stale firstObservation) (more : List StyleResponse) :
    Attempt.Faithful libraries configured (responses ++ more) key stale firstObservation :=
  ⟨fun cached hstale => (h.held cached hstale).append more, h.first⟩

theorem LoadEnding.Faithful.append {ending : LoadEnding} (h : ending.Faithful libraries configured responses key)
    (more : List StyleResponse) : ending.Faithful libraries configured (responses ++ more) key := by
  cases ending with
  | served json => exact Biei.Faithful.append h more
  | failed _ _ | abandoned => exact trivial

theorem LoadPhase.Faithful.append {phase : LoadPhase} (h : phase.Faithful libraries configured responses key)
    (more : List StyleResponse) : phase.Faithful libraries configured (responses ++ more) key := by
  cases phase with
  | checking _ | rechecking _ | retaining _ => exact Biei.Faithful.append h more
  | observing stale => exact fun cached hstale => (h cached hstale).append more
  | fencing _ _ | acquiring _ | resolving _ | awaiting _ _ => exact Attempt.Faithful.append h more
  | storing _ _ | clearingObserved _ _ | clearingRequested _ _ | recording _ _ | answering _ _ =>
    exact ⟨h.1.append more, h.2.append more⟩
  | releasing _ | sending _ _ => exact LoadEnding.Faithful.append h more
  | returned res =>
    cases res with
    | ok json => exact Biei.Faithful.append h more
    | error _ => exact trivial
  | _ => exact trivial

end Append

/-! ## One step of a load -/

namespace MapLibreProfilePreparer.Faithful

variable {libraries : PreparerLibraries} {configured : StyleId → Option UInt64} {responses : List StyleResponse}
  {preparer : MapLibreProfilePreparer}

section

variable (h : preparer.Faithful libraries configured responses)
include h

theorem append (more : List StyleResponse) : preparer.Faithful libraries configured (responses ++ more) :=
  ⟨fun key cached hcached => (h.cached key cached hcached).append more, h.placeholders⟩

theorem insertStyle {key : StyleCacheKey}
    {cached : CachedStyleJson} (hcached : Biei.Faithful libraries configured responses key cached.json) :
    (preparer.insertStyle key cached).Faithful libraries configured responses := by
  refine ⟨fun other entry hentry => ?_, h.placeholders⟩
  unfold MapLibreProfilePreparer.insertStyle at hentry
  rw [HashMap.lookup_insert_eq] at hentry
  split_ifs at hentry with hother
  · rw [hother, ← some.inj hentry]
    exact hcached
  · exact h.cached other entry hentry

variable (key : StyleCacheKey)

theorem invalidateStyle : (preparer.invalidateStyle key).Faithful libraries configured responses := by
  refine ⟨fun other entry hentry => ?_, h.placeholders⟩
  unfold MapLibreProfilePreparer.invalidateStyle at hentry
  rw [HashMap.lookup_erase_eq] at hentry
  split_ifs at hentry
  exact h.cached other entry hentry

theorem insertError
    (error : ProfilePreparationError) : (preparer.insertError key error).Faithful libraries configured responses :=
  ⟨h.cached, h.placeholders⟩

theorem invalidateError : (preparer.invalidateError key).Faithful libraries configured responses :=
  ⟨h.cached, h.placeholders⟩

theorem setCatalog {cat : StyleCatalog} (hcatalog : Placeholders configured cat) :
    { preparer with styleCatalog := cat }.Faithful libraries configured responses :=
  ⟨h.cached, hcatalog⟩

end

end MapLibreProfilePreparer.Faithful

namespace Load

variable {libraries : PreparerLibraries} {configured : StyleId → Option UInt64} {responses : List StyleResponse}
  {preparer preparer' : MapLibreProfilePreparer} {load : Load} {phase' : LoadPhase}
  {att : Attempt} {response : Option StyleResponse}

/-- A leader without a held entry that finds nothing observed of its style is loading the configured revision. -/
def startsFromPlaceholder (preparer : MapLibreProfilePreparer) (load : Load) : Bool :=
  match load.phase with
  | .observing none =>
    (preparer.styleCatalog.observedVersion load.style.id).isSome ||
      preparer.styleCatalog.inner.configuredVersion load.style.id = some load.style.version
  | _ => true

theorem respond_faithful (hprep : preparer.Faithful libraries configured responses) {cached : CachedStyleJson}
    (hatt : Attempt.Faithful libraries configured responses load.key att.stale att.firstObservation)
    (hsent : Sent responses load.key cached.json) :
    (load.respond libraries preparer att cached).Faithful libraries configured responses load.key := by
  unfold respond
  by_cases hver : libraries.styleContentVersion cached.json = load.style.version
  · rw [if_pos hver]
    exact ⟨hsent, .inl hver⟩
  · rw [if_neg hver]
    cases hstale : att.stale with
    | some stale => exact hatt.held stale hstale
    | none =>
      split_ifs with hfirst hboot
      · exact ⟨hsent, .inr (hatt.first hstale hfirst)⟩
      · exact ⟨hsent, .inr (hprep.placeholders.of_isBootstrapRevision hboot)⟩
      · exact trivial

theorem proceed_faithful (hprep : preparer.Faithful libraries configured responses)
    (hphase : load.phase.Faithful libraries configured responses load.key)
    (hplace : load.startsFromPlaceholder preparer = true)
    (hnext : load.proceed libraries preparer = some (preparer', phase')) :
    preparer'.Faithful libraries configured responses ∧ phase'.Faithful libraries configured responses load.key := by
  unfold proceed at hnext
  cases hcase : load.phase with
  | looking | following recv | leading =>
    rw [hcase] at hnext
    dsimp only at hnext
    split at hnext <;> cases hnext <;> exact ⟨hprep, trivial⟩
  | reading | rereading =>
    rw [hcase] at hnext
    dsimp only at hnext
    split at hnext
    case h_1 cached hcached =>
      cases hnext
      exact ⟨hprep, hprep.cached load.key cached hcached⟩
    case h_2 =>
      cases hnext
      exact ⟨hprep, by simp [LoadPhase.Faithful]⟩
  | checking cached =>
    rw [hcase] at hnext hphase
    split_ifs at hnext <;> cases hnext
    · exact ⟨hprep, trivial⟩
    · exact ⟨hprep, hphase⟩
  | electing =>
    rw [hcase] at hnext
    dsimp only at hnext
    split at hnext <;> cases hnext <;> exact ⟨⟨hprep.cached, hprep.placeholders⟩, trivial⟩
  | rechecking stale =>
    rw [hcase] at hnext hphase
    split_ifs at hnext <;> cases hnext
    · refine ⟨hprep, fun cached hsome => ?_⟩
      rw [← some.inj hsome]
      exact hphase
    · exact ⟨hprep, hphase⟩
  | observing stale =>
    rw [hcase] at hnext hphase
    cases hnext
    refine ⟨hprep, hphase, fun hnone hfirst => ?_⟩
    -- the only step that needs the restriction
    unfold startsFromPlaceholder at hplace
    rw [hcase, hnone] at hplace
    rw [isNone_iff_eq_none.mp hfirst, isSome_none, Bool.false_or] at hplace
    rw [← hprep.placeholders.version]
    exact of_decide_eq_true hplace
  | fencing stale firstObservation =>
    rw [hcase] at hnext hphase
    cases hnext
    exact ⟨hprep, hphase⟩
  | resolving att =>
    rw [hcase] at hnext hphase
    dsimp only at hnext
    split at hnext <;> cases hnext
    · exact ⟨hprep, hphase⟩
    · exact ⟨hprep, trivial⟩
  | failing failure =>
    rw [hcase] at hnext
    cases hnext
    refine ⟨?_, trivial⟩
    split_ifs
    · exact hprep.insertError load.key failure.error
    · exact hprep
  | storing att cached =>
    rw [hcase] at hnext hphase
    cases hnext
    -- the entry goes under the version of its own content
    exact ⟨hprep.insertStyle ⟨hphase.2, .inl rfl⟩, hphase⟩
  | clearingObserved att cached | clearingRequested att cached =>
    rw [hcase] at hnext hphase
    cases hnext
    exact ⟨hprep.invalidateError _, hphase⟩
  | recording att cached =>
    rw [hcase] at hnext hphase
    dsimp only at hnext
    have hrec := hprep.placeholders.record libraries.wire preparer.now load.style.id
      (libraries.styleContentVersion cached.json) cached.servedFreshness att.revalidationFence
    split at hnext
    next cat _ heq =>
      cases hnext
      rw [heq] at hrec
      exact ⟨hprep.setCatalog hrec, hphase⟩
    next cat _ heq =>
      cases hnext
      rw [heq] at hrec
      exact ⟨hprep.setCatalog hrec, trivial⟩
  | answering att cached =>
    rw [hcase] at hnext hphase
    cases hnext
    exact ⟨hprep, respond_faithful hprep hphase.1 hphase.2⟩
  | retaining cached =>
    rw [hcase] at hnext hphase
    cases hnext
    exact ⟨hprep.insertStyle hphase, hphase⟩
  | releasing ending =>
    rw [hcase] at hnext hphase
    cases hnext
    exact ⟨⟨hprep.cached, hprep.placeholders⟩, hphase⟩
  | sending sender ending =>
    rw [hcase] at hnext hphase
    cases hnext
    refine ⟨⟨hprep.cached, hprep.placeholders⟩, ?_⟩
    cases ending with
    | served json => exact hphase
    | failed _ _ | abandoned => exact trivial
  | _ =>
    rw [hcase] at hnext
    cases hnext

theorem afterAnswer_faithful {styleUrl : String} {ans : ProviderAnswer}
    (hatt : Attempt.Faithful libraries configured responses load.key att.stale att.firstObservation)
    (hans : load.afterAnswer libraries att styleUrl ans = (phase', response)) :
    phase'.Faithful libraries configured (responses ++ response.toList) load.key := by
  unfold afterAnswer at hans
  split at hans
  next =>
    cases hans
    exact trivial
  next outcome _ =>
    cases outcome with
    | fetched fetched =>
      cases hans
      -- the new bytes are the response that is logged
      exact ⟨hatt.append _, _, List.mem_append_right _ (List.mem_singleton_self _), rfl, rfl, rfl⟩
    | notModified fresh etag =>
      cases hstale : att.stale with
      | none =>
        rw [hstale] at hans
        cases hans
        exact trivial
      | some stale =>
        rw [hstale] at hans
        cases hans
        exact ⟨hatt.append _, (hatt.held stale hstale).sent.append _⟩

theorem next_faithful {input : LoadInput} (hprep : preparer.Faithful libraries configured responses)
    (hphase : load.phase.Faithful libraries configured responses load.key)
    (hplace : input = .proceed → load.startsFromPlaceholder preparer = true)
    (hnext : load.next libraries preparer input = some (preparer', phase', response)) :
    preparer'.Faithful libraries configured (responses ++ response.toList) ∧
      phase'.Faithful libraries configured (responses ++ response.toList) load.key := by
  cases input with
  | proceed =>
    obtain ⟨⟨preparer₁, phase₁⟩, hproceed, heq⟩ := map_eq_some_iff.mp hnext
    cases heq
    obtain ⟨hprep', hphase'⟩ := proceed_faithful hprep hphase (hplace rfl) hproceed
    exact ⟨hprep'.append _, hphase'.append _⟩
  | timeout =>
    unfold next at hnext
    dsimp only at hnext
    split at hnext
    · split_ifs at hnext
      cases hnext
      exact ⟨hprep.append _, trivial⟩
    · cases hnext
  | acquire ans =>
    unfold next at hnext
    dsimp only at hnext
    split at hnext
    next att hcase =>
      rw [hcase] at hphase
      cases ans with
      | granted =>
        cases hnext
        exact ⟨hprep.append _, hphase.append _⟩
      | timedOut | closed =>
        cases hnext
        exact ⟨hprep.append _, trivial⟩
    next => cases hnext
  | respond ans =>
    unfold next at hnext
    dsimp only at hnext
    split at hnext
    next att styleUrl hcase =>
      rw [hcase] at hphase
      obtain ⟨rfl, hans⟩ := Prod.mk.inj (some.inj hnext)
      exact ⟨hprep.append _, afterAnswer_faithful hphase hans⟩
    next => cases hnext
  | cancel =>
    unfold next at hnext
    dsimp only at hnext
    split at hnext <;> cases hnext <;> exact ⟨hprep.append _, trivial⟩

end Load

/-! ## Sessions -/

namespace ProfileSession

structure Faithful (libraries : PreparerLibraries) (configured : StyleId → Option UInt64) (session : ProfileSession) :
    Prop where
  preparer : session.preparer.Faithful libraries configured session.responses
  loads : ∀ load ∈ session.loads, load.phase.Faithful libraries configured session.responses load.key

/-- A leader that finds nothing observed of its style, and holds no entry, is loading the configured revision. -/
def startsFromPlaceholder (session : ProfileSession) : ProfileAction → Bool
  | .step i .proceed => (session.loads[i]?).all (fun load => load.startsFromPlaceholder session.preparer)
  | _ => true

variable {libraries : PreparerLibraries} {configured : StyleId → Option UInt64} {session : ProfileSession}

theorem Faithful.setPreparer (h : session.Faithful libraries configured) {preparer : MapLibreProfilePreparer}
    (hprep : preparer.Faithful libraries configured session.responses) :
    (session.setPreparer preparer).Faithful libraries configured :=
  ⟨hprep, h.loads⟩

theorem Faithful.step (h : session.Faithful libraries configured) {action : ProfileAction}
    (hstarts : session.startsFromPlaceholder action = true) :
    (session.step libraries action).Faithful libraries configured := by
  cases action with
  | load style authorization deadline =>
    unfold ProfileSession.step
    dsimp only
    split_ifs
    · refine ⟨h.preparer, fun load hload => ?_⟩
      obtain hold | hnew := List.mem_append.mp hload
      · exact h.loads load hold
      · rw [List.mem_singleton.mp hnew]
        exact trivial
    · exact h
  | step i input =>
    unfold ProfileSession.step
    dsimp only
    cases hload : session.loads[i]? with
    | none => exact h
    | some load =>
      dsimp only
      cases hnext : load.next libraries session.preparer input with
      | none => exact h
      | some res =>
        obtain ⟨preparer', phase', response⟩ := res
        have hplace : input = .proceed → load.startsFromPlaceholder session.preparer = true := by
          rintro rfl
          unfold startsFromPlaceholder at hstarts
          dsimp only at hstarts
          rw [hload] at hstarts
          exact hstarts
        obtain ⟨hprep, hphase⟩ :=
          Load.next_faithful h.preparer (h.loads load (List.mem_of_getElem? hload)) hplace hnext
        refine ⟨hprep, fun other hother => ?_⟩
        obtain hold | rfl := List.mem_or_eq_of_mem_set hother
        · exact (h.loads other hold).append _
        · exact hphase
  | evictStyle key => exact h.setPreparer (h.preparer.invalidateStyle key)
  | evictError key => exact h.setPreparer (h.preparer.invalidateError key)
  | markStyleLoadFailed revision authorization =>
    exact h.setPreparer ((h.preparer.invalidateStyle _).insertError _ _)
  | requestRevalidation sid hintId =>
    exact h.setPreparer (h.preparer.setCatalog (h.preparer.placeholders.request sid hintId))
  | applyClusterObservation observation =>
    exact h.setPreparer (h.preparer.setCatalog (h.preparer.placeholders.peer _ observation))
  | tick elapsed => exact h.setPreparer ⟨h.preparer.cached, h.preparer.placeholders⟩

end ProfileSession

def placeholderSessions (libraries : PreparerLibraries) (interval : Duration)
    (configurations : List StyleCatalog.Configuration) : Machine ProfileSession where
  init := .start interval configurations
  step := fun session session' =>
    ∃ action, session.startsFromPlaceholder action = true ∧ session' = session.step libraries action

def placeholderVersion (interval : Duration) (configurations : List StyleCatalog.Configuration) (styleId : StyleId) :
    Option UInt64 :=
  (ProfileSession.start interval configurations).preparer.styleCatalog.inner.configuredVersion styleId

variable {libraries : PreparerLibraries} {interval : Duration} {configurations : List StyleCatalog.Configuration}
  {session : ProfileSession}

theorem faithful_of_reachable (h : Reachable (placeholderSessions libraries interval configurations) session) :
    session.Faithful libraries (placeholderVersion interval configurations) := by
  refine h.invariant ?_ ?_
  · refine ⟨⟨fun key cached hcached => ?_, Placeholders.start interval configurations⟩, fun load hload => ?_⟩
    · cases hcached
    · cases hload
  · rintro session _ hsess ⟨action, hstarts, rfl⟩
    exact hsess.step hstarts

/-- The bytes of a revision were sent to a fetch under the credential they are returned for, and are the content of
the revision unless it is the placeholder. -/
def ProfileSession.BytesMatch (libraries : PreparerLibraries) (configured : StyleId → Option UInt64)
    (session : ProfileSession) : Prop :=
  ∀ load ∈ session.loads, ∀ json, load.phase = .returned (.ok json) →
    (∃ response ∈ session.responses, response.styleId = load.style.id ∧
      credentialPartition response.authorization = credentialPartition load.authorization ∧ response.json = json) ∧
    (libraries.styleContentVersion json = load.style.version ∨ configured load.style.id = some load.style.version)

theorem style_bytes_match (libraries : PreparerLibraries) (interval : Duration)
    (configurations : List StyleCatalog.Configuration) (session : ProfileSession)
    (h : Reachable (placeholderSessions libraries interval configurations) session) :
    session.BytesMatch libraries (placeholderVersion interval configurations) := by
  intro load hload json hreturned
  have hphase := (faithful_of_reachable h).loads load hload
  rw [hreturned] at hphase
  exact ⟨hphase.sent, hphase.labelled⟩

namespace Example

/-- The content version of a short text is made of its bytes. -/
def plainLibraries : PreparerLibraries where
  fromStr _ := .ok .null
  toVec _ := none
  queryPairs _ := none
  extendPairs value _ := value
  sha256 := id
  redactedUrl := id
  wire := Styles.demoWire

def demoConfiguration : List StyleCatalog.Configuration := [.upsertDefinition Styles.demoStyle ⟨"https://demo", 1⟩]

def demoRevision (json : String) : StyleRevision := ⟨Styles.demoStyle, plainLibraries.styleContentVersion json⟩

/-- A load that leads, fetches the document and returns. -/
def fetchStyle (i : ℕ) (json : String) (toAcquire toReturn : ℕ) : List ProfileAction :=
  List.replicate toAcquire (.step i .proceed) ++ [.step i (.acquire .granted), .step i .proceed,
    .step i (.respond (.success ⟨json, 0, none⟩))] ++ List.replicate toReturn (.step i .proceed)

/-- A peer has announced the content "a" after a hint; the provider has moved on to "b". -/
def announcedFirst : List ProfileAction :=
  [.requestRevalidation Styles.demoStyle (some "hint"),
    .applyClusterObservation ⟨1, "hint", "demo/basic", plainLibraries.styleContentVersion "a"⟩,
    .load (demoRevision "a") none 100] ++ fetchStyle 0 "b" 7 8

def profileRun (actions : List ProfileAction) : ProfileSession :=
  actions.foldl (ProfileSession.step plainLibraries) (.start 0 demoConfiguration)

theorem announced_revision_gets_other_bytes :
    ∃ session, Reachable (profileSessions plainLibraries 0 demoConfiguration) session ∧
      ¬ session.BytesMatch plainLibraries (placeholderVersion 0 demoConfiguration) := by
  refine ⟨profileRun announcedFirst, reachable_foldl (ProfileSession.step plainLibraries) _ announcedFirst, fun h => ?_⟩
  have hload : (profileRun announcedFirst).loads = [⟨demoRevision "a", none, 100, .returned (.ok "b")⟩] := by
    decide +kernel
  obtain ⟨-, hversion⟩ := h ⟨demoRevision "a", none, 100, .returned (.ok "b")⟩ (by rw [hload]; decide) "b" rfl
  exact absurd hversion (by decide +kernel)

/-- The placeholder is loaded first, then the revision of its content, after the provider has changed it. -/
def placeholderFirst : List ProfileAction :=
  [.load ⟨Styles.demoStyle, 1⟩ none 100] ++ fetchStyle 0 "a" 7 8 ++ [.load (demoRevision "a") none 100] ++
    fetchStyle 1 "b" 9 7

theorem placeholder_first_matches :
    (profileRun placeholderFirst).loads =
        [⟨⟨Styles.demoStyle, 1⟩, none, 100, .returned (.ok "a")⟩, ⟨demoRevision "a", none, 100, .returned (.ok "a")⟩] ∧
      (profileRun placeholderFirst).BytesMatch plainLibraries (placeholderVersion 0 demoConfiguration) := by
  have hstep : ∀ session action, session.startsFromPlaceholder action = true →
      (placeholderSessions plainLibraries 0 demoConfiguration).step session (session.step plainLibraries action) :=
    fun _ action h => ⟨action, h, rfl⟩
  have hrun : Reachable (placeholderSessions plainLibraries 0 demoConfiguration) (profileRun placeholderFirst) :=
    Reachable.init.foldl_checked ProfileSession.startsFromPlaceholder hstep (by decide +kernel)
  exact ⟨by decide +kernel, style_bytes_match plainLibraries 0 demoConfiguration _ hrun⟩

end Example

end Mappf.Biei
