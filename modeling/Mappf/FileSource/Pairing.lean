import Mappf.FileSource.Source

/-! # A body and its validators

The body that is merged into a `304` and the validator that was sent are picked independently: the body is that of the
request if it brings one, the ETag and the date are those of the request or of the cache entry, whichever comes first.
Another renderer can replace the entry between the two. As long as the validator that is sent belongs to the response
whose body would be merged, every entry and every body that is returned goes with its validators. -/
namespace Mappf.FileSource
open List Option

/-! ## Steady attempts -/

def ConditionalValidator.isOf (etag : Option String) (modified : Option ℕ) : ConditionalValidator → Bool
  | .etag own => etag = some own
  | .modified own => modified = some own

/-- The validator that will be sent belongs to the response whose body would be merged. -/
def ownValidator (request : ResourceRequest) (cached : Option Response) : Bool :=
  match conditionalValidator (priorResponseWithCache request cached {}) with
  | none => true
  | some validator =>
    if request.priorData.isSome then validator.isOf request.priorEtag request.priorModified
    else
      match cached with
      | none => true
      | some cached => cached.data.isNone || validator.isOf cached.etag cached.modified

def Session.steady (s : Session) : Action → Bool
  | .move i _ =>
    match s.tasks[i]? with
    | some ⟨request, .admitted _ _⟩ => ownValidator request ((s.consulted request).map CachedResource.response)
    | _ => true
  | _ => true

/-! ## Pairs -/

namespace Names

variable {names : Names} {key : ResourceRequestKey} {content : Content} {etag : Option String} {modified : Option ℕ}
  {representation : Representation}

theorem Pairs.nothing : names.Pairs key content none none := fun _ hnone => by cases hnone

/-- A pair is named by its ETag, and by its date when it has no ETag. -/
theorem Pairs.validator (h : names.Pairs key content etag modified) {validator : ConditionalValidator}
    (hown : validator.isOf etag modified = true) (hdate : ∀ date, validator = .modified date → etag = none) :
    names.validator key validator = content := by
  cases validator with
  | etag own =>
    have hetag : etag = some own := of_decide_eq_true hown
    subst hetag
    exact h
  | modified own =>
    have hetag := hdate own rfl
    have hmod : modified = some own := of_decide_eq_true hown
    subst hetag
    exact h own hmod

theorem sends_etag (h : names.sends key representation = true) {etag : String}
    (hetag : representation.etag = some etag) : names.named key etag = representation.content := by
  unfold sends at h
  rw [Bool.and_eq_true, hetag] at h
  exact of_decide_eq_true h.1

theorem sends_modified (h : names.sends key representation = true) {date : ℕ}
    (hdate : representation.lastModified = some date) : names.dated key date = representation.content := by
  unfold sends at h
  rw [Bool.and_eq_true, hdate] at h
  exact of_decide_eq_true h.2

end Names

structure Restates (names : Names) (key : ResourceRequestKey) (content : Content) (headers : Headers) : Prop where
  etag : ∀ etag, headers.etag = some etag → names.named key etag = content
  modified : ∀ date, headers.lastModified = some date → names.dated key date = content

variable {names : Names} {cache : ResourceCache} {key : ResourceRequestKey} {req : ResourceRequest}
  {freshness : CachedFreshness}

theorem Restates.pairs {content : Content} {headers : Headers}
    (h : Restates names key content headers) : names.Pairs key content headers.etag headers.lastModified := by
  cases hetag : headers.etag with
  | some etag => exact h.etag etag hetag
  | none => exact fun date hdate => h.modified date hdate

section Merge

variable {content : Content} {headers : Headers} {prior : PriorResponse}

/-- The validators of a `304` name the representation that the validator sent names. -/
theorem merged_pairs (hrestates : Restates names key content headers) {validator : ConditionalValidator}
    (hsent : conditionalValidator prior = some validator) (hnames : names.validator key validator = content) :
    names.Pairs key content (headers.etag.orElse (fun _ => prior.etag))
      (headers.lastModified.orElse (fun _ => prior.modified)) := by
  cases hetag : headers.etag with
  | some etag => exact hrestates.etag etag hetag
  | none =>
    unfold conditionalValidator at hsent
    cases hprior : prior.etag with
    | some etag =>
      rw [hprior] at hsent
      cases hsent
      exact hnames
    | none =>
      rw [hprior] at hsent
      intro date hdate
      cases hmod : headers.lastModified with
      | some modified =>
        rw [hmod] at hdate
        cases hdate
        exact hrestates.modified date hmod
      | none =>
        rw [hmod] at hdate
        change prior.modified = some date at hdate
        rw [hdate] at hsent
        cases hsent
        exact hnames

end Merge

/-! ## Attempts -/

structure FetchAttempt.Sound (names : Names) (key : ResourceRequestKey) (attempt : FetchAttempt) : Prop where
  response : attempt.response.data.isSome → attempt.response.Paired names key
  stored : ∀ freshness, attempt.cachePolicy = .store freshness →
    isCacheableResponse (attempt.cacheResponse.getD attempt.response) = true →
      (attempt.cacheResponse.getD attempt.response).Paired names key

def PriorResponse.Sound (names : Names) (key : ResourceRequestKey) (prior : PriorResponse) : Prop :=
  ∀ body validator, prior.body = some body → conditionalValidator prior = some validator →
    names.validator key validator = some body

section Attempts

variable {headers : Headers} {prior : PriorResponse} {now : ℕ}
  {attempt : FetchAttempt} {response : Response} {status : ℕ}

theorem FetchAttempt.Sound.bodyless
    (hdata : attempt.response.data = none) (hpol : attempt.cachePolicy = .unchanged) : attempt.Sound names key where
  response := by
    intro hsome
    simp [hdata] at hsome
  stored := by
    simp [hpol]

theorem FetchAttempt.Sound.paired {policy : CachePolicy}
    (h : response.Paired names key) : (FetchAttempt.doneWithCache response policy).Sound names key :=
  ⟨fun _ => h, fun _ _ _ => h⟩

theorem withCacheMetadata_paired (hetag : response.etag = none) (hmod : response.modified = none)
    (h : names.Pairs key response.data headers.etag headers.lastModified) :
    (withCacheMetadata response headers {} now).Paired names key := by
  have horElse : ∀ {α : Type} (value : Option α), (value.orElse (fun _ => none)).orElse (fun _ => none) = value := by
    intro α value
    cases value <;> rfl
  unfold Response.Paired withCacheMetadata
  rw [hetag, hmod, horElse, horElse]
  exact h

theorem fullAttempt_sound {body : Bytes} (hstat : status = 200 ∨ status = 206)
    (h : Restates names req.key (some body) headers) :
    (attemptFor req status headers body prior now).Sound names req.key := by
  have hheaderOnly : headerOnlyAttempt req status headers prior now = none := by
    unfold headerOnlyAttempt
    rw [if_neg (by omega), if_pos hstat]
  unfold attemptFor
  rw [hheaderOnly]
  apply FetchAttempt.Sound.paired
  unfold responseFromHttp
  rw [if_pos hstat]
  exact withCacheMetadata_paired rfl rfl h.pairs

theorem emptyAttempt_sound (h : Restates names req.key none headers) :
    (attemptFor req 204 headers [] prior now).Sound names req.key := by
  have hresp : (responseFromHttp 204 headers [] req.key.kind {} now).Paired names req.key :=
    withCacheMetadata_paired rfl rfl h.pairs
  apply FetchAttempt.Sound.paired
  unfold emptyRepresentation
  split <;> exact hresp

theorem refusedAttempt_sound (hfull : ¬ (status = 200 ∨ status = 206)) (hempty : status ≠ 204)
    (hunmod : status ≠ 304) : (attemptFor req status headers [] prior now).Sound names req.key := by
  have hatt : attemptFor req status headers [] prior now =
      noRepresentationAttempt req.key.kind status headers prior now := by
    unfold attemptFor headerOnlyAttempt
    rw [if_neg hunmod, if_neg hfull, if_neg hempty]
  rw [hatt]
  refine .bodyless ?_ rfl
  unfold noRepresentationAttempt responseFromHttp
  split_ifs <;> rfl

theorem notModifiedAttempt_sound {content : Content} (h : Restates names req.key content headers)
    (hprior : prior.Sound names req.key) {validator : ConditionalValidator}
    (hsent : conditionalValidator prior = some validator) (hnames : names.validator req.key validator = content) :
    (attemptFor req 304 headers [] prior now).Sound names req.key := by
  have hatt : attemptFor req 304 headers [] prior now =
      notModifiedAttempt req.key.kind req.storagePolicy headers prior now := rfl
  rw [hatt]
  unfold notModifiedAttempt
  dsimp only
  cases hbody : prior.body with
  | none =>
    have hnone : materializeNotModified (responseFromHttp 304 headers [] req.key.kind prior now) prior = none := by
      unfold materializeNotModified
      rw [hbody]
      rfl
    rw [hnone]
    dsimp only
    split <;> exact .bodyless rfl rfl
  | some body =>
    have hsome : materializeNotModified (responseFromHttp 304 headers [] req.key.kind prior now) prior =
        some { responseFromHttp 304 headers [] req.key.kind prior now with
          notModified := false, data := some body } := by
      unfold materializeNotModified
      rw [hbody]
      rfl
    have hcont : content = some body := hnames.symm.trans (hprior body validator hbody hsent)
    have horElse : ∀ {α : Type} (value : Option α), value.orElse (fun _ => none) = value := by
      intro α value
      cases value <;> rfl
    have hpaired : Response.Paired names req.key
        { responseFromHttp 304 headers [] req.key.kind prior now with notModified := false, data := some body } := by
      have hpairs := merged_pairs h hsent hnames
      rw [hcont] at hpairs
      change names.Pairs req.key (some body) ((headers.etag.orElse (fun _ => prior.etag)).orElse (fun _ => none))
        ((headers.lastModified.orElse (fun _ => prior.modified)).orElse (fun _ => none))
      rw [horElse, horElse]
      exact hpairs
    rw [hsome]
    dsimp only
    split
    · exact ⟨fun _ => hpaired, fun _ _ _ => hpaired⟩
    · exact ⟨(fun hdata => by cases hdata), fun _ _ _ => hpaired⟩

theorem Origin.attempt_sound (origin : Origin) {cur : Representation}
    (hcur : origin.sends req.key cur = true) (hprior : prior.Sound origin.toNames req.key)
    {reply : Reply} (h : origin.attempt cur req prior now reply = some attempt) :
    attempt.Sound origin.toNames req.key := by
  cases reply with
  | transport message | timeout | oversized message =>
    cases h
    exact .bodyless rfl rfl
  | refusal status headers =>
    dsimp only [Origin.attempt] at h
    split at h
    · cases h
    · rename_i hstat
      cases h
      exact refusedAttempt_sound (by omega) (by omega) (by omega)
  | answer headers partialContent restatesEtag restatesModified =>
    dsimp only [Origin.attempt] at h
    split at h
    · rename_i hconf
      obtain ⟨validator, hsent, hconfirmed⟩ := (any_eq_true _ _).mp hconf
      cases h
      refine notModifiedAttempt_sound ⟨?_, ?_⟩ hprior hsent (origin.confirms_names req.key validator cur hcur hconfirmed)
      · intro etag hetag
        split at hetag
        · exact Names.sends_etag hcur hetag
        · cases hetag
      · intro date hdate
        dsimp only at hdate
        split at hdate
        · exact Names.sends_modified hcur hdate
        · cases hdate
    · cases hcont : cur.content with
      | some body =>
        rw [hcont] at h
        cases h
        refine fullAttempt_sound (by split <;> simp) ⟨?_, ?_⟩
        · exact fun etag hetag => (Names.sends_etag hcur hetag).trans hcont
        · exact fun date hdate => (Names.sends_modified hcur hdate).trans hcont
      | none =>
        rw [hcont] at h
        cases h
        refine emptyAttempt_sound ⟨?_, ?_⟩
        · exact fun etag hetag => (Names.sends_etag hcur hetag).trans hcont
        · exact fun date hdate => (Names.sends_modified hcur hdate).trans hcont

end Attempts

/-! ## Requests -/

def ResourceRequest.Sound (names : Names) (request : ResourceRequest) : Prop :=
  ∃ content, (∀ body, request.priorData = some body → content = some body) ∧
    names.Pairs request.key content request.priorEtag request.priorModified

theorem etag_of_modified {prior : PriorResponse} {date : ℕ}
    (h : conditionalValidator prior = some (.modified date)) : prior.etag = none := by
  unfold conditionalValidator at h
  cases hetag : prior.etag with
  | none => rfl
  | some etag =>
    simp [hetag] at h

theorem prior_sound {cached : Option Response} (hreq : req.Sound names)
    (hcached : ∀ response, cached = some response → response.Paired names req.key) (hown : ownValidator req cached = true) :
    (priorResponseWithCache req cached freshness).Sound names req.key := by
  intro body validator hbody hsent
  have hdate : ∀ date, validator = .modified date →
      req.priorEtag.orElse (fun _ => cached.bind Response.etag) = none := by
    rintro date rfl
    exact etag_of_modified hsent
  have hsent' : conditionalValidator (priorResponseWithCache req cached {}) = some validator := hsent
  unfold ownValidator at hown
  rw [hsent'] at hown
  dsimp only at hown
  change req.priorData.orElse (fun _ => cached.bind Response.data) = some body at hbody
  cases hdata : req.priorData with
  | some data =>
    rw [hdata] at hbody hown
    cases hbody
    obtain ⟨content, hcont, hpairs⟩ := hreq
    rw [← hcont body hdata]
    refine hpairs.validator hown (fun date hval => ?_)
    have hnone := hdate date hval
    cases hetag : req.priorEtag with
    | none => rfl
    | some etag =>
      simp [hetag] at hnone
  | none =>
    rw [hdata] at hbody hown
    obtain ⟨response, rfl, hresp⟩ := bind_eq_some_iff.mp hbody
    dsimp only at hown
    rw [hresp] at hown
    have hpaired := hcached response rfl
    unfold Response.Paired at hpaired
    rw [hresp] at hpaired
    refine hpaired.validator hown (fun date hval => ?_)
    have hnone := hdate date hval
    cases hetag : req.priorEtag with
    | none =>
      rw [hetag] at hnone
      exact hnone
    | some etag =>
      simp [hetag] at hnone

def Phase.Sound (names : Names) (key : ResourceRequestKey) : Phase → Prop
  | .sent _ _ prior => prior.Sound names key
  | .finishing _ _ attempt => attempt.Sound names key
  | .completing _ response | .returned response => response.data.isSome → response.Paired names key
  | .racing | .parked _ _ | .coalescing | .waiting _ | .admitted _ _ | .dropped => True

def Phase.flight : Phase → Option ℕ
  | .waiting flight | .admitted flight _ | .sent flight _ _ | .finishing flight _ _ | .completing flight _ => some flight
  | .racing | .parked _ _ | .coalescing | .returned _ | .dropped => none

/-- Every flight has one key, and what it came to goes with its validators. -/
structure Flown (names : Names) (flights : Flights) (tasks : List Task) (owners : List FlightKey) : Prop where
  length : owners.length = flights.states.length
  entries : ∀ key flight, flights.entries.lookup key = some flight → owners[flight]? = some key
  tasks : ∀ task ∈ tasks, ∀ flight, task.phase.flight = some flight →
    owners[flight]? = some (FlightKey.fromRequest task.request)
  complete : ∀ (flight : ℕ) (response : Response), flights.states[flight]? = some (FlightState.complete response) →
    response.data.isSome → ∀ key, owners[flight]? = some key → response.Paired names key.resource

structure Sound (names : Names) (s : Session) : Prop where
  current : ∀ key, names.sends key (s.current key) = true
  entries : ∀ key entry, s.cache.lookup key = some entry → entry.response.Paired names key
  answers : ∀ answer ∈ s.answers, answer.2.Paired names answer.1
  requests : ∀ task ∈ s.tasks, task.request.Sound names
  phases : ∀ task ∈ s.tasks, task.phase.Sound names task.request.key
  flown : ∃ owners, Flown names s.flights s.tasks owners

namespace Flown

variable {flights : Flights} {tasks tasks' : List Task} {owners : List FlightKey} {i flight : ℕ} {phase phase' : Phase}

section

variable (h : Flown names flights tasks owners)
include h

theorem change (htasks : ∀ task ∈ tasks', task ∈ tasks ∨ ∀ flight, task.phase.flight = some flight →
      owners[flight]? = some (FlightKey.fromRequest task.request)) : Flown names flights tasks' owners where
  length := h.length
  entries := h.entries
  tasks := by
    intro task htask flight hfly
    obtain hold | hnew := htasks task htask
    · exact h.tasks task hold flight hfly
    · exact hnew flight hfly
  complete := h.complete

theorem set (htask : tasks[i]? = some ⟨req, phase⟩)
    (hfly : ∀ flight, phase'.flight = some flight → phase.flight = some flight) :
    Flown names flights (tasks.set i ⟨req, phase'⟩) owners := by
  refine h.change (fun task hmem => ?_)
  obtain hold | rfl := mem_or_eq_of_mem_set hmem
  · exact .inl hold
  · exact .inr (fun flight hsome => h.tasks _ (mem_of_getElem? htask) flight (hfly flight hsome))

theorem join (i : ℕ) (req : ResourceRequest) (phase' : Phase)
    (hphase : phase'.flight = some (flights.join (.fromRequest req)).2.1) :
    ∃ owners', Flown names (flights.join (.fromRequest req)).1 (tasks.set i ⟨req, phase'⟩) owners' := by
  unfold Flights.join at hphase ⊢
  cases hentry : flights.entries.lookup (.fromRequest req) with
  | some flight =>
    rw [hentry] at hphase
    refine ⟨owners, h.change (fun task hmem => ?_)⟩
    obtain hold | rfl := mem_or_eq_of_mem_set hmem
    · exact .inl hold
    · refine .inr (fun flight' hfly => ?_)
      rw [hphase] at hfly
      cases hfly
      exact h.entries _ flight hentry
  | none =>
    rw [hentry] at hphase
    have hlast : (owners ++ [FlightKey.fromRequest req])[flights.states.length]? = some (FlightKey.fromRequest req) := by
      rw [← h.length]
      exact getElem?_concat_length
    have hkept : ∀ (flight : ℕ) (key : FlightKey), owners[flight]? = some key →
        (owners ++ [FlightKey.fromRequest req])[flight]? = some key := by
      intro flight key hkey
      rw [List.getElem?_append_left (List.getElem?_eq_some_iff.mp hkey).1]
      exact hkey
    refine ⟨owners ++ [.fromRequest req], ?_, ?_, ?_, ?_⟩
    · rw [length_append, length_append, h.length]
      rfl
    · intro key flight hlook
      rw [HashMap.lookup_insert_eq] at hlook
      split_ifs at hlook with hkey
      · cases hlook
        rw [hkey]
        exact hlast
      · exact hkept flight key (h.entries key flight hlook)
    · intro task hmem flight hfly
      obtain hold | rfl := mem_or_eq_of_mem_set hmem
      · exact hkept flight _ (h.tasks task hold flight hfly)
      · rw [hphase] at hfly
        cases hfly
        exact hlast
    · intro flight response hstate hdata key hkey
      rw [getElem?_append] at hstate
      split_ifs at hstate with hlt
      · rw [getElem?_append_left (by rw [h.length]; exact hlt)] at hkey
        exact h.complete flight response hstate hdata key hkey
      · -- a new flight has not come to anything
        have hpend : FlightState.pending = FlightState.complete response :=
          mem_singleton.mp (mem_of_getElem? hstate) |>.symm
        cases hpend

theorem finish (htask : tasks[i]? = some ⟨req, phase⟩)
    (hleads : phase.flight = some flight) (hphase : phase'.flight = none) {state : FlightState}
    (hstate : ∀ response, state = .complete response → response.data.isSome → response.Paired names req.key) :
    Flown names (flights.finish (.fromRequest req) flight state) (tasks.set i ⟨req, phase'⟩) owners := by
  have howner := h.tasks _ (mem_of_getElem? htask) flight hleads
  refine ⟨?_, ?_, ?_, ?_⟩
  · unfold Flights.finish
    rw [length_set]
    exact h.length
  · intro key flight' hlook
    unfold Flights.finish at hlook
    split at hlook
    · rw [HashMap.lookup_erase_eq] at hlook
      split_ifs at hlook
      exact h.entries key flight' hlook
    · exact h.entries key flight' hlook
  · intro task hmem flight' hfly
    obtain hold | rfl := mem_or_eq_of_mem_set hmem
    · exact h.tasks task hold flight' hfly
    · simp [hphase] at hfly
  · intro flight' response hcompl hdata key hkey
    unfold Flights.finish at hcompl
    rw [getElem?_set] at hcompl
    split_ifs at hcompl with hsame hlt
    · subst hsame
      cases hcompl
      rw [howner] at hkey
      cases hkey
      exact hstate response rfl hdata
    · exact h.complete flight' response hcompl hdata key hkey

end

end Flown

/-! ## Steps -/

def ResourceCache.Paired (names : Names) (cache : ResourceCache) : Prop :=
  ∀ key entry, cache.lookup key = some entry → entry.response.Paired names key

theorem store_paired {response : Response}
    (h : cache.Paired names) (hresp : isCacheableResponse response = true → response.Paired names key) :
    (ResourceCache.store cache key response freshness).Paired names := by
  intro key' entry hentry
  unfold ResourceCache.store at hentry
  split_ifs at hentry with hcacheable
  · rw [HashMap.lookup_insert_eq] at hentry
    split_ifs at hentry with hkey
    · cases hentry
      rw [hkey]
      exact hresp hcacheable
    · exact h key' entry hentry
  · exact h key' entry hentry

theorem erase_paired (key : ResourceRequestKey) (h : cache.Paired names) :
    ResourceCache.Paired names (cache.erase key) := by
  intro key' entry hentry
  rw [HashMap.lookup_erase_eq] at hentry
  split_ifs at hentry
  exact h key' entry hentry

theorem finishFetch_paired {attempt : FetchAttempt} (h : cache.Paired names)
    (hatt : attempt.Sound names key) : (finishFetch cache key attempt).Paired names := by
  unfold finishFetch
  split
  · rename_i freshness hpol
    exact store_paired h (hatt.stored freshness hpol)
  · exact erase_paired key h
  · exact h

theorem databaseAnswer_paired {now : ℕ} (h : cache.Paired names) :
    (databaseAnswer cache req now).Paired names req.key := by
  have hmiss : cacheMiss.Paired names req.key := Names.Pairs.nothing
  unfold databaseAnswer
  split
  · exact hmiss
  · unfold ResourceCache.classify
    cases hentry : cache.lookup req.key with
    | none => exact hmiss
    | some entry =>
      have hpaired := h req.key entry hentry
      dsimp only
      split_ifs <;> exact hpaired

theorem following_sound {ans : Response} {withheld : Bool}
    (h : ans.Paired names req.key) : (req.following ans withheld).Sound names := by
  refine ⟨ans.data, fun body hbody => ?_, h⟩
  unfold ResourceRequest.following at hbody
  split at hbody
  · exact hbody
  · cases hbody

namespace Sound

variable {s : Session} {i : ℕ} {phase : Phase} {effect : Effect} {origin : Origin}

theorem take (h : Sound names s) (htask : s.tasks[i]? = some ⟨req, phase⟩) (hents : effect.cache.Paired names)
    (hphase : effect.phase.Sound names req.key)
    (hflown : ∃ owners, Flown names effect.flights (s.tasks.set i ⟨req, effect.phase⟩) owners) :
    Sound names (s.take i req effect) where
  current := h.current
  entries := hents
  answers := h.answers
  requests := by
    intro task hmem
    obtain hold | rfl := mem_or_eq_of_mem_set hmem
    · exact h.requests task hold
    · exact h.requests ⟨req, phase⟩ (mem_of_getElem? htask)
  phases := by
    intro task hmem
    obtain hold | rfl := mem_or_eq_of_mem_set hmem
    · exact h.phases task hold
    · exact hphase
  flown := hflown

theorem stay (h : Sound names s) (htask : s.tasks[i]? = some ⟨req, phase⟩) {phase' : Phase}
    (hphase : phase'.Sound names req.key) (hfly : ∀ flight, phase'.flight = some flight → phase.flight = some flight) :
    Sound names (s.take i req ⟨s.cache, s.flights, phase'⟩) := by
  obtain ⟨owners, hflown⟩ := h.flown
  exact h.take htask h.entries hphase ⟨owners, hflown.set htask hfly⟩

theorem race (h : Sound names s) (req : ResourceRequest) :
    (s.race req).Sound names req.key ∧ (s.race req).flight = none := by
  unfold Session.race
  split
  · exact ⟨trivial, rfl⟩
  · rename_i cached hcached
    split
    · exact ⟨trivial, rfl⟩
    · refine ⟨fun _ => ?_, rfl⟩
      split at hcached
      · exact h.entries req.key cached (eq_some_of_filter_eq_some hcached)
      · cases hcached

theorem taken (h : Sound origin.toNames s) {input : Input} (htask : s.tasks[i]? = some ⟨req, phase⟩)
    (hsteady : ∀ flight attempts, phase = .admitted flight attempts →
      ownValidator req ((s.consulted req).map CachedResource.response) = true)
    (hnext : s.next origin req input phase = some effect) : Sound origin.toNames (s.take i req effect) := by
  have hmem := mem_of_getElem? htask
  obtain ⟨owners, hflown⟩ := h.flown
  cases phase with
  | racing =>
    cases hnext
    obtain ⟨hsound, hfly⟩ := h.race req
    refine h.stay htask hsound (fun flight hsome => ?_)
    rw [hfly] at hsome
    cases hsome
  | parked deferral since =>
    dsimp only [Session.next] at hnext
    split at hnext
    · cases hnext
    · split at hnext
      · rename_i response hresp
        cases hnext
        refine h.stay htask (fun hdata => ?_) (fun _ hnone => by cases hnone)
        unfold completeDeferredRefresh at hresp
        split at hresp
        · cases hresp
        · cases hresp
          cases hdata
      · cases hnext
        exact h.stay htask trivial (fun _ hnone => by cases hnone)
  | coalescing =>
    dsimp only [Session.next] at hnext
    split at hnext
    · rename_i flights flight hjoin
      cases hnext
      have hjoined := hflown.join i req (.admitted flight 0) (by rw [hjoin]; rfl)
      rw [hjoin] at hjoined
      exact h.take htask h.entries trivial hjoined
    · rename_i flights flight hjoin
      cases hnext
      have hjoined := hflown.join i req (.waiting flight) (by rw [hjoin]; rfl)
      rw [hjoin] at hjoined
      exact h.take htask h.entries trivial hjoined
  | waiting flight =>
    dsimp only [Session.next] at hnext
    split at hnext
    · rename_i response hstate
      cases hnext
      refine h.stay htask (fun hdata => ?_) (fun _ hnone => by cases hnone)
      exact hflown.complete flight response hstate hdata _ (hflown.tasks _ hmem flight rfl)
    · cases hnext
      exact h.stay htask trivial (fun _ hnone => by cases hnone)
    · cases hnext
    · cases hnext
  | admitted flight attempts =>
    cases hnext
    refine h.stay htask ?_ (fun _ hsome => hsome)
    refine prior_sound (h.requests _ hmem) (fun response hresp => ?_) (hsteady flight attempts rfl)
    obtain ⟨entry, hentry, rfl⟩ := map_eq_some_iff.mp hresp
    unfold Session.consulted at hentry
    split at hentry
    · exact h.entries req.key entry hentry
    · cases hentry
  | sent flight attempts prior =>
    dsimp only [Session.next] at hnext
    split at hnext
    · cases hnext
    · rename_i attempt hatt
      cases hnext
      obtain ⟨reply, -, hreply⟩ := bind_eq_some_iff.mp hatt
      exact h.stay htask (origin.attempt_sound (h.current req.key) (h.phases _ hmem) hreply) (fun _ hsome => hsome)
  | finishing flight attempts attempt =>
    have hatt : attempt.Sound origin.toNames req.key := h.phases _ hmem
    dsimp only [Session.next] at hnext
    split at hnext
    · cases hnext
      exact h.stay htask trivial (fun _ hsome => hsome)
    · cases hnext
      exact h.take htask (finishFetch_paired h.entries hatt) hatt.response ⟨owners, hflown.set htask (fun _ hsome => hsome)⟩
  | completing flight response =>
    have hresp : response.data.isSome → response.Paired origin.toNames req.key := h.phases _ hmem
    cases hnext
    refine h.take htask h.entries hresp ⟨owners, hflown.finish htask rfl rfl (fun response' hsame => ?_)⟩
    cases hsame
    exact hresp
  | returned response | dropped => cases hnext

theorem dropped (h : Sound names s) (htask : s.tasks[i]? = some ⟨req, phase⟩) {flight : ℕ}
    (hleads : phase.flight = some flight) :
    Sound names (s.take i req ⟨s.cache, s.flights.finish (.fromRequest req) flight .aborted, .dropped⟩) := by
  obtain ⟨owners, hflown⟩ := h.flown
  exact h.take htask h.entries trivial ⟨owners, hflown.finish htask hleads rfl (fun _ hsame => by cases hsame)⟩

theorem composed (h : Sound names s) {ans : Option (ℕ × Bool)} {req' : ResourceRequest}
    (hreq : s.composed req ans = some req') : req'.Sound names := by
  unfold Session.composed at hreq
  split at hreq
  · cases hreq
    exact ⟨none, (fun _ hbody => by cases hbody), Names.Pairs.nothing⟩
  · split at hreq
    · rename_i key response hans
      split_ifs at hreq with hkey
      cases hreq
      apply following_sound
      have hpaired := h.answers _ (mem_of_getElem? hans)
      rw [← hkey]
      exact hpaired
    · cases hreq

theorem step (h : Sound origin.toNames s) {action : Action} (hsteady : s.steady action = true) :
    Sound origin.toNames (s.step origin action) := by
  cases action with
  | database req =>
    refine { h with answers := fun ans hans => ?_ }
    obtain hold | hnew := mem_append.mp hans
    · exact h.answers ans hold
    · rw [mem_singleton.mp hnew]
      exact databaseAnswer_paired h.entries
  | network req ans =>
    dsimp only [Session.step]
    split
    · exact h
    · rename_i req' hreq
      obtain ⟨owners, hflown⟩ := h.flown
      refine ⟨h.current, h.entries, h.answers, ?_, ?_, owners, ?_⟩
      · intro task hmem
        obtain hold | hnew := mem_append.mp hmem
        · exact h.requests task hold
        · rw [mem_singleton.mp hnew]
          exact h.composed hreq
      · intro task hmem
        obtain hold | hnew := mem_append.mp hmem
        · exact h.phases task hold
        · rw [mem_singleton.mp hnew]
          trivial
      · refine hflown.change (fun task hmem => ?_)
        obtain hold | hnew := mem_append.mp hmem
        · exact .inl hold
        · rw [mem_singleton.mp hnew]
          exact .inr (fun _ hnone => by cases hnone)
  | move i input =>
    dsimp only [Session.step]
    dsimp only [Session.steady] at hsteady
    split
    · exact h
    · rename_i task htask
      split
      · exact h
      · rename_i effect hnext
        refine h.taken htask (fun flight attempts hphase => ?_) hnext
        obtain ⟨req, phase⟩ := task
        subst hphase
        rw [htask] at hsteady
        exact hsteady
  | drop i =>
    dsimp only [Session.step]
    split
    · exact h
    · rename_i task htask
      obtain ⟨req, phase⟩ := task
      cases phase with
      | racing | parked deferral since | coalescing | waiting flight =>
        exact h.stay htask trivial (fun _ hnone => by cases hnone)
      | admitted flight attempts | sent flight attempts prior => exact h.dropped htask rfl
      | _ => exact h
  | publish key representation =>
    dsimp only [Session.step]
    split
    · rename_i hsends
      refine { h with current := fun key' => ?_ }
      by_cases hkey : key' = key
      · subst hkey
        dsimp only
        rw [Function.update_self]
        exact hsends
      · dsimp only
        rw [Function.update_of_ne hkey]
        exact h.current key'
    · exact h
  | evict key => exact { h with entries := erase_paired key h.entries }
  | tick elapsed => exact { h with }

theorem init : Sound names {} where
  current := fun _ => rfl
  entries := fun _ _ hentry => by cases hentry
  answers := fun _ hans => by cases hans
  requests := fun _ htask => by cases htask
  phases := fun _ htask => by cases htask
  flown := ⟨[], rfl, (fun _ _ hentry => by cases hentry), (fun _ htask => by cases htask), (fun _ _ hstate => by cases hstate)⟩

theorem paired (h : Sound names s) : s.Paired names := by
  refine ⟨h.entries, fun task htask response hphase hdata => ?_⟩
  have hsound := h.phases task htask
  rw [hphase] at hsound
  exact hsound hdata

end Sound

/-! ## Steady runs -/

def steadySessions (origin : Origin) : Machine Session where
  init := {}
  step := fun s s' => ∃ action, s.steady action = true ∧ s' = s.step origin action

theorem validators_paired (origin : Origin) (s : Session) (h : Reachable (steadySessions origin) s) :
    s.Paired origin.toNames := by
  have hsound : Sound origin.toNames s := h.invariant (I := Sound origin.toNames) .init (by
    rintro s _ hs ⟨action, hsteady, rfl⟩
    exact hs.step hsteady)
  exact hsound.paired

namespace Example

def glyphs : ResourceRequest := { key := ⟨"https://origin.test/glyphs/0-255.pbf", .glyphs, none, none⟩ }

/-- An origin that has had two representations: of the first only the date is sent in one run and the ETag in the
other. -/
def twoVersions : Origin where
  named := fun _ etag => if etag = "v1" then some [1] else if etag = "v2" then some [2] else none
  dated := fun _ date => if date = 1 then some [1] else if date = 2 then some [2] else none
  confirms := fun _ validator representation =>
    match validator with
    | .etag etag => representation.etag = some etag
    | .modified date => representation.lastModified = some date
  confirms_names := by
    intro key validator representation hsends hconfirms
    cases validator with
    | etag etag => exact Names.sends_etag hsends (of_decide_eq_true hconfirms)
    | modified date => exact Names.sends_modified hsends (of_decide_eq_true hconfirms)

def dated : Representation := ⟨some [1], none, some 1⟩
def first : Representation := ⟨some [1], some "v1", none⟩
def later : Representation := ⟨some [2], some "v2", some 2⟩

def noCacheHeaders : Headers := { cacheControl := some { noCache := true } }
def minuteHeaders : Headers := { cacheControl := some { maxAge := some 60 } }

def fetch (task : ℕ) (headers : Headers) : List Action :=
  [.move task {}, .move task {}, .move task {},
    .move task { reply := some (.answer headers false true true) }, .move task {}, .move task {}]

def sourceRun (actions : List Action) : Session := actions.foldl (Session.step twoVersions) {}

/-- A body of the first version is withheld; another renderer brings the second version into the cache; its ETag is
then sent, confirmed, and merged with the first body. -/
def withheldBody : List Action :=
  .publish glyphs.key dated :: .network glyphs none :: fetch 0 noCacheHeaders ++
    [.database glyphs, .database glyphs, .publish glyphs.key later, .network glyphs (some (1, true))] ++
      fetch 1 noCacheHeaders ++ [.network glyphs (some (0, true))] ++ fetch 2 noCacheHeaders

/-- The body of the first version was delivered; another renderer brings the second version; the origin goes back, and
confirms the first ETag for an entry that holds the second body. -/
def deliveredBody : List Action :=
  .publish glyphs.key first :: .network glyphs none :: fetch 0 minuteHeaders ++
    [.database glyphs, .tick (60 * second), .database glyphs, .publish glyphs.key later,
      .network glyphs (some (1, true))] ++ fetch 1 noCacheHeaders ++
        [.publish glyphs.key first, .network { glyphs with priority := .low } (some (0, false))] ++ fetch 2 noCacheHeaders

theorem not_paired_of_entry {s : Session} {body : Bytes} {etag : String}
    (hentry : (s.cache.lookup glyphs.key).map (fun entry => (entry.response.data, entry.response.etag)) =
      some (some body, some etag)) (hnamed : twoVersions.named glyphs.key etag ≠ some body) :
    ¬ s.Paired twoVersions.toNames := by
  intro h
  obtain ⟨entry, hlook, hpair⟩ := map_eq_some_iff.mp hentry
  obtain ⟨hdata, hetag⟩ := Prod.mk.inj hpair
  have hpaired := h.1 glyphs.key entry hlook
  unfold Response.Paired at hpaired
  rw [hdata, hetag] at hpaired
  exact hnamed hpaired

theorem body_under_other_validator :
    (Reachable (sessions twoVersions) (sourceRun withheldBody) ∧
      ¬ (sourceRun withheldBody).Paired twoVersions.toNames) ∧
    (Reachable (sessions twoVersions) (sourceRun deliveredBody) ∧
      ¬ (sourceRun deliveredBody).Paired twoVersions.toNames) := by
  have hwithheld : ((sourceRun withheldBody).cache.lookup glyphs.key).map
      (fun entry => (entry.response.data, entry.response.etag)) = some (some [1], some "v2") := by decide +kernel
  have hdelivered : ((sourceRun deliveredBody).cache.lookup glyphs.key).map
      (fun entry => (entry.response.data, entry.response.etag)) = some (some [2], some "v1") := by decide +kernel
  exact ⟨⟨reachable_foldl (Session.step twoVersions) {} _, not_paired_of_entry hwithheld (by decide)⟩,
    ⟨reachable_foldl (Session.step twoVersions) {} _, not_paired_of_entry hdelivered (by decide)⟩⟩

/-- The entry is confirmed while it is withheld, and again for a renderer that found nothing. -/
def confirmedTwice : List Action :=
  .publish glyphs.key later :: .network glyphs none :: fetch 0 noCacheHeaders ++
    [.database glyphs, .network glyphs (some (0, true))] ++ fetch 1 noCacheHeaders ++
      [.network glyphs none] ++ fetch 2 noCacheHeaders

theorem confirmed_twice_paired :
    ((sourceRun confirmedTwice).cache.lookup glyphs.key).map
        (fun entry => (entry.response.data, entry.response.etag)) = some (some [2], some "v2") ∧
      (sourceRun confirmedTwice).Paired twoVersions.toNames := by
  have hstep : ∀ (s : Session) (action : Action), s.steady action = true →
      (steadySessions twoVersions).step s (s.step twoVersions action) :=
    fun _ action h => ⟨action, h, rfl⟩
  have hrun : Reachable (steadySessions twoVersions) (sourceRun confirmedTwice) :=
    Reachable.init.foldl_checked Session.steady hstep (by decide +kernel)
  exact ⟨by decide +kernel, validators_paired twoVersions _ hrun⟩

end Example

end Mappf.FileSource
