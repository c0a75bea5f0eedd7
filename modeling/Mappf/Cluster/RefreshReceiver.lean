import Mappf.Cluster.RefreshHint
import Mappf.Styles.Catalog
import Mappf.Ishikari.ProviderCache

/-! # The receivers of refresh hints

`refresh_style` of Biei and `style_refresh_handler` of Ishikari with the gossip watcher of the same process, cut where
another thread can come between: after the admission of a hint, after its revalidation, and at the await of its
publication, where the handler can be dropped. Deliveries are named by their place among the tasks. What the two
services do differently is a parameter. The node is a member of a cluster, so that there is a ring to publish in.

The session records, beside what the program keeps, which hints had their revalidation requested, which were published
and which were received by gossip. -/
namespace Mappf.Cluster

/-! ## Two services -/

structure Service (σ : Type) where
  configured : σ → String → Bool
  revalidate : σ → StyleRefreshHint → σ
  json : JsonWriter
  invalid : String
  notConfigured : String
  publishFailed : String
  accepted : String

/-- The catalog, and the styles whose rendered outputs were invalidated. -/
structure BieiStyles where
  catalog : Styles.StyleCatalog := {}
  outputsInvalidated : List Styles.StyleId := []

def biei (json : JsonWriter) : Service BieiStyles where
  json
  configured := fun state styleId => (state.catalog.resolveLatest ⟨styleId⟩).isSome
  revalidate := fun state hint =>
    { catalog := (state.catalog.requestRevalidationForHint ⟨hint.styleId⟩ hint.hintId).1
      outputsInvalidated := state.outputsInvalidated ++ [⟨hint.styleId⟩] }
  invalid := "invalid refresh hint"
  notConfigured := "style not configured"
  publishFailed := "refresh publish failed"
  accepted := "refresh accepted"

/-- The provider templates, which say at what URL a style is fetched, and the cache of fetches. -/
structure IshikariStyles where
  resolveStyleUrl : String → Option String
  cache : Ishikari.Upstream.ProviderFetchCache := {}

/-- `invalidate_for_refresh`, run through. -/
def invalidateForRefresh (cache : Ishikari.Upstream.ProviderFetchCache)
    (key : Ishikari.Upstream.ProviderFetchCacheKey) : Ishikari.Upstream.ProviderFetchCache :=
  let cache := { cache with refreshes := cache.refreshes + 1 }
  let cache := { cache with
    invalidationEpochs := cache.invalidationEpochs.insert key (cache.invalidationEpoch key + 1) }
  (cache.eraseEntry key).eraseFailure key

def styleContentTypes : List String :=
  ["application/json", "text/json", "application/octet-stream", "binary/octet-stream"]

def ishikari (json : JsonWriter) : Service IshikariStyles where
  json
  configured := fun state styleId => (state.resolveStyleUrl styleId).isSome
  revalidate := fun state hint =>
    match state.resolveStyleUrl hint.styleId with
    | none => state
    | some url => { state with cache := invalidateForRefresh state.cache ⟨"style", styleContentTypes, .json, url⟩ }
  invalid := "invalid refresh hint\n"
  notConfigured := "style provider not configured\n"
  publishFailed := "refresh publish failed\n"
  accepted := "refresh accepted\n"

/-! ## Deliveries -/

inductive Phase
  | arrived
  | applying
  /-- Awaits the membership state, to set the gossip value. -/
  | publishing
  | answered (status : ℕ) (body : String)
  | dropped
  deriving DecidableEq

structure Task where
  hint : StyleRefreshHint
  phase : Phase
  deriving DecidableEq

structure Session (σ : Type) where
  styles : σ
  dedup : DedupState := {}
  tasks : List Task := []
  /-- The hint that the watcher has admitted and not yet applied. -/
  watching : Option StyleRefreshHint := none
  gossip : HashMap String String := ∅
  now : ℕ := 0
  revalidated : List DedupKey := []
  published : List DedupKey := []
  received : List DedupKey := []

inductive Action (σ : Type)
  | deliver (hint : StyleRefreshHint)
  | move (task : ℕ)
  | drop (task : ℕ)
  /-- The watcher takes a hint of a peer out of its batch. -/
  | observe (hint : StyleRefreshHint)
  | apply
  /-- Anything else that happens to the styles. -/
  | change (styles : σ)
  | tick (elapsed : ℕ)

namespace Session

variable {σ : Type}

def admitHint (s : Session σ) (hint : StyleRefreshHint) : DedupState × HintAdmission :=
  s.dedup.admitHint hintDedupWindow hintDedupCapacity s.now hint.key

def turn (s : Session σ) (i : ℕ) (hint : StyleRefreshHint) (phase : Phase) : Session σ :=
  { s with tasks := s.tasks.set i ⟨hint, phase⟩ }

def revalidate (service : Service σ) (s : Session σ) (hint : StyleRefreshHint) : Session σ :=
  { s with styles := service.revalidate s.styles hint, revalidated := s.revalidated ++ [hint.key] }

def move (service : Service σ) (s : Session σ) (i : ℕ) (hint : StyleRefreshHint) : Phase → Session σ
  | .arrived =>
    match hint.validate with
    | .error _ => s.turn i hint (.answered 400 service.invalid)
    | .ok _ =>
      match s.admitHint hint with
      | (dedup, .duplicate) => { s with dedup }.turn i hint (.answered 202 service.accepted)
      | (dedup, .accepted) => { s with dedup }.turn i hint .applying
  | .applying =>
    if service.configured s.styles hint.styleId then (s.revalidate service hint).turn i hint .publishing
    else s.turn i hint (.answered 404 service.notConfigured)
  | .publishing =>
    match hint.encode service.json with
    | .error _ => s.turn i hint (.answered 500 service.publishFailed)
    | .ok encoded =>
      { s with gossip := s.gossip.insert hint.gossipKey encoded, published := s.published ++ [hint.key] }.turn i hint
        (.answered 202 service.accepted)
  | .answered _ _ | .dropped => s

def step (service : Service σ) (s : Session σ) : Action σ → Session σ
  | .deliver hint => { s with tasks := s.tasks ++ [⟨hint, .arrived⟩] }
  | .move i =>
    match s.tasks[i]? with
    | none => s
    | some task => s.move service i task.hint task.phase
  | .drop i =>
    match s.tasks[i]? with
    | some ⟨hint, .arrived⟩ | some ⟨hint, .publishing⟩ => s.turn i hint .dropped
    | _ => s
  | .observe hint =>
    -- only a decoded hint, which is valid, and only when the last one is applied
    if hint.validate.isOk && s.watching.isNone then
      match s.admitHint hint with
      | (dedup, .duplicate) => { s with dedup, received := s.received ++ [hint.key] }
      | (dedup, .accepted) => { s with dedup, received := s.received ++ [hint.key], watching := some hint }
    else s
  | .apply =>
    match s.watching with
    | none => s
    | some hint =>
      if service.configured s.styles hint.styleId then { s.revalidate service hint with watching := none }
      else { s with watching := none }
  | .change styles => { s with styles }
  | .tick elapsed => { s with now := s.now + elapsed }

/-- The effects of a hint: its revalidation was requested, and its value was set here or came from a peer. -/
def Effected (s : Session σ) (key : DedupKey) : Prop :=
  key ∈ s.revalidated ∧ (key ∈ s.published ∨ key ∈ s.received)

def Truthful (s : Session σ) : Prop :=
  ∀ task ∈ s.tasks, ∀ body, task.phase = .answered 202 body → s.Effected task.hint.key

end Session

def sessions {σ : Type} (service : Service σ) (styles : σ) : Machine (Session σ) where
  init := { styles }
  step := fun s s' => ∃ action, s' = s.step service action

end Mappf.Cluster
