import Mappf.Biei.RenderCache
import Mappf.Lib.Log
import Mappf.Lib.Machine

/-! # Runs of the render output cache

A session is the cache with the calls, followers and leaders that are under way and a log of what has
happened. Calls, followers and leaders are named by the number of the log entry that began them. Any
step may come next, so calls overlap, leaders finish or are dropped in any order, and a follower wakes
any time after its channel has changed. A resident image is traced back through the log to the step that
inserted it and to the election of the leader that rendered it (`Produced`). -/
namespace Mappf.Biei.RenderCacheRun

open Styles (StyleId)

variable {ρ : Type}

inductive Action (ρ : Type)
  | lookup (key : RenderCacheKey ρ) (readable : Option NamespaceSet)
  | join (call : ℕ)
  /-- `changed` returns to the follower that joined at step `follower`, and it looks at the cache again. -/
  | recheck (follower : ℕ)
  | abandon (follower : ℕ)
  | insertFromOutcome (leader : ℕ) (result : TaskResult)
  | dropLeader (leader : ℕ)
  | evict (key : RenderCacheKey ρ)
  | invalidateStyle (styleId : StyleId)

inductive Entry (ρ : Type)
  | missed (key : RenderCacheKey ρ) (readable : Option NamespaceSet)
  | returned (key : RenderCacheKey ρ) (readable : Option NamespaceSet) (lookup : RenderCacheLookup ρ)
  | inserted (leader : ℕ) (result : TaskResult) (accepted : Bool)
  | dropped (leader : ℕ)
  | evicted (key : RenderCacheKey ρ)
  | invalidated (styleId : StyleId)
  deriving DecidableEq

structure Session (ρ : Type) where
  inner : RenderOutputCacheInner ρ
  calls : HashMap ℕ (RenderCacheKey ρ × Option NamespaceSet)
  followers : HashMap ℕ (RenderFlightFollower ρ)
  leaders : HashMap ℕ (RenderFlightLeader ρ)
  log : List (Entry ρ)

namespace Session

def new : Session ρ where
  inner := .new
  calls := ∅
  followers := ∅
  leaders := ∅
  log := []

variable [DecidableEq ρ]

def look (session : Session ρ) (key : RenderCacheKey ρ) (readable : Option NamespaceSet) : Session ρ :=
  match session.inner.cachedHit key readable with
  | some output => { session with log := session.log ++ [.returned key readable (.hit output)] }
  | none =>
    { session with
      calls := session.calls.insert session.log.length (key, readable)
      log := session.log ++ [.missed key readable] }

def keep (session : Session ρ) (now : ℕ) : RenderCacheLookup ρ → Session ρ
  | .leader leader => { session with leaders := session.leaders.insert now leader }
  | .wait follower => { session with followers := session.followers.insert now follower }
  | .hit _ => session
  | .disabled => session

def step (hash : RenderCacheKey ρ → UInt64) (session : Session ρ) : Action ρ → Session ρ
  | .lookup key readable => session.look key readable
  | .join call =>
    match session.calls.lookup call with
    | some (key, readable) =>
      keep
        { session with
          inner := (session.inner.joinFlight hash key readable).2
          calls := session.calls.erase call
          log := session.log ++ [.returned key readable (session.inner.joinFlight hash key readable).1] }
        session.log.length (session.inner.joinFlight hash key readable).1
    | none => session
  | .recheck follower =>
    match session.followers.lookup follower with
    | some waiting =>
      if session.inner.channels.changed waiting.changed = true then
        look { session with followers := session.followers.erase follower } waiting.key waiting.readableNamespaces
      else session
    | none => session
  | .abandon follower => { session with followers := session.followers.erase follower }
  | .insertFromOutcome leader result =>
    match session.leaders.lookup leader with
    | some guard =>
      { session with
        inner := (guard.insertFromOutcome session.inner result).2
        log := session.log ++ [.inserted leader result (guard.insertFromOutcome session.inner result).1] }
    | none => session
  | .dropLeader leader =>
    match session.leaders.lookup leader with
    | some guard =>
      { session with
        inner := guard.drop hash session.inner
        leaders := session.leaders.erase leader
        log := session.log ++ [.dropped leader] }
    | none => session
  | .evict key => { session with inner := session.inner.evict key, log := session.log ++ [.evicted key] }
  | .invalidateStyle styleId =>
    { session with inner := session.inner.invalidateStyle styleId, log := session.log ++ [.invalidated styleId] }

end Session

variable [DecidableEq ρ] (hash : RenderCacheKey ρ → UInt64)

def sessions : Machine (Session ρ) where
  init := .new
  step := fun session session' => ∃ action, session' = session.step hash action

def run (actions : List (Action ρ)) : Session ρ :=
  actions.foldl (Session.step hash) .new

theorem reachable_run (actions : List (Action ρ)) : Reachable (sessions hash) (run hash actions) :=
  reachable_foldl (Session.step hash) _ actions

/-! ## What a step can do -/

inductive Effect (hash : RenderCacheKey ρ → UInt64) (before after : Session ρ) : Prop
  | idle (hinner : after.inner = before.inner) (hleaders : after.leaders = before.leaders)
      (hlog : after.log = before.log)
  | missed (key : RenderCacheKey ρ) (readable : Option NamespaceSet) (hinner : after.inner = before.inner)
      (hleaders : after.leaders = before.leaders) (hlog : after.log = before.log ++ [.missed key readable])
  | hit (key : RenderCacheKey ρ) (readable : Option NamespaceSet) (output : RenderOutput)
      (hhit : before.inner.cachedHit key readable = some output) (hinner : after.inner = before.inner)
      (hleaders : after.leaders = before.leaders)
      (hlog : after.log = before.log ++ [.returned key readable (.hit output)])
  | joined (key : RenderCacheKey ρ) (readable : Option NamespaceSet) (channel : ℕ)
      (hflight : before.inner.flight hash key = some channel) (hinner : after.inner = before.inner)
      (hleaders : after.leaders = before.leaders)
      (hlog : after.log = before.log ++
        [.returned key readable (.wait ⟨key, readable, before.inner.channels.subscribe channel⟩)])
  | elected (key : RenderCacheKey ρ) (readable : Option NamespaceSet)
      (hfree : before.inner.flight hash key = none) (hcache : after.inner.cache = before.inner.cache)
      (hepoch : after.inner.invalidationEpoch = before.inner.invalidationEpoch)
      (hchannels : after.inner.channels = before.inner.channels.create 0)
      (hflights : ∀ k, after.inner.flight hash k =
        if k = key then some before.inner.channels.length else before.inner.flight hash k)
      (hleaders : after.leaders =
        before.leaders.insert before.log.length ⟨some key, readable, before.inner.invalidationEpoch⟩)
      (hlog : after.log = before.log ++
        [.returned key readable (.leader ⟨some key, readable, before.inner.invalidationEpoch⟩)])
  | refused (leader : ℕ) (result : TaskResult) (hinner : after.inner = before.inner)
      (hleaders : after.leaders = before.leaders) (hlog : after.log = before.log ++ [.inserted leader result false])
  | inserted (leader : ℕ) (guard : RenderFlightLeader ρ) (output : RenderOutput) (key : RenderCacheKey ρ)
      (hguard : before.leaders.lookup leader = some guard) (hkey : guard.key = some key)
      (hepoch : guard.invalidationEpoch = before.inner.invalidationEpoch)
      (hresident : ∀ entry, before.inner.cache.lookup key = some entry →
        entry.requiredNamespaces = guard.requiredNamespaces)
      (hinner : after.inner =
        { before.inner with cache := before.inner.cache.insert key ⟨output, guard.requiredNamespaces⟩ })
      (hleaders : after.leaders = before.leaders)
      (hlog : after.log = before.log ++ [.inserted leader (.completed output) true])
  | dropped (leader : ℕ) (guard : RenderFlightLeader ρ) (hguard : before.leaders.lookup leader = some guard)
      (hinner : after.inner = guard.drop hash before.inner) (hleaders : after.leaders = before.leaders.erase leader)
      (hlog : after.log = before.log ++ [.dropped leader])
  | evicted (key : RenderCacheKey ρ) (hinner : after.inner = before.inner.evict key)
      (hleaders : after.leaders = before.leaders) (hlog : after.log = before.log ++ [.evicted key])
  | invalidated (styleId : StyleId) (hinner : after.inner = before.inner.invalidateStyle styleId)
      (hleaders : after.leaders = before.leaders) (hlog : after.log = before.log ++ [.invalidated styleId])

namespace Session

variable (s : Session ρ)

omit [DecidableEq ρ] in
@[simp] theorem keep_log (now : ℕ) (lookup : RenderCacheLookup ρ) :
    (s.keep now lookup).log = s.log := by
  cases lookup <;> rfl

omit [DecidableEq ρ] in
@[simp] theorem keep_inner (now : ℕ) (lookup : RenderCacheLookup ρ) :
    (s.keep now lookup).inner = s.inner := by
  cases lookup <;> rfl

variable (hash : RenderCacheKey ρ → UInt64)

theorem look_effect (before s : Session ρ) (key : RenderCacheKey ρ)
    (readable : Option NamespaceSet) (hinner : s.inner = before.inner)
    (hlead : s.leaders = before.leaders) (hlog : s.log = before.log) : Effect hash before (s.look key readable) := by
  unfold look
  cases hhit : s.inner.cachedHit key readable with
  | some output =>
    exact .hit key readable output (by rw [← hinner]; exact hhit) hinner hlead (by rw [← hlog])
  | none => exact .missed key readable hinner hlead (by rw [← hlog])

theorem step_effect (action : Action ρ) : Effect hash s (s.step hash action) := by
  cases action with
  | lookup key readable => exact look_effect hash s s key readable rfl rfl rfl
  | join call =>
    unfold step
    dsimp only
    split
    case h_2 => exact .idle rfl rfl rfl
    case h_1 key readable hcall =>
      obtain ⟨output, hhit, hjoin⟩ | ⟨channel, hfly, hjoin⟩ | ⟨hfree, inner', hjoin, hcache, hepoch, hchans, hflies⟩ :=
        s.inner.joinFlight_cases hash key readable
      · rw [hjoin]
        exact .hit key readable output hhit rfl rfl rfl
      · rw [hjoin]
        exact .joined key readable channel hfly rfl rfl rfl
      · rw [hjoin]
        exact .elected key readable hfree hcache hepoch hchans hflies rfl rfl
  | recheck foll =>
    unfold step
    dsimp only
    split
    case h_2 => exact .idle rfl rfl rfl
    case h_1 waiting hwait =>
      split_ifs
      · exact look_effect hash s _ waiting.key waiting.readableNamespaces rfl rfl rfl
      · exact .idle rfl rfl rfl
  | abandon foll => exact .idle rfl rfl rfl
  | insertFromOutcome leader res =>
    unfold step
    dsimp only
    split
    case h_2 => exact .idle rfl rfl rfl
    case h_1 guard hguard =>
      obtain hrefus | ⟨output, key, rfl, hkey, hepoch, hresid, hacc⟩ :=
        guard.insertFromOutcome_cases s.inner res
      · rw [hrefus]
        exact .refused leader res rfl rfl rfl
      · rw [hacc]
        exact .inserted leader guard output key hguard hkey hepoch hresid rfl rfl rfl
  | dropLeader leader =>
    unfold step
    dsimp only
    split
    case h_2 => exact .idle rfl rfl rfl
    case h_1 guard hguard => exact .dropped leader guard hguard rfl rfl rfl
  | evict key => exact .evicted key rfl rfl rfl
  | invalidateStyle sid => exact .invalidated sid rfl rfl rfl

/-- A call that is not interrupted returns what `lookupOrJoinKey` returns and leaves its state. -/
theorem uninterrupted_call (key : RenderCacheKey ρ) (readable : Option NamespaceSet) :
    ∃ after, (after = s.step hash (.lookup key readable) ∨
        after = (s.step hash (.lookup key readable)).step hash (.join s.log.length)) ∧
      after.inner = (s.inner.lookupOrJoinKey hash key readable).2 ∧
      after.log.getLast? = some (.returned key readable (s.inner.lookupOrJoinKey hash key readable).1) := by
  unfold RenderOutputCacheInner.lookupOrJoinKey
  cases hhit : s.inner.cachedHit key readable with
  | some output =>
    refine ⟨_, .inl rfl, ?_⟩
    simp [step, look, hhit]
  | none =>
    refine ⟨_, .inr rfl, ?_⟩
    have hlook : s.step hash (.lookup key readable) =
        { s with
          calls := s.calls.insert s.log.length (key, readable)
          log := s.log ++ [.missed key readable] } := by
      simp [step, look, hhit]
    rw [hlook]
    unfold step
    dsimp only
    rw [HashMap.lookup_insert_eq, if_pos rfl]
    rw [keep_inner, keep_log]
    exact ⟨rfl, List.getLast?_concat⟩

end Session

/-! ## Calls and followers keep the caller they began with -/

variable {hash : RenderCacheKey ρ → UInt64} {s : Session ρ} {readable : Option NamespaceSet} {key : RenderCacheKey ρ}

structure Registered (session : Session ρ) : Prop where
  calls : ∀ n key readable, session.calls.lookup n = some (key, readable) →
    session.log[n]? = some (.missed key readable)
  followers : ∀ n follower, session.followers.lookup n = some follower →
    session.log[n]? = some (.returned follower.key follower.readableNamespaces (.wait follower))

namespace Registered

section

variable (h : Registered s)
include h

omit [DecidableEq ρ] in
theorem append {after : Session ρ} {x : Entry ρ} (hlog : after.log = s.log ++ [x])
    (hcalls : ∀ n key readable, after.calls.lookup n = some (key, readable) →
      s.calls.lookup n = some (key, readable) ∨ (n = s.log.length ∧ x = .missed key readable))
    (hfolls : ∀ n foll, after.followers.lookup n = some foll →
      s.followers.lookup n = some foll ∨
        (n = s.log.length ∧ x = .returned foll.key foll.readableNamespaces (.wait foll))) :
    Registered after where
  calls := by
    intro n key readable hcall
    rw [hlog, getElem?_log]
    exact (hcalls n key readable hcall).imp_left (h.calls n key readable)
  followers := by
    intro n foll hfoll
    rw [hlog, getElem?_log]
    exact (hfolls n foll hfoll).imp_left (h.followers n foll)

theorem look (key : RenderCacheKey ρ) (readable : Option NamespaceSet) : Registered (s.look key readable) := by
  unfold Session.look
  cases s.inner.cachedHit key readable with
  | some output => exact h.append rfl (fun _ _ _ => .inl) (fun _ _ => .inl)
  | none =>
    refine h.append rfl ?_ (fun _ _ => .inl)
    intro n key' readable' hcall
    rw [HashMap.lookup_insert_eq] at hcall
    split_ifs at hcall with hn
    · cases hcall
      exact .inr ⟨hn, rfl⟩
    · exact .inl hcall

omit [DecidableEq ρ] in
theorem forget (foll : ℕ) : Registered { s with followers := s.followers.erase foll } where
  calls := h.calls
  followers := by
    intro n waiting hwait
    rw [HashMap.lookup_erase_eq, Option.ite_none_left_eq_some] at hwait
    exact h.followers n waiting hwait.2

theorem join (hash : RenderCacheKey ρ → UInt64) (call : ℕ) : Registered (s.step hash (.join call)) := by
  unfold Session.step
  dsimp only
  split
  case h_2 => exact h
  case h_1 key readable hcall =>
    have hcalls : ∀ n key' readable', (s.calls.erase call).lookup n = some (key', readable') →
        s.calls.lookup n = some (key', readable') := by
      intro n key' readable' hn
      rw [HashMap.lookup_erase_eq, Option.ite_none_left_eq_some] at hn
      exact hn.2
    obtain ⟨output, hhit, hjoin⟩ | ⟨channel, hfly, hjoin⟩ | ⟨hfree, inner', hjoin, -⟩ :=
      s.inner.joinFlight_cases hash key readable
    · rw [hjoin]
      exact h.append rfl (fun n k r hn => .inl (hcalls n k r hn)) (fun _ _ => .inl)
    · rw [hjoin]
      refine h.append rfl (fun n k r hn => .inl (hcalls n k r hn)) ?_
      intro n foll hfoll
      simp only [Session.keep] at hfoll
      rw [HashMap.lookup_insert_eq] at hfoll
      split_ifs at hfoll with hn
      · cases hfoll
        exact .inr ⟨hn, rfl⟩
      · exact .inl hfoll
    · rw [hjoin]
      exact h.append rfl (fun n k r hn => .inl (hcalls n k r hn)) (fun _ _ => .inl)

theorem step (hash : RenderCacheKey ρ → UInt64) (action : Action ρ) : Registered (s.step hash action) := by
  cases action with
  | lookup key readable => exact h.look key readable
  | join call => exact h.join hash call
  | recheck foll =>
    unfold Session.step
    dsimp only
    split
    case h_2 => exact h
    case h_1 waiting hwait =>
      split_ifs
      · exact (h.forget foll).look waiting.key waiting.readableNamespaces
      · exact h
  | abandon foll => exact h.forget foll
  | insertFromOutcome leader res | dropLeader leader =>
    unfold Session.step
    dsimp only
    split
    · exact h.append rfl (fun _ _ _ => .inl) (fun _ _ => .inl)
    · exact h
  | evict key | invalidateStyle sid => exact h.append rfl (fun _ _ _ => .inl) (fun _ _ => .inl)

end

end Registered

theorem registered_reachable (h : Reachable (sessions hash) s) : Registered s := by
  refine h.invariant (I := Registered) ?_ ?_
  · constructor
    · intro n key readable hcall
      simp [sessions, Session.new] at hcall
    · intro n foll hfoll
      simp [sessions, Session.new] at hfoll
  · rintro s _ hreg ⟨action, rfl⟩
    exact hreg.step hash action

theorem recheck_log (h : Registered s) (hash : RenderCacheKey ρ → UInt64) {j : ℕ}
    {foll : RenderFlightFollower ρ} (hjoin : s.log[j]? = some (.returned key readable (.wait foll))) :
    (s.step hash (.recheck j)).log = s.log ∨
      (∃ output, (s.step hash (.recheck j)).log = s.log ++ [.returned key readable (.hit output)]) ∨
      (s.step hash (.recheck j)).log = s.log ++ [.missed key readable] := by
  unfold Session.step
  dsimp only
  split
  case h_2 => exact .inl rfl
  case h_1 waiting hwait =>
    have hsame := hjoin.symm.trans (h.followers j waiting hwait)
    obtain ⟨rfl, rfl, rfl⟩ := hsame
    split_ifs
    · right
      unfold Session.look
      cases s.inner.cachedHit foll.key foll.readableNamespaces with
      | some output => exact .inl ⟨output, rfl⟩
      | none => exact .inr rfl
    · exact .inl rfl

theorem join_log (h : Registered s) (hash : RenderCacheKey ρ → UInt64) {call : ℕ}
    (hmissed : s.log[call]? = some (.missed key readable)) :
    (s.step hash (.join call)).log = s.log ∨
      ∃ lookup, (s.step hash (.join call)).log = s.log ++ [.returned key readable lookup] := by
  unfold Session.step
  dsimp only
  split
  case h_2 => exact .inl rfl
  case h_1 key' readable' hcall =>
    have hsame := hmissed.symm.trans (h.calls call key' readable' hcall)
    obtain ⟨rfl, rfl⟩ := hsame
    exact .inr ⟨_, Session.keep_log _ _ _⟩

end Mappf.Biei.RenderCacheRun
