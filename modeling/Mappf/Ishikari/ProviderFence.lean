import Mathlib.Order.Basic
import Mappf.Ishikari.ProviderCache

/-! # The fence of a refresh

A fetch that is overtaken by a refresh of its key is refused at the store and by its followers, as long as the epoch of
the key differs from the one it captured. Three things can go wrong: the refresh can come between the check of a store
and its insertion; the epoch of a key can count up from zero again once it is forgotten; and two refreshes that read
the same epoch write it one after the other, with a third one in between. `careful` rules them out, and then every
answer is current. -/
namespace Mappf.Ishikari.Upstream
open List Option

open Common (SingleFlight Flight Silent Tuned)

/-! ## What a phase holds -/

/-- The fence of the fetch or of the outcome in hand, with the number of refreshes begun at its capture. -/
def Phase.held : Phase → Option (FetchFence × ℕ)
  | fetching fetch | marking fetch _ | coolingDown fetch _ | resuming fetch _ | resetting fetch _ | checking fetch _
  | checkingEpoch fetch _ | inserting fetch _ _ | dropping fetch _ | dropped fetch _ | publishing fetch _
  | sending fetch _ _ => some (fetch.fence, fetch.fenced)
  | woken outcome _ | rechecking outcome _ => some (outcome.value.fence, outcome.fenced)
  | _ => none

def Phase.listens : Phase → Option ℕ
  | following receiver => some receiver.channel
  | _ => none

def Phase.channel : Phase → Option ℕ
  | following receiver => some receiver.channel
  | sending _ _ sender | released _ sender => sender
  | _ => none

def Phase.sender : Phase → Option ℕ
  | sending _ _ sender | released _ sender => sender
  | _ => none

/-- The number of a refresh, and how far it is: begun, the epoch written, the entry removed. -/
def Phase.progress : Phase → Option (ℕ × ℕ)
  | reading number | writing number _ => some (number, 0)
  | clearingEntry number => some (number, 1)
  | clearingFailure number | refreshed number => some (number, 2)
  | _ => none

/-- Since when a lookup or a follower asks, and the origin of what it found. -/
def Phase.asks : Phase → Option (ℕ × Option ℕ)
  | comparing _ entry asked => some (asked, some entry.fenced)
  | woken _ asked | rechecking _ asked => some (asked, none)
  | _ => none

def Task.tunes (task : Task) : Option (ProviderFetchCacheKey × ℕ) :=
  task.phase.channel.map (fun channel => (task.key, channel))

def Task.sender (task : Task) : Option ℕ := task.phase.sender

variable {phase : Phase} {channel : ℕ} {task : Task}

theorem Phase.channel_of_sender (h : phase.sender = some channel) : phase.channel = some channel := by
  cases phase <;> first | exact h | cases h

theorem Phase.channel_of_listens (h : phase.listens = some channel) : phase.channel = some channel := by
  cases phase <;> first | exact h | cases h

theorem Phase.sender_of_channel (h : phase.channel = none) : phase.sender = none := by
  cases hsend : phase.sender with
  | none => rfl
  | some channel =>
    simp [Phase.channel_of_sender hsend] at h

theorem Task.tunes_of_sender (h : task.sender = some channel) : task.tunes = some (task.key, channel) := by
  unfold Task.tunes
  rw [Phase.channel_of_sender h]
  rfl

section Quiet

variable {flights : SingleFlight ProviderFetchCacheKey (Sourced ProviderFlightOutcome)} {tasks : List Task} {i : ℕ}
  {key : ProviderFetchCacheKey}

theorem tuned_set (h : Tuned flights Task.tunes tasks) (hchan : phase.channel = none) :
    Tuned flights Task.tunes (tasks.set i ⟨key, phase⟩) := by
  refine h.change (fun _ _ hentry => hentry) rfl (mem_set_or fun key' channel htunes => ?_)
  unfold Task.tunes at htunes
  simp [hchan] at htunes

theorem silent_set (h : Silent flights Task.sender tasks) (hchan : phase.channel = none) :
    Silent flights Task.sender (tasks.set i ⟨key, phase⟩) := by
  exact h.change (mem_set_or (Phase.sender_of_channel hchan))

end Quiet

def ProviderFetchCache.published (cache : ProviderFetchCache) (channel : ℕ) : Option (FetchFence × ℕ) :=
  (cache.inflight.published channel).map (fun outcome => (outcome.value.fence, outcome.fenced))

def Task.fences (cache : ProviderFetchCache) (task : Task) : List (FetchFence × ℕ) :=
  task.phase.held.toList ++ (task.phase.listens.bind cache.published).toList

theorem Task.mem_fences {cache : ProviderFetchCache} {fence : FetchFence × ℕ} :
    fence ∈ task.fences cache ↔ task.phase.held = some fence ∨
      ∃ channel, task.phase.listens = some channel ∧ cache.published channel = some fence := by
  unfold Task.fences
  rw [mem_append, mem_toList, mem_toList, bind_eq_some_iff]

theorem Task.fences_congr {cache cache' : ProviderFetchCache} (h : cache'.inflight = cache.inflight) :
    task.fences cache' = task.fences cache := by
  unfold Task.fences ProviderFetchCache.published
  rw [h]

/-! ## Careful steps -/

namespace Session

def overtaken (s : Session) (key : ProviderFetchCacheKey) (fenced : ℕ) : Bool :=
  s.tasks.any (fun task => task.key = key && task.phase.progress.any (fun progress => fenced < progress.1))

/-- An entry is inserted while its fence still holds, and an epoch is written that no fetch of the key that was
overtaken has captured. The counter does not come round. -/
def carefulTask (s : Session) (task : Task) : Bool :=
  match task.phase with
  | .inserting fetch _ _ => !s.cache.isSuperseded task.key fetch.fence
  | .writing _ next => s.tasks.all (fun other => other.key ≠ task.key || (other.fences s.cache).all (fun fence =>
      fence.1.keyEpoch ≠ some next || !s.overtaken task.key fence.2))
  | .raising => s.begun + 1 < 2 ^ 64
  | _ => true

def careful (s : Session) : Action → Bool
  | .move i _ => (s.tasks[i]?).all s.carefulTask
  | _ => true

/-! ## The invariant -/

end Session

def Reached (tasks : List Task) (stage : ℕ) (key : ProviderFetchCacheKey) (number : ℕ) : Prop :=
  ∃ task ∈ tasks, task.key = key ∧ ∃ got, task.phase.progress = some (number, got) ∧ stage ≤ got

namespace Session

def Live (s : Session) (key : ProviderFetchCacheKey) (fence : FetchFence × ℕ) : Prop :=
  ∃ task ∈ s.tasks, task.key = key ∧ fence ∈ task.fences s.cache

structure Sound (s : Session) (key : ProviderFetchCacheKey) (fence : FetchFence × ℕ) : Prop where
  counted : fence.1.refreshes = UInt64.ofNat fence.2
  begun : fence.2 ≤ s.begun
  moved : ∀ number, Reached s.tasks 1 key number → fence.2 < number → s.cache.epochMoved key fence.1 = true

end Session

/-- The refreshes that had returned when it asked began before the fence of its origin was captured. -/
def Asked (ended : List (ProviderFetchCacheKey × ℕ)) (key : ProviderFetchCacheKey) (ask : ℕ × Option ℕ) : Prop :=
  ask.1 ≤ ended.length ∧
    ∀ fenced, ask.2 = some fenced → ∀ refresh ∈ ended.take ask.1, refresh.1 = key → refresh.2 ≤ fenced

/-- The parts of the cache that the fence is about stay, entries may go. -/
structure SameFences (cache cache' : ProviderFetchCache) : Prop where
  refreshes : cache'.refreshes = cache.refreshes
  epochs : cache'.invalidationEpochs = cache.invalidationEpochs
  entries : ∀ key entry, cache'.entries.lookup key = some entry → cache.entries.lookup key = some entry

structure Fenced (s : Session) : Prop where
  counted : s.cache.refreshes = UInt64.ofNat s.begun
  bounded : s.begun < 2 ^ 64
  numbers : ∀ key number, Reached s.tasks 0 key number → number ≤ s.begun
  fences : ∀ key fence, s.Live key fence → s.Sound key fence
  entries : ∀ key entry, s.cache.entries.lookup key = some entry →
    ∀ number, Reached s.tasks 2 key number → number ≤ entry.fenced
  ended : ∀ refresh ∈ s.ended, Reached s.tasks 2 refresh.1 refresh.2
  asks : ∀ task ∈ s.tasks, ∀ ask, task.phase.asks = some ask → Asked s.ended task.key ask
  answers : ∀ answer ∈ s.answers, Asked s.ended answer.key (answer.asked, some answer.fenced)
  tuned : Tuned s.cache.inflight Task.tunes s.tasks
  silent : Silent s.cache.inflight Task.sender s.tasks

namespace Reached

variable {tasks : List Task} {i stage number : ℕ} {key key' : ProviderFetchCacheKey} {phase' : Phase}

theorem mono {stage' : ℕ} (h : Reached tasks stage' key number) (hle : stage ≤ stage') :
    Reached tasks stage key number := by
  obtain ⟨task, htask, hkey, got, hprog, hgot⟩ := h
  exact ⟨task, htask, hkey, got, hprog, hle.trans hgot⟩

theorem of_set (h : Reached (tasks.set i ⟨key, phase'⟩) stage key' number) : Reached tasks stage key' number ∨
      (key = key' ∧ ∃ got, phase'.progress = some (number, got) ∧ stage ≤ got) := by
  obtain ⟨task, hmem, hkey, hgot⟩ := h
  obtain hold | rfl := mem_or_eq_of_mem_set hmem
  · exact .inl ⟨task, hold, hkey, hgot⟩
  · exact .inr ⟨hkey, hgot⟩

theorem set (h : Reached tasks stage key' number) (htask : tasks[i]? = some ⟨key, phase⟩)
    (hfurther : ∀ number got, phase.progress = some (number, got) →
      ∃ got', phase'.progress = some (number, got') ∧ got ≤ got') :
    Reached (tasks.set i ⟨key, phase'⟩) stage key' number := by
  obtain ⟨task, hmem, hkey, got, hgot, hle⟩ := h
  obtain ⟨j, hj⟩ := mem_iff_getElem?.mp hmem
  by_cases hij : i = j
  · subst hij
    rw [htask] at hj
    cases hj
    obtain ⟨got', hgot', hle'⟩ := hfurther number got hgot
    have hset : (tasks.set i ⟨key, phase'⟩)[i]? = some ⟨key, phase'⟩ := by
      rw [getElem?_set_self', htask]
      rfl
    exact ⟨_, mem_of_getElem? hset, hkey, got', hgot', hle.trans hle'⟩
  · have hset : (tasks.set i ⟨key, phase'⟩)[j]? = some task := by
      rw [getElem?_set_ne hij]
      exact hj
    exact ⟨task, mem_of_getElem? hset, hkey, got, hgot, hle⟩

theorem set_iff (htask : tasks[i]? = some ⟨key, phase⟩) (hprog : phase'.progress = phase.progress) :
    Reached (tasks.set i ⟨key, phase'⟩) stage key' number ↔ Reached tasks stage key' number := by
  constructor
  · intro h
    obtain hold | ⟨rfl, got, hgot, hle⟩ := h.of_set
    · exact hold
    · exact ⟨_, mem_of_getElem? htask, rfl, got, hprog ▸ hgot, hle⟩
  · intro h
    exact h.set htask (fun number got hgot => ⟨got, hprog.trans hgot, Nat.le_refl got⟩)

end Reached

theorem ofNat_injective {m n : ℕ} (hm : m < 2 ^ 64) (hn : n < 2 ^ 64) (h : UInt64.ofNat m = UInt64.ofNat n) :
    m = n := by
  have hnat := congrArg UInt64.toNat h
  rw [UInt64.toNat_ofNat', UInt64.toNat_ofNat'] at hnat
  omega

theorem Asked.append {ended : List (ProviderFetchCacheKey × ℕ)} {key : ProviderFetchCacheKey} {ask : ℕ × Option ℕ}
    (h : Asked ended key ask) (more : List (ProviderFetchCacheKey × ℕ)) : Asked (ended ++ more) key ask := by
  refine ⟨h.1.trans ?_, ?_⟩
  · rw [length_append]
    exact Nat.le_add_right _ _
  · rw [take_append_of_le_length h.1]
    exact h.2

namespace Session

variable {s s' : Session} {key : ProviderFetchCacheKey} {fence : FetchFence × ℕ}

theorem Live.of_held (htask : task ∈ s.tasks) (hheld : task.phase.held = some fence) : s.Live task.key fence :=
  ⟨task, htask, rfl, Task.mem_fences.mpr (.inl hheld)⟩

theorem Sound.mono (h : s.Sound key fence) (hbegun : s.begun ≤ s'.begun)
    (hreach : ∀ number, Reached s'.tasks 1 key number → Reached s.tasks 1 key number)
    (hepochs : s.cache.epochMoved key fence.1 = true → s'.cache.epochMoved key fence.1 = true) :
    s'.Sound key fence where
  counted := h.counted
  begun := h.begun.trans hbegun
  moved := fun number hwrote hlt => hepochs (h.moved number (hreach number hwrote) hlt)

end Session

namespace Fenced

variable {s : Session} {key : ProviderFetchCacheKey} {fence : FetchFence × ℕ}

theorem sound_now (h : Fenced s) (key : ProviderFetchCacheKey) (keyEpoch : Option UInt64) :
    s.Sound key (⟨keyEpoch, s.cache.refreshes⟩, s.begun) where
  counted := h.counted
  begun := Nat.le_refl _
  moved := by
    intro number hwrote hlt
    have hle := h.numbers key number (hwrote.mono (Nat.zero_le 1))
    omega

/-- The counter alone shows that no refresh began since. -/
theorem unmoved (h : Fenced s) (hsound : s.Sound key fence) (hfresh : s.cache.refreshes = fence.1.refreshes) :
    fence.2 = s.begun := by
  rw [h.counted, hsound.counted] at hfresh
  exact (ofNat_injective h.bounded (lt_of_le_of_lt hsound.begun h.bounded) hfresh).symm

/-- A fence that is not superseded was captured after the beginning of every refresh that has written its epoch. -/
theorem not_superseded (h : Fenced s) (hsound : s.Sound key fence)
    (hfence : s.cache.isSuperseded key fence.1 = false) {number : ℕ} (hwrote : Reached s.tasks 1 key number) :
    number ≤ fence.2 := by
  unfold ProviderFetchCache.isSuperseded at hfence
  split_ifs at hfence with hfresh
  · rw [h.unmoved hsound hfresh]
    exact h.numbers key number (hwrote.mono (Nat.zero_le 1))
  · by_contra hlt
    simp [hsound.moved number hwrote (Nat.lt_of_not_le hlt)] at hfence

/-- An answer under a fence that is not superseded is current. -/
theorem asked_of_not_superseded (h : Fenced s) (hsound : s.Sound key fence)
    (hfence : s.cache.isSuperseded key fence.1 = false) {asked : ℕ} (hasked : asked ≤ s.ended.length) :
    Asked s.ended key (asked, some fence.2) := by
  refine ⟨hasked, fun fenced hfenced refresh hrefresh hkey => ?_⟩
  cases hfenced
  have hreach := h.ended refresh (mem_of_mem_take hrefresh)
  rw [hkey] at hreach
  exact h.not_superseded hsound hfence (hreach.mono (by decide))

/-! ## One step of a task -/

variable {i : ℕ} {effect : Effect}

theorem move (h : Fenced s) (htask : s.tasks[i]? = some ⟨key, phase⟩)
    (hplain : effect.raised = false ∧ effect.ended = none ∧ effect.spawned = none)
    (hsame : SameFences s.cache effect.cache) (hprog : effect.phase.progress = phase.progress)
    (hheld : ∀ fence, effect.phase.held = some fence → s.Sound key fence)
    (hlistens : ∀ channel fence, effect.phase.listens = some channel →
      effect.cache.published channel = some fence → s.Sound key fence)
    (hpub : ∀ task ∈ s.tasks, ∀ channel fence, task.phase.listens = some channel →
      effect.cache.published channel = some fence → s.Sound task.key fence)
    (hasks : ∀ ask, effect.phase.asks = some ask → Asked s.ended key ask)
    (hans : ∀ ans, effect.answer = some ans → Asked s.ended key (ans.1, some ans.2))
    (htuned : Tuned effect.cache.inflight Task.tunes (s.tasks.set i ⟨key, effect.phase⟩))
    (hsilent : Silent effect.cache.inflight Task.sender (s.tasks.set i ⟨key, effect.phase⟩)) :
    Fenced (s.take i key effect) := by
  obtain ⟨hraised, hended, hspawn⟩ := hplain
  have htasks : (s.take i key effect).tasks = s.tasks.set i ⟨key, effect.phase⟩ := by
    unfold Session.take
    rw [hspawn]
    exact append_nil _
  have hbegun : (s.take i key effect).begun = s.begun := by
    unfold Session.take
    rw [hraised]
    rfl
  have hkept : (s.take i key effect).ended = s.ended := by
    unfold Session.take
    rw [hended]
    exact append_nil _
  have hreach : ∀ stage key' number, Reached (s.take i key effect).tasks stage key' number ↔
      Reached s.tasks stage key' number :=
    fun stage key' number => htasks ▸ Reached.set_iff htask hprog
  have hsound : ∀ key' fence, s.Sound key' fence → (s.take i key effect).Sound key' fence := by
    intro key' fence hold
    refine hold.mono (le_of_eq hbegun.symm) (fun number => (hreach 1 key' number).mp) (fun hmoved => ?_)
    rw [← hmoved]
    unfold ProviderFetchCache.epochMoved
    rw [show (s.take i key effect).cache.invalidationEpochs = _ from hsame.epochs]
  constructor
  · rw [hbegun, ← h.counted]
    exact hsame.refreshes
  · rw [hbegun]
    exact h.bounded
  · intro key' number hnum
    rw [hbegun]
    exact h.numbers key' number ((hreach 0 key' number).mp hnum)
  · rintro key' fence ⟨task, hmem, rfl, hfence⟩
    apply hsound
    rw [htasks] at hmem
    obtain hold | rfl := mem_or_eq_of_mem_set hmem
    · obtain hheld' | ⟨channel, hchan, hvalue⟩ := Task.mem_fences.mp hfence
      · exact h.fences task.key fence (.of_held hold hheld')
      · exact hpub task hold channel fence hchan hvalue
    · obtain hheld' | ⟨channel, hchan, hvalue⟩ := Task.mem_fences.mp hfence
      · exact hheld fence hheld'
      · exact hlistens channel fence hchan hvalue
  · intro key' entry hentry number hnum
    exact h.entries key' entry (hsame.entries key' entry hentry) number ((hreach 2 key' number).mp hnum)
  · intro refresh hrefresh
    rw [hkept] at hrefresh
    exact (hreach 2 refresh.1 refresh.2).mpr (h.ended refresh hrefresh)
  · intro task hmem ask hask
    rw [hkept]
    rw [htasks] at hmem
    obtain hold | rfl := mem_or_eq_of_mem_set hmem
    · exact h.asks task hold ask hask
    · exact hasks ask hask
  · intro ans hmem
    rw [hkept]
    obtain hold | hnew := mem_append.mp hmem
    · exact h.answers ans hold
    · obtain ⟨pair, hpair, rfl⟩ := mem_map.mp hnew
      exact hans pair (mem_toList.mp hpair)
  · rw [htasks]
    exact htuned
  · rw [htasks]
    exact hsilent

theorem published_sound (h : Fenced s) {cache' : ProviderFetchCache}
    (hpub : ∀ channel fence, cache'.published channel = some fence → s.cache.published channel = some fence) :
    ∀ task ∈ s.tasks, ∀ channel fence, task.phase.listens = some channel → cache'.published channel = some fence →
      s.Sound task.key fence := by
  intro task htask channel fence hlistens hfence
  exact h.fences task.key fence ⟨task, htask, rfl, Task.mem_fences.mpr (.inr ⟨channel, hlistens, hpub channel fence hfence⟩)⟩

/-- A step that leaves the flights alone, to a phase that has no channel. -/
theorem stay (h : Fenced s) (htask : s.tasks[i]? = some ⟨key, phase⟩)
    (hplain : effect.raised = false ∧ effect.ended = none ∧ effect.spawned = none)
    (hsame : SameFences s.cache effect.cache) (hfly : effect.cache.inflight = s.cache.inflight)
    (hprog : effect.phase.progress = phase.progress) (hheld : ∀ fence, effect.phase.held = some fence → s.Sound key fence)
    (hlistens : effect.phase.listens = none) (hchan : effect.phase.channel = none)
    (hasks : ∀ ask, effect.phase.asks = some ask → Asked s.ended key ask)
    (hans : ∀ ans, effect.answer = some ans → Asked s.ended key (ans.1, some ans.2)) :
    Fenced (s.take i key effect) := by
  have hpub : ∀ channel fence, effect.cache.published channel = some fence →
      s.cache.published channel = some fence := by
    intro channel fence hfence
    unfold ProviderFetchCache.published at hfence ⊢
    rw [← hfly]
    exact hfence
  refine h.move htask hplain hsame hprog hheld ?_ (h.published_sound hpub) hasks hans ?_ ?_
  · simp [hlistens]
  · rw [hfly]
    exact tuned_set h.tuned hchan
  · rw [hfly]
    exact silent_set h.silent hchan

end Fenced

/-- A phase with a fence in hand, or none, that is no refresh, no lookup and no flight. -/
structure Phase.Carries (phase : Phase) (fence : Option (FetchFence × ℕ)) : Prop where
  held : phase.held = fence
  listens : phase.listens = none
  channel : phase.channel = none
  progress : phase.progress = none
  asks : phase.asks = none

namespace Phase.Carries

theorem missed (role : Role) : role.missed.Carries none := by
  cases role <;> exact ⟨rfl, rfl, rfl, rfl, rfl⟩

theorem hit (now : ℕ) (entry : CachedProviderFetch) (freshness : Freshness) (role : Role) :
    (role.hit now entry freshness).Carries none := by
  cases role with
  | request | revalidation served =>
    dsimp only [Role.hit]
    split <;> exact ⟨rfl, rfl, rfl, rfl, rfl⟩
  | leader => exact ⟨rfl, rfl, rfl, rfl, rfl⟩

theorem nextPhase (now : ℕ) (next : Next) : (next.phase now).Carries none := by
  cases next <;> exact ⟨rfl, rfl, rfl, rfl, rfl⟩

theorem allowed (leading : Bool) (served : CachedProviderFetch) : (allowed leading served).Carries none := by
  cases leading <;> exact ⟨rfl, rfl, rfl, rfl, rfl⟩

theorem refused (now : ℕ) (leading : Bool) (served : CachedProviderFetch) :
    (refused now leading served).Carries none := by
  cases leading <;> exact ⟨rfl, rfl, rfl, rfl, rfl⟩

theorem answered (fetch : Fetch) (res : Except HttpError ProviderOriginOutcome) :
    (fetch.answered res).Carries (some (fetch.fence, fetch.fenced)) := by
  cases res with
  | error err =>
    dsimp only [Fetch.answered]
    split <;> exact ⟨rfl, rfl, rfl, rfl, rfl⟩
  | ok origin => exact ⟨rfl, rfl, rfl, rfl, rfl⟩

theorem store (fetch : Fetch) (origin : ProviderOriginOutcome) (now : ℕ) :
    (fetch.store origin now).Carries (some (fetch.fence, fetch.fenced)) := by
  unfold Fetch.store
  split <;> exact ⟨rfl, rfl, rfl, rfl, rfl⟩

end Phase.Carries

namespace SameFences

variable (cache : ProviderFetchCache)

theorem refl : SameFences cache cache := ⟨rfl, rfl, fun _ _ h => h⟩

theorem eraseFailure (key : ProviderFetchCacheKey) : SameFences cache (cache.eraseFailure key) :=
  ⟨rfl, rfl, fun _ _ h => h⟩

theorem eraseEntry (key : ProviderFetchCacheKey) : SameFences cache (cache.eraseEntry key) := by
  refine ⟨rfl, rfl, fun key' entry hentry => ?_⟩
  unfold ProviderFetchCache.eraseEntry at hentry
  rw [HashMap.lookup_erase_eq] at hentry
  split_ifs at hentry
  exact hentry

end SameFences

namespace Fenced

variable {s : Session} {i : ℕ} {key : ProviderFetchCacheKey} {effect : Effect} {phase' : Phase}
variable (h : Fenced s) (htask : s.tasks[i]? = some ⟨key, phase⟩)
include h htask

theorem held_sound {fence : FetchFence × ℕ}
    (hheld : phase.held = some fence) : s.Sound key fence :=
  h.fences key fence (.of_held (mem_of_getElem? htask) hheld)

theorem carry (hphase : phase.progress = none)
    (hplain : effect.raised = false ∧ effect.ended = none ∧ effect.spawned = none)
    (hsame : SameFences s.cache effect.cache) (hfly : effect.cache.inflight = s.cache.inflight)
    {fence : Option (FetchFence × ℕ)} (hcarry : effect.phase.Carries fence)
    (hsound : ∀ kept, fence = some kept → s.Sound key kept)
    (hans : ∀ ans, effect.answer = some ans → Asked s.ended key (ans.1, some ans.2)) :
    Fenced (s.take i key effect) := by
  refine h.stay htask hplain hsame hfly ?_ ?_ hcarry.listens hcarry.channel ?_ hans
  · rw [hcarry.progress, hphase]
  · intro kept hkept
    rw [hcarry.held] at hkept
    exact hsound kept hkept
  · simp [hcarry.asks]

/-! ## The flights -/

theorem elect (hphase : phase.progress = none)
    (hphase' : phase'.Carries none ∨
      ∃ recv, (s.cache.inflight.begin key).2 = .follower recv ∧ phase' = .following recv) :
    Fenced (s.take i key
      { cache := { s.cache with inflight := (s.cache.inflight.begin key).1 }, phase := phase' }) := by
  have hpub : ∀ channel fence,
      ProviderFetchCache.published { s.cache with inflight := (s.cache.inflight.begin key).1 } channel = some fence →
        s.cache.published channel = some fence := by
    intro channel fence hfence
    obtain ⟨outcome, hout, rfl⟩ := map_eq_some_iff.mp hfence
    unfold ProviderFetchCache.published
    rw [SingleFlight.published_begin hout]
    rfl
  have hsame : SameFences s.cache { s.cache with inflight := (s.cache.inflight.begin key).1 } :=
    ⟨rfl, rfl, fun _ _ hentry => hentry⟩
  have htunedBegin := h.tuned.begin key
  have hsilentBegin := h.silent.begin h.tuned (fun party _ channel hsend => ⟨party.key, Task.tunes_of_sender hsend⟩) key
  obtain hcarry | ⟨recv, hfoll, rfl⟩ := hphase'
  · refine h.move htask ⟨rfl, rfl, rfl⟩ hsame ?_ ?_ ?_ (h.published_sound hpub) ?_ nofun ?_ ?_
    · rw [hcarry.progress, hphase]
    · simp [hcarry.held]
    · simp [hcarry.listens]
    · simp [hcarry.asks]
    · exact tuned_set htunedBegin hcarry.channel
    · exact silent_set hsilentBegin hcarry.channel
  · obtain ⟨hentry, hunchanged⟩ := SingleFlight.begin_follower hfoll
    refine h.move htask ⟨rfl, rfl, rfl⟩ hsame ?_ nofun ?_ (h.published_sound hpub) nofun nofun ?_ ?_
    · rw [hphase]
      rfl
    · -- the leader of an entry has not published anything yet
      intro channel fence hlistens hfence
      cases hlistens
      have hnone := h.silent.unpublished key recv.channel hentry
      have hsome := hpub recv.channel fence hfence
      unfold ProviderFetchCache.published at hsome
      rw [hnone] at hsome
      cases hsome
    · refine htunedBegin.change (fun _ _ hentry' => hentry') rfl (mem_set_or fun key' channel htunes => .inl ?_)
      cases htunes
      rw [hunchanged]
      exact hentry
    · exact hsilentBegin.change (mem_set_or rfl)

theorem release (hphase : phase.progress = none)
    (hprog : phase'.progress = none) (hlistens : phase'.listens = none)
    (hasks : phase'.asks = none) (hheld : phase'.held = phase.held)
    (hchan : phase'.channel = s.cache.inflight.entries.lookup key)
    (hsend : phase'.sender = s.cache.inflight.entries.lookup key) : Fenced (s.take i key
      { cache := { s.cache with inflight := (s.cache.inflight.remove key).1 }, phase := phase' }) := by
  have hsame : SameFences s.cache { s.cache with inflight := (s.cache.inflight.remove key).1 } :=
    ⟨rfl, rfl, fun _ _ hentry => hentry⟩
  refine h.move htask ⟨rfl, rfl, rfl⟩ hsame (hprog.trans hphase.symm) ?_ ?_
    (h.published_sound (fun _ _ hfence => hfence)) ?_ nofun ?_ ?_
  · intro fence hsome
    exact h.held_sound htask (hheld.symm.trans hsome)
  · simp [hlistens]
  · simp [hasks]
  · refine h.tuned.change (fun key' channel hentry => ?_) rfl (mem_set_or fun key' channel htunes => .inl ?_)
    · dsimp only [SingleFlight.remove] at hentry
      rw [HashMap.lookup_erase_eq] at hentry
      split_ifs at hentry
      exact hentry
    · obtain ⟨channel', hchan', heq⟩ := map_eq_some_iff.mp htunes
      cases heq
      exact hchan.symm.trans hchan'
  · exact h.silent.remove h.tuned key (mem_set_or hsend)

theorem finish (hphase : phase.progress = none)
    (hcarry : phase'.Carries none) {outcome : Option (Sourced ProviderFlightOutcome)}
    (hout : ∀ sent, outcome = some sent → phase.held = some (sent.value.fence, sent.fenced)) :
    Fenced (s.take i key
      { cache := { s.cache with inflight := s.cache.inflight.finish phase.sender outcome }, phase := phase' }) := by
  have hmem : (⟨key, phase⟩ : Task) ∈ s.tasks := mem_of_getElem? htask
  have hsame : SameFences s.cache { s.cache with inflight := s.cache.inflight.finish phase.sender outcome } :=
    ⟨rfl, rfl, fun _ _ hentry => hentry⟩
  refine h.move htask ⟨rfl, rfl, rfl⟩ hsame ?_ ?_ ?_ ?_ ?_ nofun ?_ ?_
  · rw [hcarry.progress, hphase]
  · simp [hcarry.held]
  · simp [hcarry.listens]
  · intro task htask' channel fence hlistens hfence
    obtain ⟨sent, hsent, rfl⟩ := map_eq_some_iff.mp hfence
    obtain hold | ⟨hsend, rfl⟩ := SingleFlight.published_finish hsent
    · have hpub : s.cache.published channel = some (sent.value.fence, sent.fenced) := by
        unfold ProviderFetchCache.published
        rw [hold]
        rfl
      exact h.fences task.key _ ⟨task, htask', rfl, Task.mem_fences.mpr (.inr ⟨channel, hlistens, hpub⟩)⟩
    · -- the followers of this channel have the key of its leader
      have hlistener : task.tunes = some (task.key, channel) := by
        unfold Task.tunes
        rw [Phase.channel_of_listens hlistens]
        rfl
      have hkey : key = task.key := h.tuned.same_key hmem htask' (Task.tunes_of_sender hsend) hlistener
      subst hkey
      exact h.held_sound htask (hout sent rfl)
  · simp [hcarry.asks]
  · refine tuned_set (h.tuned.change (fun key' channel hentry => ?_) (SingleFlight.length_finish _ _ _)
      (fun party hparty => .inl hparty)) hcarry.channel
    rw [SingleFlight.entries_finish] at hentry
    exact hentry
  · exact h.silent.finish hmem outcome (mem_set_or (Phase.sender_of_channel hcarry.channel))

end Fenced

end Mappf.Ishikari.Upstream
