import Mappf.Ishikari.ProviderFence

/-! # Refreshes, and whole runs

What each step of a refresh does to the fences of the fetches under way, and that a careful run only gives current
answers. The runs at the end show what happens without care. -/
namespace Mappf.Ishikari.Upstream
open Phase ProviderFetchCache Nat

open Common (SingleFlight Flight Silent Tuned)

variable {key : ProviderFetchCacheKey} {s : Session}

theorem Session.overtaken_iff {fenced : ℕ} :
    s.overtaken key fenced = true ↔ ∃ number, Reached s.tasks 0 key number ∧ fenced < number := by
  unfold Session.overtaken
  rw [List.any_eq_true]
  constructor
  · rintro ⟨task, hmem, htask⟩
    rw [Bool.and_eq_true, decide_eq_true_eq, Option.any_eq_true] at htask
    obtain ⟨hkey, ⟨number, got⟩, hprog, hlt⟩ := htask
    exact ⟨number, ⟨task, hmem, hkey, got, hprog, zero_le got⟩, of_decide_eq_true hlt⟩
  · rintro ⟨number, ⟨task, hmem, hkey, got, hprog, -⟩, hlt⟩
    refine ⟨task, hmem, ?_⟩
    rw [Bool.and_eq_true, decide_eq_true_eq, Option.any_eq_true]
    exact ⟨hkey, (number, got), hprog, decide_eq_true hlt⟩

/-- What a careful write of an epoch says of the fetches that have captured it. -/
theorem Session.free_of_careful {number : ℕ} {next : UInt64}
    (hcare : s.carefulTask ⟨key, .writing number next⟩ = true) (fence : FetchFence × ℕ) (hlive : s.Live key fence)
    (hepoch : fence.1.keyEpoch = some next) (number' : ℕ) (hreach : Reached s.tasks 0 key number') :
    number' ≤ fence.2 := by
  by_contra hlt
  have hovertaken : s.overtaken key fence.2 = true :=
    Session.overtaken_iff.mpr ⟨number', hreach, Nat.lt_of_not_le hlt⟩
  obtain ⟨task, hmem, hkey, hfence⟩ := hlive
  have htask := List.all_eq_true.mp hcare task hmem
  rw [Bool.or_eq_true, decide_eq_true_eq, List.all_eq_true] at htask
  obtain hother | hall := htask
  · exact hother hkey
  · have hkept := hall fence hfence
    rw [Bool.or_eq_true, decide_eq_true_eq, hovertaken] at hkept
    obtain hepoch' | hfalse := hkept
    · exact hepoch' hepoch
    · cases hfalse

namespace Fenced

variable {s' : Session} {i : ℕ} {phase phase' : Phase}

theorem init : Fenced {} where
  counted := rfl
  bounded := by decide
  numbers := by
    rintro key number ⟨task, htask, -⟩
    cases htask
  fences := by
    rintro key fence ⟨task, htask, -⟩
    cases htask
  entries := by
    nofun
  ended := by
    nofun
  asks := by
    intro task htask
    cases htask
  answers := by
    nofun
  tuned := by
    have : Inhabited ProviderFetchCacheKey := ⟨⟨"", [], .bytes, ""⟩⟩
    exact .nil
  silent := .nil

/-! ## New tasks and new entries -/

variable (h : Fenced s)
include h

theorem append (key : ProviderFetchCacheKey) (phase : Phase) {fence : Option (FetchFence × ℕ)} (hcarry : phase.Carries fence)
    (hsound : ∀ kept, fence = some kept → s.Sound key kept) :
    Fenced { s with tasks := s.tasks ++ [⟨key, phase⟩] } := by
  have hreach : ∀ stage key' number, Reached (s.tasks ++ [⟨key, phase⟩]) stage key' number ↔
      Reached s.tasks stage key' number := by
    intro stage key' number
    constructor
    · rintro ⟨task, hmem, hkey, got, hgot, hle⟩
      obtain hold | hnew := List.mem_append.mp hmem
      · exact ⟨task, hold, hkey, got, hgot, hle⟩
      · rw [List.mem_singleton.mp hnew, hcarry.progress] at hgot
        cases hgot
    · rintro ⟨task, hmem, hrest⟩
      exact ⟨task, List.mem_append_left _ hmem, hrest⟩
  have hkept : ∀ key' fence', s.Sound key' fence' →
      Session.Sound { s with tasks := s.tasks ++ [⟨key, phase⟩] } key' fence' :=
    fun key' fence' hold => ⟨hold.counted, hold.begun, fun number hwrote =>
      hold.moved number ((hreach 1 key' number).mp hwrote)⟩
  constructor
  · exact h.counted
  · exact h.bounded
  · exact fun key' number hnum => h.numbers key' number ((hreach 0 key' number).mp hnum)
  · rintro key' fence' ⟨task, hmem, rfl, hfence⟩
    apply hkept
    obtain hold | hnew := List.mem_append.mp hmem
    · exact h.fences task.key fence' ⟨task, hold, rfl, hfence⟩
    · rw [List.mem_singleton] at hnew
      subst hnew
      obtain hheld | ⟨channel, hlistens, -⟩ := Task.mem_fences.mp hfence
      · exact hsound fence' (hcarry.held.symm.trans hheld)
      · simp [hcarry.listens] at hlistens
  · exact fun key' entry hentry number hnum => h.entries key' entry hentry number ((hreach 2 key' number).mp hnum)
  · exact fun refresh hrefresh => (hreach 2 refresh.1 refresh.2).mpr (h.ended refresh hrefresh)
  · intro task hmem ask hask
    obtain hold | hnew := List.mem_append.mp hmem
    · exact h.asks task hold ask hask
    · simp [List.mem_singleton.mp hnew, hcarry.asks] at hask
  · exact h.answers
  · refine h.tuned.change (fun _ _ hentry => hentry) rfl (fun party hparty => ?_)
    obtain hold | hnew := List.mem_append.mp hparty
    · exact .inl hold
    · refine .inr (fun key' channel htunes => ?_)
      unfold Task.tunes at htunes
      simp [List.mem_singleton.mp hnew, hcarry.channel] at htunes
  · refine h.silent.change (fun party hparty => ?_)
    obtain hold | hnew := List.mem_append.mp hparty
    · exact .inl hold
    · rw [List.mem_singleton.mp hnew]
      exact .inr (sender_of_channel hcarry.channel)

/-- The caches may forget anything, and an entry may come that no finished refresh has overtaken. -/
theorem recache {cache : ProviderFetchCache} (hfresh : cache.refreshes = s.cache.refreshes)
    (hfly : cache.inflight = s.cache.inflight)
    (hmoved : ∀ key fence, s.cache.epochMoved key fence = true → cache.epochMoved key fence = true)
    (hents : ∀ key entry, cache.entries.lookup key = some entry →
      ∀ number, Reached s.tasks 2 key number → number ≤ entry.fenced) : Fenced { s with cache := cache } where
  counted := hfresh.trans h.counted
  bounded := h.bounded
  numbers := h.numbers
  fences := by
    rintro key fence ⟨task, hmem, rfl, hfence⟩
    rw [Task.fences_congr hfly] at hfence
    have hold : s.Live task.key fence := ⟨task, hmem, rfl, hfence⟩
    exact (h.fences task.key fence hold).mono (le_refl _) (fun _ hwrote => hwrote) (hmoved task.key fence.1)
  entries := hents
  ended := h.ended
  asks := h.asks
  answers := h.answers
  tuned := by
    rw [hfly]
    exact h.tuned
  silent := by
    rw [hfly]
    exact h.silent

theorem insert {fetch : Fetch} {origin : ProviderOriginOutcome} {entry : CachedProviderFetch}
    (htask : s.tasks[i]? = some ⟨key, .inserting fetch origin entry⟩)
    (hfence : s.cache.isSuperseded key fetch.fence = false) : Fenced { s with cache :=
      { s.cache with entries := s.cache.entries.insert key ⟨entry, fetch.fenced⟩ } } := by
  have hsound : s.Sound key (fetch.fence, fetch.fenced) := h.held_sound htask rfl
  refine h.recache rfl rfl (fun _ _ hmoved => hmoved) (fun key' entry' hentry number hnum => ?_)
  rw [HashMap.lookup_insert_eq] at hentry
  split_ifs at hentry with hkey
  · cases hentry
    subst hkey
    exact h.not_superseded hsound hfence (hnum.mono (by decide))
  · exact h.entries key' entry' hentry number hnum

/-! ## The steps of a refresh -/

/-- A step of a refresh, which carries nothing. What it does to the fences and entries is left to show. -/
theorem advance (phase' : Phase) (htask : s.tasks[i]? = some ⟨key, phase⟩)
    (hquiet : phase'.held = none ∧ phase'.listens = none ∧ phase'.channel = none ∧ phase'.asks = none)
    (htasks : s'.tasks = s.tasks.set i ⟨key, phase'⟩) (hfly : s'.cache.inflight = s.cache.inflight)
    (hanswers : s'.answers = s.answers) (hbegun : s.begun ≤ s'.begun)
    (hcnt : s'.cache.refreshes = UInt64.ofNat s'.begun) (hbdd : s'.begun < 2 ^ 64)
    {more : List (ProviderFetchCacheKey × ℕ)} (hended : s'.ended = s.ended ++ more)
    (hfurther : ∀ number got, phase.progress = some (number, got) →
      ∃ got', phase'.progress = some (number, got') ∧ got ≤ got')
    (hnum : ∀ number got, phase'.progress = some (number, got) → number ≤ s'.begun)
    (hmoved : ∀ key' fence, s.Live key' fence → ∀ number, Reached (s.tasks.set i ⟨key, phase'⟩) 1 key' number →
      fence.2 < number → s'.cache.epochMoved key' fence.1 = true)
    (hents : ∀ key' entry, s'.cache.entries.lookup key' = some entry →
      ∀ number, Reached (s.tasks.set i ⟨key, phase'⟩) 2 key' number → number ≤ entry.fenced)
    (hmore : ∀ refresh ∈ more, Reached (s.tasks.set i ⟨key, phase'⟩) 2 refresh.1 refresh.2) : Fenced s' := by
  obtain ⟨hheld, hlistens, hchan, hasks⟩ := hquiet
  have hsound : ∀ key' fence, s.Live key' fence → s'.Sound key' fence := by
    intro key' fence hlive
    have hold := h.fences key' fence hlive
    refine ⟨hold.counted, hold.begun.trans hbegun, fun number hwrote => ?_⟩
    rw [htasks] at hwrote
    exact hmoved key' fence hlive number hwrote
  constructor
  · exact hcnt
  · exact hbdd
  · intro key' number hreach
    rw [htasks] at hreach
    obtain hold | ⟨-, got, hgot, -⟩ := hreach.of_set
    · exact (h.numbers key' number hold).trans hbegun
    · exact hnum number got hgot
  · rintro key' fence ⟨task, hmem, rfl, hfence⟩
    rw [htasks] at hmem
    obtain hold | rfl := List.mem_or_eq_of_mem_set hmem
    · refine hsound task.key fence ⟨task, hold, rfl, ?_⟩
      rw [← Task.fences_congr hfly]
      exact hfence
    · obtain hsome | ⟨channel, hsome, -⟩ := Task.mem_fences.mp hfence
      · simp [hheld] at hsome
      · simp [hlistens] at hsome
  · intro key' entry hentry number hreach
    rw [htasks] at hreach
    exact hents key' entry hentry number hreach
  · intro refresh hrefresh
    rw [hended] at hrefresh
    rw [htasks]
    obtain hold | hnew := List.mem_append.mp hrefresh
    · exact (h.ended refresh hold).set htask hfurther
    · exact hmore refresh hnew
  · intro task hmem ask hask
    rw [hended]
    rw [htasks] at hmem
    obtain hold | rfl := List.mem_or_eq_of_mem_set hmem
    · exact (h.asks task hold ask hask).append more
    · rw [hasks] at hask
      cases hask
  · intro ans hans
    rw [hanswers] at hans
    rw [hended]
    exact (h.answers ans hans).append more
  · rw [htasks, hfly]
    exact tuned_set h.tuned hchan
  · rw [htasks, hfly]
    exact silent_set h.silent hchan

theorem raise (htask : s.tasks[i]? = some ⟨key, .raising⟩) (hbdd : s.begun + 1 < 2 ^ 64) :
    Fenced (s.take i key
      { cache := { s.cache with refreshes := s.cache.refreshes + 1 }, phase := .reading (s.begun + 1), raised := true }) := by
  have hbef : ∀ stage key' number, 1 ≤ stage →
      Reached (s.tasks.set i ⟨key, .reading (s.begun + 1)⟩) stage key' number → Reached s.tasks stage key' number := by
    intro stage key' number hstage hreach
    obtain hold | ⟨-, got, hgot, hle⟩ := hreach.of_set
    · exact hold
    · cases hgot
      omega
  refine h.advance (.reading (s.begun + 1)) htask ⟨rfl, rfl, rfl, rfl⟩ (List.append_nil _) rfl
    (List.append_nil _) (le_succ _) ?_ hbdd rfl ?_ ?_ ?_ ?_ ?_
  · change s.cache.refreshes + 1 = UInt64.ofNat (s.begun + 1)
    rw [h.counted, UInt64.ofNat_add]
    rfl
  · nofun
  · intro number got hgot
    cases hgot
    exact le_refl _
  · intro key' fence hlive number hwrote
    exact (h.fences key' fence hlive).moved number (hbef 1 key' number (le_refl 1) hwrote)
  · intro key' entry hentry number hreach
    exact h.entries key' entry hentry number (hbef 2 key' number (by decide) hreach)
  · nofun

variable {number : ℕ} {next : UInt64}

theorem read (htask : s.tasks[i]? = some ⟨key, .reading number⟩) :
    Fenced (s.take i key { cache := s.cache, phase := .writing number next }) :=
  h.stay htask ⟨rfl, rfl, rfl⟩ (.refl _) rfl rfl nofun rfl rfl
    nofun nofun

/-- The epoch is written. It may be one that a fetch under way has captured, if no refresh has overtaken it. -/
theorem write (htask : s.tasks[i]? = some ⟨key, .writing number next⟩)
    (hfree : ∀ fence, s.Live key fence → fence.1.keyEpoch = some next →
      ∀ number, Reached s.tasks 0 key number → number ≤ fence.2) :
    Fenced (s.take i key
      { cache := { s.cache with invalidationEpochs := s.cache.invalidationEpochs.insert key next },
        phase := .clearingEntry number }) := by
  have hbegun : Reached s.tasks 0 key number := ⟨_, List.mem_of_getElem? htask, rfl, 0, rfl, le_refl 0⟩
  refine h.advance (.clearingEntry number) htask ⟨rfl, rfl, rfl, rfl⟩ (List.append_nil _) rfl
    (List.append_nil _) (le_refl _) h.counted h.bounded rfl ?_ ?_ ?_ ?_ ?_
  · intro number' got hgot
    cases hgot
    exact ⟨1, rfl, zero_le 1⟩
  · intro number' got hgot
    cases hgot
    exact h.numbers key number hbegun
  · intro key' fence hlive number' hwrote hlt
    change epochMoved
      { s.cache with invalidationEpochs := s.cache.invalidationEpochs.insert key next } key' fence.1 = true
    unfold epochMoved
    rw [HashMap.lookup_insert_eq]
    by_cases hkey : key' = key
    · subst hkey
      rw [if_pos rfl]
      refine decide_eq_true (fun hsame => ?_)
      have hreach : Reached s.tasks 0 key' number' := by
        obtain hold | ⟨-, got, hgot, -⟩ := hwrote.of_set
        · exact hold.mono (zero_le 1)
        · cases hgot
          exact hbegun
      have hle := hfree fence hlive hsame.symm number' hreach
      omega
    · rw [if_neg hkey]
      obtain hold | ⟨hsame, -⟩ := hwrote.of_set
      · exact (h.fences key' fence hlive).moved number' hold hlt
      · exact absurd hsame.symm hkey
  · intro key' entry hentry number' hreach
    obtain hold | ⟨-, got, hgot, hle⟩ := hreach.of_set
    · exact h.entries key' entry hentry number' hold
    · cases hgot
      omega
  · nofun

/-- The entry goes last, after the epoch it could have been stored under. -/
theorem clear (htask : s.tasks[i]? = some ⟨key, .clearingEntry number⟩) :
    Fenced (s.take i key { cache := s.cache.eraseEntry key, phase := .clearingFailure number }) := by
  have hwrote : Reached s.tasks 1 key number := ⟨_, List.mem_of_getElem? htask, rfl, 1, rfl, le_refl 1⟩
  refine h.advance (.clearingFailure number) htask ⟨rfl, rfl, rfl, rfl⟩ (List.append_nil _) rfl
    (List.append_nil _) (le_refl _) h.counted h.bounded rfl ?_ ?_ ?_ ?_ ?_
  · intro number' got hgot
    cases hgot
    exact ⟨2, rfl, by decide⟩
  · intro number' got hgot
    cases hgot
    exact h.numbers key number (hwrote.mono (zero_le 1))
  · intro key' fence hlive number' hreach
    obtain hold | ⟨rfl, got, hgot, -⟩ := hreach.of_set
    · exact (h.fences key' fence hlive).moved number' hold
    · cases hgot
      exact (h.fences key fence hlive).moved number hwrote
  · intro key' entry hentry number' hreach
    change (s.cache.entries.erase key).lookup key' = some entry at hentry
    rw [HashMap.lookup_erase_eq] at hentry
    split_ifs at hentry with hkey
    obtain hold | ⟨hsame, -⟩ := hreach.of_set
    · exact h.entries key' entry hentry number' hold
    · exact absurd hsame.symm hkey
  · nofun

theorem finishRefresh (htask : s.tasks[i]? = some ⟨key, .clearingFailure number⟩) :
    Fenced (s.take i key { cache := s.cache.eraseFailure key, phase := .refreshed number, ended := some number }) := by
  have hcleared : Reached s.tasks 2 key number := ⟨_, List.mem_of_getElem? htask, rfl, 2, rfl, le_refl 2⟩
  have hfurther : ∀ number' got, (clearingFailure number).progress = some (number', got) →
      ∃ got', (refreshed number).progress = some (number', got') ∧ got ≤ got' :=
    fun number' got hgot => ⟨got, hgot, le_refl got⟩
  have hreach : ∀ stage key' number', Reached (s.tasks.set i ⟨key, .refreshed number⟩) stage key' number' ↔
      Reached s.tasks stage key' number' :=
    fun stage key' number' => Reached.set_iff htask rfl
  refine h.advance (.refreshed number) htask ⟨rfl, rfl, rfl, rfl⟩ (List.append_nil _) rfl
    (List.append_nil _) (le_refl _) h.counted h.bounded rfl hfurther ?_ ?_ ?_ ?_
  · intro number' got hgot
    cases hgot
    exact h.numbers key number (hcleared.mono (zero_le 2))
  · intro key' fence hlive number' hwrote
    exact (h.fences key' fence hlive).moved number' ((hreach 1 key' number').mp hwrote)
  · intro key' entry hentry number' hdone
    exact h.entries key' entry hentry number' ((hreach 2 key' number').mp hdone)
  · intro refresh hrefresh
    rw [List.mem_singleton.mp hrefresh]
    exact hcleared.set htask hfurther

omit h

/-! ## Every step of a task -/

section Taken

variable {effect : Effect} {origin : Option (Except HttpError ProviderOriginOutcome)}
  {role : Role} {outcome : Sourced ProviderFlightOutcome}

variable (h : Fenced s)
include h

section
variable (htask : s.tasks[i]? = some ⟨key, phase⟩) (hphase : phase.progress = none)
  (hplain : effect.raised = false ∧ effect.ended = none ∧ effect.spawned = none)
  (hsame : SameFences s.cache effect.cache) (hfly : effect.cache.inflight = s.cache.inflight)
include htask hphase hplain hsame hfly

theorem keep (hcarry : effect.phase.Carries phase.held) (hans : effect.answer = none) : Fenced (s.take i key effect) := by
  refine h.carry htask hphase hplain hsame hfly hcarry (fun kept hkept => h.held_sound htask hkept) ?_
  simp [hans]

theorem drop (hcarry : effect.phase.Carries none)
    (hans : ∀ ans, effect.answer = some ans → Asked s.ended key (ans.1, some ans.2)) : Fenced (s.take i key effect) :=
  h.carry htask hphase hplain hsame hfly hcarry nofun hans

end

theorem look (htask : s.tasks[i]? = some ⟨key, .looking role⟩)
    (hnext : (Phase.looking role).next s.cache s.begun s.ended.length key origin = some effect) :
    Fenced (s.take i key effect) := by
  dsimp only [next] at hnext
  split at hnext
  · cases hnext
    exact h.keep htask rfl ⟨rfl, rfl, rfl⟩ (.refl _) rfl (.missed role) rfl
  · rename_i entry hentry
    cases hnext
    refine h.stay htask ⟨rfl, rfl, rfl⟩ (.refl _) rfl rfl nofun rfl rfl ?_
      nofun
    intro ask hask
    cases hask
    refine ⟨le_refl _, fun fenced hfence refresh hrefresh hkey => ?_⟩
    cases hfence
    -- what has returned has removed the entries it overtook
    have hreach := h.ended refresh (List.mem_of_mem_take hrefresh)
    rw [hkey] at hreach
    exact h.entries key entry hentry refresh.2 hreach

variable {asked : ℕ}

theorem compare {entry : Sourced CachedProviderFetch} (htask : s.tasks[i]? = some ⟨key, .comparing role entry asked⟩)
    (hnext : (Phase.comparing role entry asked).next s.cache s.begun s.ended.length key origin = some effect) :
    Fenced (s.take i key effect) := by
  have hasked := h.asks _ (List.mem_of_getElem? htask) _ rfl
  dsimp only [next] at hnext
  split at hnext
  · cases hnext
    exact h.keep htask rfl ⟨rfl, rfl, rfl⟩ (.refl _) rfl (.missed role) rfl
  · cases hnext
    refine h.drop htask rfl ⟨rfl, rfl, rfl⟩ (.refl _) rfl (.hit _ _ _ role) (fun ans hans => ?_)
    cases hans
    exact hasked

theorem electing {served : Option CachedProviderFetch} (htask : s.tasks[i]? = some ⟨key, .electing served⟩)
    (hnext : (Phase.electing served).next s.cache s.begun s.ended.length key origin = some effect) :
    Fenced (s.take i key effect) := by
  have hsteps : ∀ phase' : Phase, phase'.Carries none ∨
        (∃ recv, (s.cache.inflight.begin key).2 = .follower recv ∧ phase' = .following recv) →
      Fenced (s.take i key
        { cache := { s.cache with inflight := (s.cache.inflight.begin key).1 }, phase := phase' }) :=
    fun phase' hphase' => h.elect htask rfl hphase'
  dsimp only [next] at hnext
  generalize s.cache.inflight.begin key = begun at hnext hsteps
  obtain ⟨inflight, role⟩ := begun
  cases role with
  | leader =>
    cases served with
    | none | some served =>
      cases hnext
      exact hsteps _ (.inl ⟨rfl, rfl, rfl, rfl, rfl⟩)
  | follower recv =>
    cases served with
    | none =>
      cases hnext
      exact hsteps _ (.inr ⟨recv, rfl, rfl⟩)
    | some served =>
      cases hnext
      exact hsteps _ (.inl ⟨rfl, rfl, rfl, rfl, rfl⟩)

theorem wake {recv : Watch.Receiver} (htask : s.tasks[i]? = some ⟨key, .following recv⟩)
    (hnext : (Phase.following recv).next s.cache s.begun s.ended.length key origin = some effect) :
    Fenced (s.take i key effect) := by
  dsimp only [next] at hnext
  split at hnext
  · cases hnext
  · cases hnext
    exact h.keep htask rfl ⟨rfl, rfl, rfl⟩ (.refl _) rfl ⟨rfl, rfl, rfl, rfl, rfl⟩ rfl
  · rename_i outcome hwait
    cases hnext
    have hpub : s.cache.published recv.channel = some (outcome.value.fence, outcome.fenced) := by
      unfold published
      rw [SingleFlight.wait_eq_some hwait]
      rfl
    refine h.stay htask ⟨rfl, rfl, rfl⟩ (.refl _) rfl rfl ?_ rfl rfl ?_ nofun
    · intro fence hfence
      cases hfence
      exact h.fences key _ ⟨_, List.mem_of_getElem? htask, rfl, Task.mem_fences.mpr (.inr ⟨recv.channel, rfl, hpub⟩)⟩
    · intro ask hask
      cases hask
      exact ⟨le_refl _, nofun⟩

/-- A follower is answered when the counter has not moved, or when the epoch has not. -/
theorem follow (htask : s.tasks[i]? = some ⟨key, .woken outcome asked⟩)
    (hnext : (Phase.woken outcome asked).next s.cache s.begun s.ended.length key origin = some effect) :
    Fenced (s.take i key effect) := by
  have hasked := h.asks _ (List.mem_of_getElem? htask) _ rfl
  have hsound := h.held_sound htask rfl
  dsimp only [next] at hnext
  split_ifs at hnext with hfresh
  · cases hnext
    refine h.drop htask rfl ⟨rfl, rfl, rfl⟩ (.refl _) rfl ⟨rfl, rfl, rfl, rfl, rfl⟩ (fun ans hans => ?_)
    cases hans
    exact h.asked_of_not_superseded hsound (if_pos hfresh) hasked.1
  · cases hnext
    refine h.stay htask ⟨rfl, rfl, rfl⟩ (.refl _) rfl rfl ?_ rfl rfl ?_ nofun
    · intro fence hfence
      cases hfence
      exact hsound
    · intro ask hask
      cases hask
      exact hasked

theorem recheck (htask : s.tasks[i]? = some ⟨key, .rechecking outcome asked⟩)
    (hnext : (Phase.rechecking outcome asked).next s.cache s.begun s.ended.length key origin = some effect) :
    Fenced (s.take i key effect) := by
  have hasked := h.asks _ (List.mem_of_getElem? htask) _ rfl
  have hsound := h.held_sound htask rfl
  dsimp only [next] at hnext
  split at hnext
  · cases hnext
    exact h.drop htask rfl ⟨rfl, rfl, rfl⟩ (.refl _) rfl ⟨rfl, rfl, rfl, rfl, rfl⟩ nofun
  · rename_i hmoved
    cases hnext
    refine h.drop htask rfl ⟨rfl, rfl, rfl⟩ (.refl _) rfl ⟨rfl, rfl, rfl, rfl, rfl⟩ (fun ans hans => ?_)
    cases hans
    refine h.asked_of_not_superseded hsound ?_ hasked.1
    unfold isSuperseded
    split
    · rfl
    · exact (Bool.not_eq_true _).mp hmoved

/-- The second read of the fence. A background revalidation goes on in a task of its own. -/
theorem capture {background : Option (CachedProviderRepresentation × CachedProviderFetch)}
    {keyEpoch : Option UInt64} (htask : s.tasks[i]? = some ⟨key, .loading background keyEpoch⟩)
    (hnext : (Phase.loading background keyEpoch).next s.cache s.begun s.ended.length key origin = some effect) :
    Fenced (s.take i key effect) := by
  cases background with
  | none =>
    cases hnext
    refine h.carry htask rfl ⟨rfl, rfl, rfl⟩ (.refl _) rfl ⟨rfl, rfl, rfl, rfl, rfl⟩ ?_ nofun
    intro kept hkept
    cases hkept
    exact h.sound_now key keyEpoch
  | some background =>
    obtain ⟨stale, served⟩ := background
    cases hnext
    have hret : Fenced (s.take i key { cache := s.cache, phase := .returned (served.intoResult s.cache.now) }) :=
      h.keep htask rfl ⟨rfl, rfl, rfl⟩ (.refl _) rfl ⟨rfl, rfl, rfl, rfl, rfl⟩ rfl
    have hspawned := hret.append key (.fetching ⟨⟨keyEpoch, s.cache.refreshes⟩, s.begun, some stale⟩)
      ⟨rfl, rfl, rfl, rfl, rfl⟩ (fun kept hkept => by cases hkept; exact hret.sound_now key keyEpoch)
    simpa [Session.take] using hspawned

theorem taken (htask : s.tasks[i]? = some ⟨key, phase⟩) (hcare : s.carefulTask ⟨key, phase⟩ = true)
    (hnext : phase.next s.cache s.begun s.ended.length key origin = some effect) : Fenced (s.take i key effect) := by
  cases phase with
  | looking role => exact h.look htask hnext
  | comparing role entry asked => exact h.compare htask hnext
  | allowing leading served =>
    dsimp only [next] at hnext
    split at hnext
    · cases hnext
      exact h.keep htask rfl ⟨rfl, rfl, rfl⟩ (.refl _) rfl (.allowed leading served) rfl
    · cases hnext
      refine h.keep htask rfl ⟨rfl, rfl, rfl⟩ (.refl _) rfl ?_ rfl
      split
      · exact .refused _ leading served
      · exact ⟨rfl, rfl, rfl, rfl, rfl⟩
  | clearingCooldown leading served =>
    cases hnext
    exact h.keep htask rfl ⟨rfl, rfl, rfl⟩ (.eraseFailure _ key) rfl (.allowed leading served) rfl
  | electing served => exact h.electing htask hnext
  | following recv => exact h.wake htask hnext
  | woken outcome asked => exact h.follow htask hnext
  | rechecking outcome asked => exact h.recheck htask hnext
  | fencing background =>
    cases hnext
    exact h.keep htask rfl ⟨rfl, rfl, rfl⟩ (.refl _) rfl ⟨rfl, rfl, rfl, rfl, rfl⟩ rfl
  | loading background keyEpoch => exact h.capture htask hnext
  | fetching fetch =>
    obtain ⟨res, -, rfl⟩ := Option.map_eq_some_iff.mp hnext
    exact h.keep htask rfl ⟨rfl, rfl, rfl⟩ (.refl _) rfl (.answered fetch res) rfl
  | marking fetch err =>
    dsimp only [next] at hnext
    split at hnext <;> cases hnext <;>
      exact h.keep htask rfl ⟨rfl, rfl, rfl⟩ (.refl _) rfl ⟨rfl, rfl, rfl, rfl, rfl⟩ rfl
  | coolingDown fetch err =>
    cases hnext
    exact h.keep htask rfl ⟨rfl, rfl, rfl⟩ ⟨rfl, rfl, fun _ _ hentry => hentry⟩ rfl ⟨rfl, rfl, rfl, rfl, rfl⟩ rfl
  | resuming fetch err | resetting fetch origin | dropped fetch res =>
    cases hnext
    exact h.keep htask rfl ⟨rfl, rfl, rfl⟩ (.eraseFailure _ key) rfl ⟨rfl, rfl, rfl, rfl, rfl⟩ rfl
  | checking fetch origin =>
    cases hnext
    refine h.keep htask rfl ⟨rfl, rfl, rfl⟩ (.refl _) rfl ?_ rfl
    split
    · exact .store fetch origin _
    · exact ⟨rfl, rfl, rfl, rfl, rfl⟩
  | checkingEpoch fetch origin =>
    cases hnext
    refine h.keep htask rfl ⟨rfl, rfl, rfl⟩ (.refl _) rfl ?_ rfl
    split
    · exact ⟨rfl, rfl, rfl, rfl, rfl⟩
    · exact .store fetch origin _
  | inserting fetch origin entry =>
    cases hnext
    have hfence : s.cache.isSuperseded key fetch.fence = false := (Bool.not_eq_true' _).mp hcare
    exact (h.insert htask hfence).keep htask rfl ⟨rfl, rfl, rfl⟩ (.refl _) rfl ⟨rfl, rfl, rfl, rfl, rfl⟩ rfl
  | dropping fetch res =>
    cases hnext
    exact h.keep htask rfl ⟨rfl, rfl, rfl⟩ (.eraseEntry _ key) rfl ⟨rfl, rfl, rfl, rfl, rfl⟩ rfl
  | publishing fetch res | releasing next =>
    cases hnext
    exact h.release htask rfl rfl rfl rfl rfl rfl rfl
  | sending fetch res sender =>
    cases hnext
    refine h.finish htask rfl ?_ (fun sent hsent => by cases hsent; rfl)
    split <;> exact ⟨rfl, rfl, rfl, rfl, rfl⟩
  | released next sender =>
    cases hnext
    exact h.finish htask rfl (.nextPhase _ next) nofun
  | raising =>
    cases hnext
    exact h.raise htask (of_decide_eq_true hcare)
  | reading number =>
    cases hnext
    exact h.read htask
  | writing number next =>
    cases hnext
    exact h.write htask (s.free_of_careful hcare)
  | clearingEntry number =>
    cases hnext
    exact h.clear htask
  | clearingFailure number =>
    cases hnext
    exact h.finishRefresh htask
  | _ => cases hnext

omit h

end Taken

/-! ## Every action -/

theorem cancel (h : Fenced s) (htask : s.tasks[i]? = some ⟨key, phase⟩) (hcanc : phase.cancelled = some phase') :
    Fenced { s with tasks := s.tasks.set i ⟨key, phase'⟩ } := by
  have hphase : phase.progress = none ∧ phase'.Carries none := by
    cases phase with
    | following recv =>
      cases hcanc
      exact ⟨rfl, rfl, rfl, rfl, rfl, rfl⟩
    | fetching fetch =>
      dsimp only [cancelled] at hcanc
      split at hcanc
      · cases hcanc
      · cases hcanc
        exact ⟨rfl, rfl, rfl, rfl, rfl, rfl⟩
    | _ => cases hcanc
  rw [show { s with tasks := _ } = s.take i key { cache := s.cache, phase := phase' } by simp [Session.take]]
  exact h.drop htask hphase.1 ⟨rfl, rfl, rfl⟩ (.refl _) rfl hphase.2 nofun

/-- An epoch that is forgotten fences every fetch of its key. -/
theorem epochMoved_eraseEpoch (cache : ProviderFetchCache) {key' : ProviderFetchCacheKey} {fence : FetchFence}
    (h : cache.epochMoved key' fence = true) : (cache.eraseEpoch key).epochMoved key' fence = true := by
  unfold epochMoved eraseEpoch at *
  rw [HashMap.lookup_erase_eq]
  split_ifs
  · rfl
  · exact h

include h

theorem step {action : Action} (hcare : s.careful action = true) : Fenced (s.step action) := by
  cases action with
  | request key | refresh key => exact h.append key _ ⟨rfl, rfl, rfl, rfl, rfl⟩ nofun
  | move i origin =>
    dsimp only [Session.step]
    dsimp only [Session.careful] at hcare
    split
    · exact h
    · rename_i task htask
      rw [htask] at hcare
      split
      · exact h
      · rename_i effect hnext
        exact h.taken htask hcare hnext
  | cancel i =>
    dsimp only [Session.step]
    split
    · exact h
    · rename_i task htask
      split
      · exact h
      · rename_i phase hcanc
        exact h.cancel htask hcanc
  | forgetEntry key =>
    have hkept := (SameFences.eraseEntry s.cache key).entries
    exact h.recache rfl rfl (fun _ _ hmoved => hmoved)
      (fun key' entry hentry => h.entries key' entry (hkept key' entry hentry))
  | forgetEpoch key => exact h.recache rfl rfl (fun _ _ hmoved => epochMoved_eraseEpoch s.cache hmoved) h.entries
  | forgetFailure key | tick elapsed => exact h.recache rfl rfl (fun _ _ hmoved => hmoved) h.entries

theorem current : s.Current := by
  intro ans hans refresh hrefresh hkey
  exact (h.answers ans hans).2 ans.fenced rfl refresh hrefresh hkey

omit h

end Fenced

/-! ## Careful runs -/

def carefulSessions : Machine Session where
  init := {}
  step := fun s s' => ∃ action, s.careful action = true ∧ s' = s.step action

theorem careful_answers_current (s : Session) (h : Reachable carefulSessions s) : s.Current := by
  have hfenced : Fenced s := h.invariant (I := Fenced) .init (by
    rintro s _ hs ⟨action, hcareful, rfl⟩
    exact hs.step hcareful)
  exact hfenced.current

namespace Example

def styleKey : ProviderFetchCacheKey := ⟨"style", [], .json, "https://origin.test/style.json"⟩

def styleBody (byte : UInt8) : Except HttpError ProviderOriginOutcome :=
  .ok (.modified ⟨[byte], ⟨true, 100, 0, ""⟩, ⟨none, none⟩, none, 0⟩)

def moves (task steps : ℕ) : List Action := List.replicate steps (.move task none)

def providerRun (actions : List Action) : Session := actions.foldl Session.step {}

/-- A refresh comes between the check of a store and its insertion, and then its epoch is forgotten. -/
def refreshBeforeInsert : List Action :=
  .request styleKey :: moves 0 5 ++ .move 0 (some (styleBody 1)) :: moves 0 2 ++
    .refresh styleKey :: moves 1 5 ++ moves 0 1 ++ .forgetEpoch styleKey :: .request styleKey :: moves 2 2

/-- The epoch of the first refresh is captured, then forgotten, and the second refresh counts up to it again. -/
def epochCountsAgain : List Action :=
  .refresh styleKey :: moves 0 5 ++ .request styleKey :: moves 1 5 ++ .forgetEpoch styleKey :: .refresh styleKey ::
    moves 2 5 ++ .move 1 (some (styleBody 1)) :: moves 1 4 ++ .request styleKey :: moves 3 2

/-- Two refreshes read the same epoch. A fetch captures what the second one wrote, a third one raises it, and the first
one writes it back. Nothing is forgotten. -/
def epochWrittenBack : List Action :=
  .refresh styleKey :: moves 0 2 ++ .refresh styleKey :: moves 1 5 ++ .request styleKey :: moves 2 5 ++
    .refresh styleKey :: moves 3 5 ++ moves 0 3 ++ .move 2 (some (styleBody 1)) :: moves 2 4 ++
      .request styleKey :: moves 4 2

instance (s : Session) : Decidable s.Current :=
  inferInstanceAs (Decidable (∀ answer ∈ s.answers, ∀ refresh ∈ s.ended.take answer.asked,
    refresh.1 = answer.key → refresh.2 ≤ answer.fenced))

theorem overtaken_fetches_served :
    (Reachable sessions (providerRun refreshBeforeInsert) ∧ ¬ (providerRun refreshBeforeInsert).Current) ∧
    (Reachable sessions (providerRun epochCountsAgain) ∧ ¬ (providerRun epochCountsAgain).Current) ∧
    (Reachable sessions (providerRun epochWrittenBack) ∧ ¬ (providerRun epochWrittenBack).Current) :=
  ⟨⟨reachable_foldl Session.step {} _, by decide +kernel⟩, ⟨reachable_foldl Session.step {} _, by decide +kernel⟩,
    ⟨reachable_foldl Session.step {} _, by decide +kernel⟩⟩

/-- A fetch is overtaken by a refresh while its origin answers. A follower that waits for it fetches again, and a
later request is answered from that. -/
def refreshDuringFetch : List Action :=
  .request styleKey :: moves 0 5 ++ .request styleKey :: moves 1 2 ++ .refresh styleKey :: moves 2 5 ++
    .move 0 (some (styleBody 1)) :: moves 0 7 ++ moves 1 9 ++ .move 1 (some (styleBody 2)) :: moves 1 6 ++
      .request styleKey :: moves 3 2

theorem refresh_during_fetch_current :
    (providerRun refreshDuringFetch).answers.map (fun answer => (answer.asked, answer.fenced)) = [(1, 1)] ∧
      (providerRun refreshDuringFetch).Current := by
  have hstep : ∀ (s : Session) (action : Action), s.careful action = true →
      carefulSessions.step s (s.step action) :=
    fun _ action h => ⟨action, h, rfl⟩
  have hrun : Reachable carefulSessions (providerRun refreshDuringFetch) :=
    Reachable.init.foldl_checked Session.careful hstep (by decide +kernel)
  exact ⟨by decide +kernel, careful_answers_current _ hrun⟩

end Example

end Mappf.Ishikari.Upstream
