import Mappf.Ishikari.Absence

/-! # Deleted archives stay deleted, if they are not looked for in vain

One leader listens for a tileset at a time, so what it has heard still stands when it installs a bootstrap or puts
off its revalidation. Under the two conditions of `Steady` a bootstrap that the cache serves is backed by a supply
after the last absence. -/
namespace Mappf.Ishikari
open ArchiveCache Option List

open Common (GuardMoved Leaders SingleFlight)

variable {γ μ : Type}

/-! ## What others hear -/

section Hear

variable {log : List (Word γ)} {n : ℕ} {tid : String} {word : Option (Word γ)} {phase : Phase γ μ}

theorem BackedIfAny.some {arch : VersionedArchive γ μ} (h : Backed log n tid arch.key.generation) :
    BackedIfAny log n tid (some arch) := by
  intro a ha
  cases ha
  exact h

theorem BackedIfAny.none : BackedIfAny log n tid (none : Option (VersionedArchive γ μ)) := by
  intro a ha
  cases ha

theorem lastWord_hear (h : ∀ w, word = some w → w.tilesetId ≠ tid) :
    lastWord (log ++ word.toList) tid = lastWord log tid := by
  cases word with
  | none => rw [toList_none, append_nil]
  | some w => rw [toList_some, lastWord_append, if_neg (h w rfl)]

theorem ne_absent_of_other (h : ∀ w, word = some w → w.tilesetId ≠ tid) : word ≠ some (.absent tid) :=
  fun heq => h _ heq rfl

theorem LoadWork.Settled.hear {phase : LoadWork γ μ} (h : phase.Settled log tid)
    (hother : ∀ w, word = some w → w.tilesetId ≠ tid) : phase.Settled (log ++ word.toList) tid := by
  cases phase with
  | clearingAbsence arch boot | installing arch boot =>
    exact ⟨h.1, h.2.hear (ne_absent_of_other hother)⟩
  | deferring error =>
    show lastWord _ _ ≠ _
    rw [lastWord_hear hother]
    exact h
  | _ => trivial

theorem BackedIfAny.append {arch : Option (VersionedArchive γ μ)} (h : BackedIfAny log n tid arch)
    (hn : n ≤ log.length) (words : List (Word γ)) : BackedIfAny (log ++ words) n tid arch :=
  fun a ha => (h a ha).append hn words

theorem resultOk.append {res : Except ReaderError (Option (VersionedArchive γ μ))}
    (h : resultOk (BackedIfAny log n tid) res) (hn : n ≤ log.length) (words : List (Word γ)) :
    resultOk (BackedIfAny (log ++ words) n tid) res := by
  cases res with
  | ok arch => exact BackedIfAny.append h hn words
  | error error => trivial

theorem Load.Settled.hear {load : Load γ μ} (h : load.Settled log n tid) (hn : n ≤ log.length)
    (hother : ∀ w, word = some w → w.tilesetId = tid → load.guard tid = none) :
    load.Settled (log ++ word.toList) n tid := by
  cases load with
  | working phase =>
    refine LoadWork.Settled.hear h ?_
    intro w hw htileset
    cases hother w hw htileset
  | releasing res | sending _ res =>
    cases res with
    | none => trivial
    | some res => exact resultOk.append h hn _
  | _ => trivial

theorem Phase.Labels.append (h : phase.Labels (Backed log n tid)) (hn : n ≤ log.length)
    (words : List (Word γ)) : phase.Labels (Backed (log ++ words) n tid) := by
  cases phase with
  | leaf | tile | metadata | bootstrapBytes | bootstrapRange | metadataRange | leafRange => exact Backed.append h hn words
  | returned res =>
    cases res with
    | error error => trivial
    | ok resource =>
      cases resource with
      | none => trivial
      | some resource => exact Backed.append h hn words
  | invalidating | unreachable | gone => trivial
  | loading | reloading => exact h

theorem Phase.Settled.hear (h : phase.Settled log n tid) (hn : n ≤ log.length)
    (hother : ∀ w, word = some w → w.tilesetId = tid → phase.load.bind (Load.guard tid) = none) :
    phase.Settled (log ++ word.toList) n tid := by
  unfold Phase.Settled at h ⊢
  cases hload : phase.load with
  | none =>
    rw [hload] at h
    exact Phase.Labels.append h hn _
  | some load =>
    rw [hload] at h hother
    exact Load.Settled.hear h hn hother

end Hear

variable [DecidableEq γ] {d : Deployment γ μ} {reader reader' : Reader γ μ} {log : List (Word γ)} {n : ℕ}
  {tid : String} {mode : LoadMode} {answer : Answer γ} {revalidating : Bool} {phase : LoadWork γ μ}

/-! ## One step of a load -/

def Reader.Fresh (reader : Reader γ μ) (log : List (Word γ)) (tilesetId : String) : Prop :=
  ∀ cached, reader.cache.archives.lookup tilesetId = some cached →
    cached.revalidateAfter ≤ reader.now ∨ Backed log log.length tilesetId cached.generation

theorem Reader.Fresh.get (h : reader.Fresh log tid) {arch : VersionedArchive γ μ}
    (hget : reader.cache.get reader.now tid = some arch) : Backed log log.length tid arch.key.generation := by
  obtain ⟨cached, hlook, hlt, rfl⟩ := get_eq_some hget
  cases h cached hlook with
  | inl hexp => omega
  | inr hbacked => exact hbacked

inductive Load.Came (d : Deployment γ μ) (log : List (Word γ)) (n : ℕ) (tilesetId : String) (answer : Answer γ)
    (phase : LoadWork γ μ) : Load γ μ → Prop
  | quiet (load : Load γ μ) (hword : load.word tilesetId = none) (hguard : load.guard tilesetId = some tilesetId)
      (hsettled : load.Settled log n tilesetId) : Came d log n tilesetId answer phase load
  | absent (revalidating : Bool) (hphase : phase = .observing revalidating)
      (hobserved : d.observeRange tilesetId answer.object = .error .notFound) :
      Came d log n tilesetId answer phase (.working .markingAbsent)
  | supplied (archive : VersionedArchive γ μ) (bootstrap : Bytes) (hkey : archive.key.tilesetId = tilesetId) :
      Came d log n tilesetId answer phase (.working (.clearingAbsence archive bootstrap))

omit [DecidableEq γ] in
theorem Load.failed_came (error : ReaderError) (hsteady : revalidating = true → lastWord log tid ≠ some (.absent tid)) :
    Came d log n tid answer (.observing revalidating) (Load.failed revalidating error) := by
  unfold Load.failed
  split_ifs with hreval
  · exact .quiet _ rfl rfl (hsteady hreval)
  · exact .quiet _ rfl rfl trivial

omit [DecidableEq γ] in
theorem Load.observed_came (hsteady : revalidating = true → d.unreadable tid answer.object = true →
      lastWord log tid ≠ some (.absent tid)) :
    Came d log n tid answer (.observing revalidating)
      (Load.observed d tid revalidating (d.observeRange tid answer.object)) := by
  unfold Deployment.unreadable at hsteady
  cases hobs : d.observeRange tid answer.object with
  | error error =>
    rw [hobs] at hsteady
    cases error with
    | notFound => exact .absent revalidating rfl hobs
    | _ =>
      exact failed_came _ (fun hreval => hsteady hreval rfl)
  | ok observed =>
    obtain ⟨gen, bytes⟩ := observed
    rw [hobs] at hsteady
    dsimp only at hsteady
    unfold Load.observed
    dsimp only
    cases hdec : d.decodeBootstrap bytes with
    | error failure =>
      rw [hdec] at hsteady
      exact failed_came _ (fun hreval => hsteady hreval rfl)
    | ok arch => exact .supplied _ _ rfl

omit [DecidableEq γ] in
theorem Load.received_came (transfer : Pmtiles.BootstrapTransfer γ) {incl : Bool} :
    Came d log n tid answer (.asking incl) (Load.received d tid transfer) := by
  unfold Load.received
  split
  · exact .quiet _ rfl rfl trivial
  · split
    · exact .supplied _ _ rfl
    · split
      · exact .quiet _ rfl rfl trivial
      · exact .supplied _ _ rfl

theorem Load.work_came (mode : LoadMode) (hfresh : reader.Fresh log tid) (hn : n ≤ log.length)
    (hphase : phase.Settled log tid)
    (hsteady : ∀ revalidating, phase = .observing revalidating → revalidating = true →
      d.unreadable tid answer.object = true → lastWord log tid ≠ some (.absent tid)) :
    Came d log n tid answer phase (Load.work d reader tid mode answer phase).2 := by
  cases phase with
  | rechecking =>
    unfold Load.work
    dsimp only
    split
    case h_1 arch harch => exact .quiet _ rfl rfl (BackedIfAny.some ((hfresh.get harch).mono hn))
    case h_2 => exact .quiet _ rfl rfl trivial
  | recheckingAbsence =>
    unfold Load.work
    dsimp only
    split_ifs
    · exact .quiet _ rfl rfl BackedIfAny.none
    · exact .quiet _ rfl rfl trivial
  | routing =>
    unfold Load.work
    split_ifs <;> exact .quiet _ rfl rfl trivial
  | asking incl =>
    unfold Load.work
    dsimp only
    split
    · exact received_came _
    · exact .quiet _ rfl rfl trivial
  | observing revalidating => exact observed_came (hsteady revalidating rfl)
  | markingAbsent => exact .quiet _ rfl rfl BackedIfAny.none
  | clearingAbsence arch boot => exact .quiet _ rfl rfl hphase
  | installing arch boot => exact .quiet _ rfl rfl (BackedIfAny.some (hphase.2.mono hn))
  | deferring error => exact .quiet _ rfl rfl trivial
  | readingStale error =>
    unfold Load.work
    dsimp only
    split
    case h_1 stale hstale => exact .quiet _ rfl rfl (BackedIfAny.some ((hfresh.get hstale).mono hn))
    case h_2 => exact .quiet _ rfl rfl trivial

/-- The cache after a step of a load: what was there, or a bootstrap of the tileset that is backed. -/
def Reader.Refilled (reader reader' : Reader γ μ) (log : List (Word γ)) (tilesetId : String) (kept quiet : Prop) :
    Prop :=
  ∀ t cached', reader'.cache.archives.lookup t = some cached' →
    (∃ cached, reader.cache.archives.lookup t = some cached ∧ cached'.generation = cached.generation ∧
      cached'.revalidateAfter = cached.revalidateAfter ∧ (t = tilesetId → kept)) ∨
    (t = tilesetId ∧ quiet ∧ Backed log log.length tilesetId cached'.generation)

theorem Reader.Refilled.of_eq {kept quiet : Prop} (h : reader'.cache.archives = reader.cache.archives) (hkept : kept) :
    reader.Refilled reader' log tid kept quiet :=
  fun _ cached' hlook => .inl ⟨cached', h ▸ hlook, rfl, rfl, fun _ => hkept⟩

theorem Load.work_refilled (hphase : phase.Settled log tid)
    (hdeferring : ∀ error cached, phase = .deferring error → reader.cache.archives.lookup tid = some cached →
      Backed log log.length tid cached.generation) :
    reader.Refilled (Load.work d reader tid mode answer phase).1 log tid
      (Load.installs (.working phase) = true →
        Load.installs (Load.work d reader tid mode answer phase).2 = true)
      (Load.word tid (Load.work d reader tid mode answer phase).2 = none) := by
  cases phase with
  | installing arch boot =>
    obtain ⟨rfl, hbacked⟩ := hphase
    intro t cached' hlook
    obtain ⟨rfl, rfl⟩ | ⟨hne, hold⟩ := lookup_install hlook
    · exact .inr ⟨rfl, rfl, hbacked⟩
    · exact .inl ⟨cached', hold, rfl, rfl, fun ht => absurd ht hne⟩
  | deferring error =>
    intro t cached' hlook
    obtain hold | ⟨rfl, old, time, hold, rfl⟩ := lookup_defer hlook
    · exact .inl ⟨cached', hold, rfl, rfl, nofun⟩
    · exact .inr ⟨rfl, rfl, hdeferring error old rfl hold⟩
  | clearingAbsence arch boot => exact .of_eq rfl (fun _ => rfl)
  | _ =>
    exact .of_eq rfl nofun

/-- What a word leaves behind: an absence, a cache that serves nothing for the tileset; a supply, a leader that is
about to install it. -/
def Reader.Takes (reader : Reader γ μ) (tilesetId : String) (installs : Bool) (word : Word γ) : Prop :=
  (word = .absent tilesetId ∧ ∀ cached, reader.cache.archives.lookup tilesetId = some cached →
    cached.revalidateAfter ≤ reader.now) ∨
  ((∃ generation, word = .supplied tilesetId generation) ∧ installs = true)

structure Load.Effect (reader reader' : Reader γ μ) (log : List (Word γ)) (n : ℕ) (tilesetId : String)
    (load : Load γ μ) (progress : LoadProgress γ μ) : Prop where
  now : reader'.now = reader.now
  guard : GuardMoved reader.bootstrapInflight.entries reader'.bootstrapInflight.entries (load.guard tilesetId)
    (progress.load.bind (Load.guard tilesetId))
  settled : progress.Ok (LoadWork.Settled (log ++ (progress.load.bind (Load.word tilesetId)).toList) tilesetId)
    (BackedIfAny (log ++ (progress.load.bind (Load.word tilesetId)).toList) n tilesetId)
  refilled : reader.Refilled reader' log tilesetId (load.installs = true → progress.load.any Load.installs = true)
    (progress.load.bind (Load.word tilesetId) = none)
  word : ∀ w, progress.load.bind (Load.word tilesetId) = some w →
    load.guard tilesetId = some tilesetId ∧ reader.Takes tilesetId (progress.load.any Load.installs) w

structure Call.Effect (reader reader' : Reader γ μ) (log : List (Word γ)) (n : ℕ) (call after : Call γ μ) : Prop where
  request : after.request = call.request
  now : reader'.now = reader.now
  guard : GuardMoved reader.bootstrapInflight.entries reader'.bootstrapInflight.entries call.guard after.guard
  settled : after.phase.Settled (log ++ after.word.toList) n call.request.tilesetId
  refilled : reader.Refilled reader' log call.request.tilesetId (call.installs = true → after.installs = true)
    (after.word = none)
  word : ∀ w, after.word = some w → call.guard = some call.request.tilesetId ∧
    reader.Takes call.request.tilesetId after.installs w

section Effect

variable {load : Load γ μ} {prog : LoadProgress γ μ}

theorem Load.Effect.quiet (hnow : reader'.now = reader.now) (harchs : reader'.cache.archives = reader.cache.archives)
    (hguard : GuardMoved reader.bootstrapInflight.entries reader'.bootstrapInflight.entries (load.guard tid)
      (prog.load.bind (Load.guard tid)))
    (hword : prog.load.bind (Load.word tid) = none) (hinst : load.installs = false)
    (hsettled : prog.Ok (LoadWork.Settled log tid) (BackedIfAny log n tid)) :
    Load.Effect reader reader' log n tid load prog where
  now := hnow
  guard := hguard
  settled := by
    rw [hword, toList_none, append_nil]
    exact hsettled
  refilled := .of_eq harchs (fun h => by rw [hinst] at h; cases h)
  word := by
    intro w hw
    rw [hword] at hw
    cases hw

theorem Load.Came.effect {load' : Load γ μ} (h : Came d log n tid answer phase load')
    (hfly : reader'.bootstrapInflight = reader.bootstrapInflight) (hnow : reader'.now = reader.now)
    (hrefilled : reader.Refilled reader' log tid
      (Load.installs (.working phase) = true → load'.installs = true) (load'.word tid = none))
    (hunserved : d.observeRange tid answer.object = .error .notFound → (∃ r, phase = .observing r) →
      reader.cache.get reader.now tid = none) :
    Load.Effect reader reader' log n tid (.working phase) (.on load') := by
  have hguard : load'.guard tid = some tid := by
    cases h with
    | quiet _ _ hguard => exact hguard
    | absent | supplied => rfl
  refine ⟨hnow, .inl ⟨by rw [hfly], hguard⟩, ?_, hrefilled, ?_⟩
  · show load'.Settled (log ++ (load'.word tid).toList) n tid
    cases h with
    | quiet _ hword _ hsettled =>
      rw [hword, toList_none, append_nil]
      exact hsettled
    | absent => trivial
    | supplied arch boot hkey => exact ⟨hkey, Backed.supplied⟩
  · intro w hw
    refine ⟨rfl, ?_⟩
    cases h with
    | quiet _ hword =>
      have hnone : load'.word tid = some w := hw
      rw [hword] at hnone
      cases hnone
    | absent revalidating hphase hobs =>
      cases hw
      exact .inl ⟨rfl, fun cached hlook =>
        get_eq_none (hunserved hobs ⟨revalidating, hphase⟩) hlook⟩
    | supplied arch boot hkey =>
      cases hw
      exact .inr ⟨⟨_, rfl⟩, rfl⟩

theorem Load.next_effect (hfresh : reader.Fresh log tid) (hn : n ≤ log.length) (hload : load.Settled log n tid)
    (hdeferring : ∀ error cached, load = .working (.deferring error) →
      reader.cache.archives.lookup tid = some cached → Backed log log.length tid cached.generation)
    (hsteady : ∀ revalidating, load = .working (.observing revalidating) →
      (d.observeRange tid answer.object = .error .notFound → reader.cache.get reader.now tid = none) ∧
      (revalidating = true → d.unreadable tid answer.object = true →
        lastWord log tid ≠ some (.absent tid)))
    (h : load.next d reader tid mode answer = some (reader', prog)) :
    Load.Effect reader reader' log n tid load prog := by
  cases load with
  | looking =>
    cases h
    cases hget : reader.cache.get reader.now tid with
    | some arch =>
      exact .quiet rfl rfl (.inl ⟨rfl, rfl⟩) rfl rfl (BackedIfAny.some ((hfresh.get hget).mono hn))
    | none => exact .quiet rfl rfl (.inl ⟨rfl, rfl⟩) rfl rfl trivial
  | missed =>
    cases h
    split_ifs
    · exact .quiet rfl rfl (.inl ⟨rfl, rfl⟩) rfl rfl BackedIfAny.none
    · exact .quiet rfl rfl (.inl ⟨rfl, rfl⟩) rfl rfl trivial
  | working phase =>
    cases h
    have hcame := work_came mode hfresh hn hload (fun revalidating hphase => (hsteady revalidating (congrArg _ hphase)).2)
    refine hcame.effect (by cases phase <;> rfl) (by cases phase <;> rfl) (work_refilled hload ?_) ?_
    · intro error cached hphase
      exact hdeferring error cached (congrArg _ hphase)
    · rintro hobs ⟨revalidating, hphase⟩
      exact (hsteady revalidating (congrArg _ hphase)).1 hobs
  | electing =>
    unfold Load.next Flying.next at h
    obtain ⟨recv, hbegin⟩ | ⟨hnone, hlead, hents⟩ := reader.bootstrapInflight.begin_cases tid
    · rw [hbegin] at h
      cases h
      exact .quiet rfl rfl (.inl ⟨rfl, rfl⟩) rfl rfl trivial
    · cases hbegin : reader.bootstrapInflight.begin tid with
      | mk flights flight =>
        rw [hbegin] at hlead hents h
        cases hlead
        cases h
        refine .quiet rfl rfl (.inr (.inl ⟨tid, _, hnone, hents, rfl, rfl⟩)) ?_ rfl ?_
        · cases mode with
          | routed | here => rfl
        · cases mode with
          | routed | here => trivial
  | following recv =>
    unfold Load.next Flying.next at h
    dsimp only at h
    cases hwait : reader.bootstrapInflight.wait recv with
    | none =>
      rw [hwait] at h
      cases h
    | some outcome =>
      rw [hwait] at h
      cases outcome with
      | none | some error =>
        cases h
        exact .quiet rfl rfl (.inl ⟨rfl, rfl⟩) rfl rfl trivial
  | releasing res =>
    cases h
    exact .quiet rfl rfl (.inr (.inr ⟨tid, rfl, rfl, rfl⟩)) rfl rfl hload
  | sending sender res =>
    cases h
    cases res with
    | none => exact .quiet rfl rfl (.inl ⟨SingleFlight.entries_finish _ _ _, rfl⟩) rfl rfl trivial
    | some res => exact .quiet rfl rfl (.inl ⟨SingleFlight.entries_finish _ _ _, rfl⟩) rfl rfl hload

end Effect

/-! ## One step of a call -/

namespace Call

variable {call after : Call γ μ} {load : Load γ μ} {prog : LoadProgress γ μ}

omit [DecidableEq γ] in
theorem quiet_of_labels {P : γ → Prop} (h : call.phase.Labels P) : call.guard = none ∧ call.word = none := by
  rw [Call.guard, Call.word]
  cases h.load with
  | inl hload | inr hload => rw [hload]; exact ⟨rfl, rfl⟩

theorem Effect.labels (hload : call.phase.load = none) (hreq : after.request = call.request)
    (hkept : reader.Kept reader') (hlabels : after.phase.Labels (Backed log n call.request.tilesetId)) :
    Call.Effect reader reader' log n call after := by
  have hbef : call.guard = none := by rw [Call.guard, hload]; rfl
  have hafter := quiet_of_labels hlabels
  refine ⟨hreq, hkept.now, .inl ⟨by rw [hkept.inflight], by rw [hafter.1, hbef]⟩, ?_, ?_, ?_⟩
  · rw [hafter.2, toList_none, append_nil]
    exact hlabels.settled
  · intro t cached' hlook
    obtain ⟨cached, hold, hgen, htime⟩ := hkept.entries t cached' hlook
    refine .inl ⟨cached, hold, hgen, htime, fun _ hinst => ?_⟩
    rw [Call.installs, hload] at hinst
    cases hinst
  · intro w hw
    simp [hafter.2] at hw

/-- A call does with its load what the load does, or goes on with what the load gave it. -/
theorem Effect.of_load (heffect : Load.Effect reader reader' log n call.request.tilesetId load prog)
    (hload : call.phase.load = some load) (hreq : after.request = call.request)
    (hafter : (∃ load', prog = .on load' ∧ after.phase.load = some load') ∨
      (prog.load = none ∧ after.phase.Labels (Backed log n call.request.tilesetId))) :
    Call.Effect reader reader' log n call after := by
  have hguard : call.guard = load.guard call.request.tilesetId := by rw [Call.guard, hload]; rfl
  have hinst : call.installs = load.installs := by rw [Call.installs, hload]; rfl
  obtain ⟨load', rfl, hload'⟩ | ⟨hnone, hlabels⟩ := hafter
  · have hword' : after.word = Load.word call.request.tilesetId load' := by rw [Call.word, hload', hreq]; rfl
    have hguard' : after.guard = Load.guard call.request.tilesetId load' := by rw [Call.guard, hload', hreq]; rfl
    have hinst' : after.installs = Load.installs load' := by rw [Call.installs, hload']; rfl
    refine ⟨hreq, heffect.now, ?_, ?_, ?_, ?_⟩
    · rw [hguard, hguard']
      exact heffect.guard
    · rw [hword', Phase.Settled, hload']
      exact heffect.settled
    · rw [hinst, hinst', hword']
      exact heffect.refilled
    · rw [hguard, hinst', hword']
      exact heffect.word
  · have hafter := quiet_of_labels hlabels
    have hmoved := heffect.guard
    have hrefilled := heffect.refilled
    rw [hnone] at hmoved hrefilled
    refine ⟨hreq, heffect.now, ?_, ?_, ?_, ?_⟩
    · rw [hguard, hafter.1]
      exact hmoved
    · rw [hafter.2, toList_none, append_nil]
      exact hlabels.settled
    · intro t cached' hlook
      obtain ⟨cached, hold, hgen, htime, hkept⟩ | ⟨ht, -, hbacked⟩ := hrefilled t cached' hlook
      · refine .inl ⟨cached, hold, hgen, htime, fun ht hinstalling => ?_⟩
        have habsurd := hkept ht (hinst ▸ hinstalling)
        cases habsurd
      · exact .inr ⟨ht, hafter.2, hbacked⟩
    · intro w hw
      simp [hafter.2] at hw

omit [DecidableEq γ] in
theorem afterLoad_cases
    (hsettled : prog.Ok (LoadWork.Settled log call.request.tilesetId) (BackedIfAny log n call.request.tilesetId)) :
    (∃ load', prog = .on load' ∧ (call.afterLoad prog).load = some load') ∨
      (prog.load = none ∧ (call.afterLoad prog).Labels (Backed log n call.request.tilesetId)) := by
  cases prog with
  | on load => exact .inl ⟨load, rfl, rfl⟩
  | dropped => exact .inr ⟨rfl, trivial⟩
  | done res =>
    refine .inr ⟨rfl, ?_⟩
    cases res with
    | error error => trivial
    | ok arch =>
      cases arch with
      | none => trivial
      | some arch => exact loaded_labels (hsettled arch rfl)

omit [DecidableEq γ] in
theorem afterReload_cases (call : Call γ μ) (log : List (Word γ)) (n : ℕ) (prog : LoadProgress γ μ) :
    (∃ load', prog = .on load' ∧ (call.afterReload prog).phase.load = some load') ∨
      (prog.load = none ∧ (call.afterReload prog).phase.Labels (Backed log n call.request.tilesetId)) := by
  cases prog with
  | on load => exact .inl ⟨load, rfl, rfl⟩
  | dropped => exact .inr ⟨rfl, trivial⟩
  | done res =>
    refine .inr ⟨rfl, ?_⟩
    cases res with
    | error error => trivial
    | ok arch =>
      unfold afterReload
      split_ifs
      · rfl
      · trivial

omit [DecidableEq γ] in
theorem afterReload_request (call : Call γ μ) (prog : LoadProgress γ μ) :
    (call.afterReload prog).request = call.request := by
  cases prog with
  | on | dropped => rfl
  | done res =>
    cases res with
    | error | ok => rfl

theorem settled_done (heffect : Load.Effect reader reader' log n tid load prog) (hnone : prog.load = none) :
    prog.Ok (LoadWork.Settled log tid) (BackedIfAny log n tid) := by
  have hsettled := heffect.settled
  rw [hnone, bind_none, toList_none, append_nil] at hsettled
  exact hsettled

theorem next_effect (hfresh : reader.Fresh log call.request.tilesetId) (hn : n ≤ log.length)
    (hsettled : call.phase.Settled log n call.request.tilesetId)
    (hdeferring : ∀ error cached, call.phase.load = some (.working (.deferring error)) →
      reader.cache.archives.lookup call.request.tilesetId = some cached →
      Backed log log.length call.request.tilesetId cached.generation)
    (hsteady : ∀ revalidating, call.phase.load = some (.working (.observing revalidating)) →
      (d.observeRange call.request.tilesetId answer.object = .error .notFound →
        reader.cache.get reader.now call.request.tilesetId = none) ∧
      (revalidating = true → d.unreadable call.request.tilesetId answer.object = true →
        lastWord log call.request.tilesetId ≠ some (.absent call.request.tilesetId)))
    (h : call.next d reader answer = some (reader', after)) : Call.Effect reader reader' log n call after := by
  unfold Phase.Settled at hsettled
  cases hload : call.phase.load with
  | none =>
    rw [hload] at hsettled
    obtain ⟨hreq, hkept, hlabels⟩ := next_labels hload hsettled h
    exact .labels hload hreq hkept hlabels
  | some load =>
    rw [hload] at hsettled hdeferring hsteady
    have hload' := hload
    have heffect : ∀ {mode reader₁ prog}, load.next d reader call.request.tilesetId mode answer = some (reader₁, prog) →
        Load.Effect reader reader₁ log n call.request.tilesetId load prog :=
      Load.next_effect hfresh hn hsettled (fun error cached heq => hdeferring error cached (congrArg _ heq))
        (fun revalidating heq => hsteady revalidating (congrArg _ heq))
    unfold next at h
    cases hphase : call.phase with
    | loading load' =>
      rw [hphase] at h hload'
      cases hload'
      obtain ⟨prog, hnext, rfl⟩ := handed_on h
      refine .of_load (heffect hnext) hload rfl ?_
      cases prog with
      | on load' => exact .inl ⟨load', rfl, rfl⟩
      | dropped | done => exact afterLoad_cases (settled_done (heffect hnext) rfl)
    | reloading load' =>
      rw [hphase] at h hload'
      cases hload'
      obtain ⟨prog, hnext, rfl⟩ := handed_on h
      exact .of_load (heffect hnext) hload (afterReload_request call prog) (afterReload_cases call log n prog)
    | _ =>
      rw [hphase] at hload'
      cases hload'

/-- A load is dropped while it waits, with nothing heard that is not installed. -/
theorem cancel_load (hcanc : load.cancel Load.awaits = some prog) :
    Load.Effect reader reader log n tid load prog ∧ (prog = .dropped ∨ prog = .on (.releasing none)) := by
  cases load with
  | following recv =>
    cases hcanc
    exact ⟨.quiet rfl rfl (.inl ⟨rfl, rfl⟩) rfl rfl trivial, .inl rfl⟩
  | working phase =>
    unfold Flying.cancel at hcanc
    dsimp only at hcanc
    split_ifs at hcanc with hwait
    cases hcanc
    refine ⟨.quiet rfl rfl (.inl ⟨rfl, rfl⟩) rfl ?_ trivial, .inr rfl⟩
    cases phase with
    | asking | observing => rfl
    | _ => cases hwait
  | _ => cases hcanc

theorem cancel_effect (hsettled : call.phase.Settled log n call.request.tilesetId) (h : call.cancel = some after) :
    Call.Effect reader reader log n call after ∧ after.word = none := by
  have hkept : reader.Kept reader := .of_eq rfl rfl rfl
  obtain ⟨req, att, phase⟩ := call
  cases phase with
  | loading load | reloading load =>
    obtain ⟨prog, hcanc, rfl⟩ := map_eq_some_iff.mp h
    obtain ⟨heffect, rfl | rfl⟩ := cancel_load hcanc
    · exact ⟨.of_load heffect rfl rfl (.inr ⟨rfl, trivial⟩), rfl⟩
    · exact ⟨.of_load heffect rfl rfl (.inl ⟨_, rfl, rfl⟩), rfl⟩
  | leaf arch walker range load =>
    obtain ⟨prog, -, rfl⟩ := map_eq_some_iff.mp h
    have hbacked : Backed log n req.tilesetId arch.key.generation := hsettled
    have hlabels := afterLeaf_labels ⟨req, att, .leaf arch walker range load⟩ hbacked walker range prog
    exact ⟨.labels rfl rfl hkept hlabels, (quiet_of_labels hlabels).2⟩
  | metadata arch load =>
    obtain ⟨prog, -, rfl⟩ := map_eq_some_iff.mp h
    have hbacked : Backed log n req.tilesetId arch.key.generation := hsettled
    have hlabels := afterMetadata_labels ⟨req, att, .metadata arch load⟩ hbacked prog
    exact ⟨.labels rfl rfl hkept hlabels, (quiet_of_labels hlabels).2⟩
  | tile _ _ range | bootstrapRange _ range | metadataRange _ _ range | leafRange _ _ _ range =>
    cases range with
    | opening => cases h
    | reading read =>
      cases h
      exact ⟨.labels rfl rfl hkept trivial, rfl⟩
  | _ => cases h

end Call

/-! ## Runs -/

namespace Watched

structure Inv (s : Watched γ μ) : Prop where
  length : s.since.length = s.system.calls.length
  since : ∀ (i n : ℕ), s.since[i]? = some n → n ≤ s.log.length
  leaders : Leaders s.system.reader.bootstrapInflight.entries Call.guard s.system.calls
  fresh : ∀ tilesetId, s.system.reader.Fresh s.log tilesetId
  /-- Where absence is not the last word, the cached generation is backed or about to be replaced. -/
  current : ∀ tilesetId cached, s.system.reader.cache.archives.lookup tilesetId = some cached →
    lastWord s.log tilesetId = some (.absent tilesetId) ∨ Backed s.log s.log.length tilesetId cached.generation ∨
      ∃ (i : ℕ) (call : Call γ μ), s.system.calls[i]? = some call ∧ call.request.tilesetId = tilesetId ∧
        call.installs = true
  calls : ∀ (i n : ℕ) call, s.system.calls[i]? = some call → s.since[i]? = some n →
    call.phase.Settled s.log n call.request.tilesetId

variable {s t : Watched γ μ} {i : ℕ} {call after : Call γ μ} {action : Action γ}

omit [DecidableEq γ] in
theorem guard_of_installs (h : call.installs = true) : call.guard = some call.request.tilesetId := by
  unfold Call.installs at h
  unfold Call.guard
  cases hload : call.phase.load with
  | none =>
    simp [hload] at h
  | some load =>
    rw [hload] at h
    cases load with
    | working phase => rfl
    | _ => cases h

theorem Inv.began (h : s.Inv) (hcall : s.system.calls[i]? = some call) : ∃ n, s.since[i]? = some n := by
  obtain ⟨hi, -⟩ := List.getElem?_eq_some_iff.mp hcall
  exact ⟨_, getElem?_eq_getElem (h.length ▸ hi)⟩

/-- A leader that puts off a revalidation does so for a generation that is backed. -/
theorem Inv.deferring (h : s.Inv) (hcall : s.system.calls[i]? = some call) {error : ReaderError}
    {cached : CachedArchive γ μ} (hload : call.phase.load = some (.working (.deferring error)))
    (hlook : s.system.reader.cache.archives.lookup call.request.tilesetId = some cached) :
    Backed s.log s.log.length call.request.tilesetId cached.generation := by
  obtain ⟨n, hn⟩ := h.began hcall
  have hsettled := h.calls i n call hcall hn
  rw [Phase.Settled, hload] at hsettled
  obtain habs | hbacked | ⟨j, other, hother, htileset, hinst⟩ := h.current _ cached hlook
  · exact absurd habs hsettled
  · exact hbacked
  · have hguard : call.guard = some call.request.tilesetId := by rw [Call.guard, hload]; rfl
    have hguard' := guard_of_installs hinst
    rw [htileset] at hguard'
    obtain rfl := h.leaders.alone i j call other _ hcall hother hguard hguard'
    rw [hcall] at hother
    cases hother
    rw [Call.installs, hload] at hinst
    cases hinst

theorem Inv.moved (h : s.Inv) (hcall : s.system.calls[i]? = some call)
    (heffect : ∀ n, s.since[i]? = some n → Call.Effect s.system.reader reader' s.log n call after) :
    Inv { system := ⟨reader', s.system.calls.set i after⟩, log := s.log ++ after.word.toList, since := s.since } := by
  obtain ⟨n, hn⟩ := h.began hcall
  have heff := heffect n hn
  have hi := lt_length hcall
  have hself : (s.system.calls.set i after)[i]? = some after := getElem?_set_self hi
  -- a word is about the tileset of the call that has heard it
  have htileset : ∀ w, after.word = some w → w.tilesetId = call.request.tilesetId := by
    intro w hw
    obtain ⟨-, ⟨rfl, -⟩ | ⟨⟨gen, rfl⟩, -⟩⟩ := heff.word w hw
    · rfl
    · rfl
  have hlonger : s.log.length ≤ (s.log ++ after.word.toList).length := by
    rw [length_append]
    omega
  refine ⟨?_, ?_, h.leaders.move hcall heff.guard, ?_, ?_, ?_⟩
  · rw [length_set]
    exact h.length
  · intro j m hm
    exact (h.since j m hm).trans hlonger
  · intro tid cached' hlook
    obtain ⟨cached, hold, hgen, htime, -⟩ | ⟨rfl, hquiet, hbacked⟩ := heff.refilled tid cached' hlook
    · rw [hgen, htime, heff.now]
      by_cases hword : after.word = some (.absent tid)
      · obtain ⟨-, ⟨heq, hexp⟩ | ⟨⟨_, hsupplied⟩, -⟩⟩ := heff.word _ hword
        · cases heq
          exact .inl (hexp cached hold)
        · cases hsupplied
      · cases h.fresh tid cached hold with
        | inl hexp => exact .inl hexp
        | inr hbacked => exact .inr (hbacked.hear hword)
    · refine .inr (hbacked.hear ?_)
      rw [hquiet]
      exact (some_ne_none _).symm
  · intro tid cached' hlook
    obtain ⟨cached, hold, hgen, -, hkept⟩ | ⟨rfl, hquiet, hbacked⟩ := heff.refilled tid cached' hlook
    · rw [hgen]
      by_cases hword : ∃ w, after.word = some w ∧ w.tilesetId = tid
      · -- the word is the last one about the tileset
        obtain ⟨w, hw, rfl⟩ := hword
        have hlast : lastWord (s.log ++ after.word.toList) w.tilesetId = some w := by
          rw [hw, toList_some, lastWord_append, if_pos rfl]
        obtain ⟨-, ⟨rfl, -⟩ | ⟨-, hinst⟩⟩ := heff.word w hw
        · exact .inl hlast
        · refine .inr (.inr ⟨i, after, hself, ?_, hinst⟩)
          rw [heff.request, htileset w hw]
      · have hother : ∀ w, after.word = some w → w.tilesetId ≠ tid := fun w hw heq => hword ⟨w, hw, heq⟩
        rw [lastWord_hear hother]
        obtain habs | hbacked | ⟨j, other, hjother, hjtileset, hinst⟩ := h.current tid cached hold
        · exact .inl habs
        · exact .inr (.inl (hbacked.hear (ne_absent_of_other hother)))
        · by_cases hij : i = j
          · subst hij
            rw [hcall] at hjother
            cases hjother
            exact .inr (.inr ⟨i, after, hself, by rw [heff.request, hjtileset], hkept hjtileset.symm hinst⟩)
          · exact .inr (.inr ⟨j, other, by rw [getElem?_set_ne hij, hjother], hjtileset, hinst⟩)
    · refine .inr (.inl (hbacked.hear ?_))
      rw [hquiet]
      exact (some_ne_none _).symm
  · intro j m other hother hm
    obtain ⟨rfl, rfl⟩ | ⟨hne, hold⟩ := getElem?_set_cases hother
    · rw [heff.request]
      exact (heffect m hm).settled
    · refine (h.calls j m other hold hm).hear (h.since j m hm) ?_
      intro w hw hsame
      cases hguard : other.guard with
      | none => exact hguard
      | some key =>
        -- two leaders of one tileset
        have hkey : other.guard = some call.request.tilesetId := by
          rw [htileset w hw] at hsame
          unfold Call.guard at hguard ⊢
          cases hload : other.phase.load with
          | none =>
            simp [hload] at hguard
          | some load =>
            rw [hload] at hguard
            cases load with
            | working | releasing => exact congrArg some hsame.symm
            | _ => cases hguard
        have hself := (heff.word w hw).1
        exact absurd (h.leaders.alone j i other call _ hold hcall hkey hself) hne

theorem Inv.evolve (h : s.Inv) (hfly : reader'.bootstrapInflight = s.system.reader.bootstrapInflight)
    (hnow : s.system.reader.now ≤ reader'.now)
    (hcache : ∀ tid cached, reader'.cache.archives.lookup tid = some cached →
      s.system.reader.cache.archives.lookup tid = some cached) :
    Inv { s with system := { s.system with reader := reader' } } where
  length := h.length
  since := h.since
  leaders := by
    rw [hfly]
    exact h.leaders
  fresh := by
    intro tid cached hlook
    cases h.fresh tid cached (hcache tid cached hlook) with
    | inl hexp => exact .inl (hexp.trans hnow)
    | inr hbacked => exact .inr hbacked
  current := fun tid cached hlook => h.current tid cached (hcache tid cached hlook)
  calls := h.calls

theorem Inv.begin (h : s.Inv) (req : Request) : (s.act d (.begin req)).Inv := by
  have hlog : (s.act d (.begin req)).log = s.log := append_nil _
  refine ⟨?_, ?_, h.leaders.append rfl, ?_, ?_, ?_⟩
  · show (s.since ++ [s.log.length]).length = (s.system.calls ++ [_]).length
    rw [length_append, length_append, h.length]
    rfl
  · intro i n hn
    rw [hlog]
    obtain hold | ⟨-, rfl⟩ := getElem?_log.mp hn
    · exact h.since i n hold
    · exact le_rfl
  · rw [hlog]
    exact h.fresh
  · rw [hlog]
    intro tid cached hlook
    obtain habs | hbacked | ⟨i, call, hcall, hrest⟩ := h.current tid cached hlook
    · exact .inl habs
    · exact .inr (.inl hbacked)
    · exact .inr (.inr ⟨i, call, getElem?_log.mpr (.inl hcall), hrest⟩)
  · rw [hlog]
    intro i n call hcall hn
    obtain hold | ⟨hi, rfl⟩ := getElem?_log.mp hcall
    · have hlt : i < s.since.length := h.length ▸ (lt_length hold)
      have hn' : (s.since ++ [s.log.length])[i]? = some n := hn
      rw [getElem?_append_left hlt] at hn'
      exact h.calls i n call hold hn'
    · trivial

omit [DecidableEq γ] in
theorem load_of_word (h : call.word ≠ none) : ∃ phase, call.phase.load = some (.working phase) := by
  unfold Call.word at h
  cases hload : call.phase.load with
  | none =>
    rw [hload] at h
    exact absurd rfl h
  | some load =>
    rw [hload] at h
    cases load with
    | working phase => exact ⟨phase, rfl⟩
    | _ => exact absurd rfl h

theorem word_of_stuck (h : call.next d reader answer = none) : call.word = none := by
  by_contra hword
  obtain ⟨phase, hload⟩ := load_of_word hword
  unfold Call.next at h
  cases hphase : call.phase with
  | loading load | reloading load =>
    rw [hphase] at h hload
    cases hload
    cases h
  | _ =>
    rw [hphase] at hload
    cases hload

theorem act_of_quiet (hheard : s.heard d action = none) (hbegun : s.begun action = s.since) :
    s.act d action = { s with system := s.system.act d action } := by
  unfold act
  rw [hheard, hbegun, toList_none, append_nil]

theorem inv_move (h : s.Inv) (hsteady : s.Steady d (.move i answer)) : (s.act d (.move i answer)).Inv := by
  obtain ⟨hstays, hstuck⟩ | ⟨call, reader', after, hcall, hnext, hmove⟩ := System.act_move_cases i answer
  · have hheard : s.heard d (.move i answer) = none := by
      unfold heard
      dsimp only
      rw [hstays]
      exact bind_eq_none_iff.mpr (fun call hcall => word_of_stuck (hstuck call hcall))
    rw [act_of_quiet hheard rfl, hstays]
    exact h
  · have hheard : s.heard d (.move i answer) = after.word := by
      unfold heard
      dsimp only
      rw [hmove]
      rw [getElem?_set_self (lt_length hcall)]
      rfl
    unfold act
    rw [hmove, hheard]
    refine h.moved hcall (fun n hn => ?_)
    exact Call.next_effect (h.fresh _) (h.since i n hn) (h.calls i n call hcall hn)
      (fun _ _ hload hlook => h.deferring hcall hload hlook)
      (fun revalidating hload => hsteady call revalidating hcall hload) hnext

theorem inv_cancel (h : s.Inv) (i : ℕ) : (s.act d (.cancel i)).Inv := by
  rw [act_of_quiet rfl rfl]
  obtain hstays | ⟨call, after, hcall, hafter, hcanc⟩ := System.act_cancel_cases d i
  · rw [hstays]
    exact h
  · rw [hcanc]
    obtain ⟨n, hn⟩ := h.began hcall
    have heffect : Call.Effect s.system.reader s.system.reader s.log n call after ∧ after.word = none :=
      Call.cancel_effect (h.calls i n call hcall hn) hafter
    have hmoved := h.moved hcall (fun m hm => (Call.cancel_effect (h.calls i m call hcall hm) hafter).1)
    rw [heffect.2, toList_none, append_nil] at hmoved
    exact hmoved

theorem inv_act (h : s.Inv) (hsteady : s.Steady d action) : (s.act d action).Inv := by
  cases action with
  | begin req => exact h.begin req
  | move i answer => exact inv_move h hsteady
  | cancel i => exact inv_cancel h i
  | evict kept =>
    rw [act_of_quiet rfl rfl]
    exact h.evolve rfl le_rfl (fun _ _ hlook => lookup_evict hlook)
  | tick dur =>
    rw [act_of_quiet rfl rfl]
    exact h.evolve rfl (Nat.le_add_right _ _) (fun _ _ hlook => hlook)

theorem inv_step (h : s.Inv) (hstep : Step d (Steady d) s t) : t.Inv := by
  cases hstep with
  | act action hsteady => exact inv_act h hsteady
  | store key store => exact h.evolve rfl le_rfl (fun _ _ hlook => hlook)

theorem inv_init : Inv ({} : Watched γ μ) := by
  refine ⟨rfl, ?_, Leaders.nil, ?_, ?_, ?_⟩
  · intro i n hn
    cases hn
  · intro tid cached hlook
    cases hlook
  · intro tid cached hlook
    cases hlook
  · intro i n call hcall
    cases hcall

end Watched

theorem deleted_archive_not_resurrected {s : Watched γ μ} (h : Reachable (Watched.steadyMachine d) s) :
    s.NotResurrected := by
  have hinv := h.invariant Watched.inv_init (fun _ _ => Watched.inv_step)
  intro i call n resource hcall hn hreturned seen hseen habsent _
  have hsettled := hinv.calls i n call hcall hn
  rw [Phase.Settled, hreturned] at hsettled
  exact hsettled seen hseen habsent

namespace Example

/-- A bootstrap is loaded, found absent when it has expired, and asked for once more when the absence is forgotten. -/
def deletedActions (last : Answer ℕ) : List (Action ℕ) :=
  [.begin (.loadBootstrap "tiles")] ++ List.replicate 12 (.move 0 { object := .object 0 }) ++
    [.tick (60 * 10 ^ 9), .begin (.loadBootstrap "tiles")] ++
    List.replicate 10 (.move 1 { object := .refused .notFound }) ++
    [.tick (10 ^ 9), .begin (.loadBootstrap "tiles")] ++ List.replicate 12 (.move 2 last)

def watch (last : Answer ℕ) : Watched ℕ Bytes := (deletedActions last).foldl (Watched.act deployment) {}

theorem label_eq_some {call : Call ℕ Bytes} {gen : ℕ} (h : call.label = some gen) :
    ∃ value, call.phase = .returned (.ok (some ⟨value, gen⟩)) := by
  unfold Call.label at h
  split at h
  case h_1 resource =>
    cases h
    exact ⟨resource.value, rfl⟩
  case h_2 => cases h

/-- The backend times out where it said before that the archive is gone. -/
theorem transient_error_resurrects : ∃ s, Reachable (Watched.machine deployment) s ∧ ¬ s.NotResurrected := by
  refine ⟨watch { object := .unavailable (.timeout "") }, ?_, ?_⟩
  · exact Reachable.init.foldl_checked (fun _ _ => true) (fun s action _ => Watched.Step.act s action trivial)
      (by decide +kernel)
  · intro h
    have hlog : (watch { object := .unavailable (.timeout "") }).log = [.supplied "tiles" 0, .absent "tiles"] := by
      decide +kernel
    have hcall : (watch { object := .unavailable (.timeout "") }).system.calls[2]?.map
        (fun call => (call.request, call.label)) = some (.loadBootstrap "tiles", some 0) := by
      decide +kernel
    obtain ⟨call, hcall, heq⟩ := map_eq_some_iff.mp hcall
    obtain ⟨hrequest, hlabel⟩ := Prod.mk.inj heq
    obtain ⟨value, hreturned⟩ := label_eq_some hlabel
    have hlater := h 2 call 2 _ hcall (by decide +kernel) hreturned 1 (by decide)
    rw [hlog, hrequest] at hlater
    obtain ⟨later, hlt, hsupplied⟩ := hlater rfl ⟨0, by decide, rfl⟩
    have hnone : ([.supplied "tiles" 0, .absent "tiles"] : List (Word ℕ))[later]? = none :=
      getElem?_eq_none hlt
    simp [hnone] at hsupplied

def steadyCheck (s : Watched ℕ Bytes) : Action ℕ → Bool
  | .move i answer =>
    (s.system.calls[i]?).all (fun call =>
      match call.phase.load with
      | some (.working (.observing revalidating)) =>
        (!decide (deployment.observeRange call.request.tilesetId answer.object = .error .notFound) ||
          (s.system.reader.cache.get s.system.reader.now call.request.tilesetId).isNone) &&
        (!revalidating || !deployment.unreadable call.request.tilesetId answer.object ||
          !decide (lastWord s.log call.request.tilesetId = some (.absent call.request.tilesetId)))
      | _ => true)
  | _ => true

theorem steady_of_check {s : Watched ℕ Bytes} {action : Action ℕ} (h : steadyCheck s action = true) :
    s.Steady deployment action := by
  cases action with
  | move i answer =>
    intro call revalidating hcall hload
    unfold steadyCheck at h
    dsimp only at h
    rw [hcall, all_some, hload] at h
    rw [Bool.and_eq_true, Bool.or_eq_true, Bool.or_eq_true, Bool.or_eq_true] at h
    simp only [Bool.not_eq_true', decide_eq_false_iff_not] at h
    refine ⟨fun hobs => ?_, fun hreval hunreadable => ?_⟩
    · cases h.1 with
      | inl hne => exact absurd hobs hne
      | inr hnone => exact isNone_iff_eq_none.mp hnone
    · rw [hreval, hunreadable] at h
      simpa using h.2
  | begin | cancel | evict | tick => trivial

theorem suppliedAgain_reachable : Reachable (Watched.steadyMachine deployment) (watch { object := .object 0 }) :=
  Reachable.init.foldl_checked steadyCheck
    (fun s action hcheck => Watched.Step.act s action (steady_of_check hcheck)) (by decide +kernel)

/-- The backend has the archive again, under the generation it had before. -/
theorem supplied_again_not_resurrected :
    (watch { object := .object 0 }).system.calls.map Call.label = [some 0, none, some 0] ∧
      (watch { object := .object 0 }).log = [.supplied "tiles" 0, .absent "tiles", .supplied "tiles" 0] ∧
      (watch { object := .object 0 }).NotResurrected :=
  ⟨by decide +kernel, by decide +kernel, deleted_archive_not_resurrected suppliedAgain_reachable⟩

end Example
end Mappf.Ishikari
