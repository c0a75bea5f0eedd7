import Mappf.Auth.Refresh

/-! # Registries never roll back

The invariants of a session. Everything rests on one leader per registry: between the check of a candidate
and its installation, and between reading an entry and putting it back, nobody else writes for the same
registry. The record of installed revisions is never evicted and dominates everything installed so far. -/
namespace Mappf.Auth
open List

/-! ## Reading the log -/

namespace Entry

def installs (registryId : String) : Entry → Option RegistrySnapshot
  | .installed _ id snapshot _ => if id = registryId then some snapshot else none
  | _ => none

/-- What call `i` reads from the cache or puts there itself. -/
def readBy (i : ℕ) : Entry → Option (String × RegistrySnapshot)
  | .read call id snapshot => if call = i then some (id, snapshot) else none
  | .installed call id snapshot _ => if call = i then some (id, snapshot) else none
  | _ => none

def authorizes : Entry → Option (ℕ × String × RegistrySnapshot)
  | .authorized call id (some snapshot) _ => some (call, id, snapshot)
  | _ => none

end Entry

variable {log : List Entry} {reg : String} {entry : Option Entry} {calls : List Call} {i : ℕ}
  {inner : DeliveryAuthInner} {s' : Session}

theorem installed_of_append (entry : Option Entry) (hentry : ∀ e, entry = some e → ∀ id, e.installs id = none)
    (n i : ℕ) (id : String) (snapshot : RegistrySnapshot) (body : Bytes)
    (h : (log ++ entry.toList)[n]? = some (.installed i id snapshot body)) :
    log[n]? = some (.installed i id snapshot body) := by
  cases entry with
  | none => simpa using h
  | some e =>
    cases getElem?_log.mp h with
    | inl hold => exact hold
    | inr hnew =>
      have hnone := hentry e rfl id
      rw [hnew.2] at hnone
      simp [Entry.installs] at hnone

def latest (registryId : String) (log : List Entry) : Option RegistrySnapshot :=
  (log.filterMap (Entry.installs registryId)).getLast?

theorem latest_append (reg : String) (log : List Entry) (entry : Entry) :
    latest reg (log ++ [entry]) = (entry.installs reg).or (latest reg log) := by
  unfold latest
  cases h : entry.installs reg with
  | none | some snapshot => simp [h]

theorem latest_append_of_none (log : List Entry) (h : ∀ e, entry = some e → e.installs reg = none) :
    latest reg (log ++ entry.toList) = latest reg log := by
  cases entry with
  | none => simp
  | some e => rw [Option.toList_some, latest_append, h e rfl, Option.none_or]

/-- The last thing call `i` read before place `n` of the log is `snapshot`, and at that moment it was the
snapshot most recently installed for its registry. -/
def LastRead (log : List Entry) (n i : ℕ) (registryId : String) (snapshot : RegistrySnapshot) : Prop :=
  ∃ m entry, m < n ∧ log[m]? = some entry ∧ entry.readBy i = some (registryId, snapshot) ∧
    (∀ (k : ℕ) later, m < k → k < n → log[k]? = some later → later.readBy i = none) ∧
    latest registryId (log.take (m + 1)) = some snapshot

namespace LastRead

variable {n : ℕ} {snapshot : RegistrySnapshot} {entry : Entry}

theorem append (h : LastRead log n i reg snapshot) (hn : n ≤ log.length) (entry : Entry) :
    LastRead (log ++ [entry]) n i reg snapshot := by
  obtain ⟨m, e, hm, he, hread, hlater, hlat⟩ := h
  refine ⟨m, e, hm, getElem?_log.mpr (.inl he), hread, ?_, ?_⟩
  · intro k later hmk hkn hk
    rw [getElem?_append_left (by omega)] at hk
    exact hlater k later hmk hkn hk
  · rw [take_append_of_le_length (by omega)]
    exact hlat

/-- An entry by which the call reads nothing leaves its last reading where it was. -/
theorem extend (h : LastRead log log.length i reg snapshot) (hentry : entry.readBy i = none) :
    LastRead (log ++ [entry]) (log ++ [entry]).length i reg snapshot := by
  obtain ⟨m, e, hm, he, hread, hlater, hlat⟩ := h
  refine ⟨m, e, by rw [length_append]; omega, getElem?_log.mpr (.inl he), hread, ?_, ?_⟩
  · intro k later hmk _ hk
    cases getElem?_log.mp hk with
    | inl hold => exact hlater k later hmk (lt_length hold) hold
    | inr hnew => exact hnew.2 ▸ hentry
  · rw [take_append_of_le_length (by omega)]
    exact hlat

theorem of_last (hread : entry.readBy i = some (reg, snapshot)) (hlat : latest reg (log ++ [entry]) = some snapshot) :
    LastRead (log ++ [entry]) (log ++ [entry]).length i reg snapshot := by
  have hlen : (log ++ [entry]).length = log.length + 1 := by simp
  refine ⟨log.length, entry, by omega, getElem?_log.mpr (.inr ⟨rfl, rfl⟩), hread, ?_, ?_⟩
  · omega
  · rw [← hlen, take_length]
    exact hlat

end LastRead

/-! ## One leader per registry -/

/-- The leaders of a session: the key of each is taken, so no two share one. -/
structure Led (session : Session) : Prop where
  taken : ∀ (i : ℕ) call, session.calls[i]? = some call → call.phase.guarded = true →
    session.inner.refreshes.entries.lookup call.registryId ≠ none
  alone : ∀ (i j : ℕ) call call', session.calls[i]? = some call → session.calls[j]? = some call' →
    call.registryId = call'.registryId → call.phase.guarded = true → call'.phase.guarded = true → i = j

variable {libs : Libraries} {auth : DeliveryAuth} {s : Session} {call : Call} {phase : Phase}
  {snapshot : RegistrySnapshot}

def Call.guards (call : Call) : Option String := if call.phase.guarded = true then some call.registryId else none

theorem Call.guards_iff : call.guards = some reg ↔ call.phase.guarded = true ∧ call.registryId = reg := by
  simp [Call.guards]

theorem led_iff : Led s ↔ Common.Leaders s.inner.refreshes.entries Call.guards s.calls := by
  constructor
  · intro h
    refine ⟨?_, ?_⟩
    · intro i call id hcall hid
      obtain ⟨hguard, rfl⟩ := Call.guards_iff.mp hid
      exact h.taken i call hcall hguard
    · intro i j call call' id hcall hcall' hid hid'
      obtain ⟨hguard, rfl⟩ := Call.guards_iff.mp hid
      obtain ⟨hguard', hsame⟩ := Call.guards_iff.mp hid'
      exact h.alone i j call call' hcall hcall' hsame.symm hguard hguard'
  · intro h
    refine ⟨?_, ?_⟩
    · intro i call hcall hguard
      exact h.taken i call _ hcall (Call.guards_iff.mpr ⟨hguard, rfl⟩)
    · intro i j call call' hcall hcall' hsame hguard hguard'
      exact h.alone i j call call' _ hcall hcall' (Call.guards_iff.mpr ⟨hguard, rfl⟩)
        (Call.guards_iff.mpr ⟨hguard', hsame.symm⟩)

theorem Led.move (h : Led s) (hcall : s.calls[i]? = some call)
    (hmoved : Common.GuardMoved s.inner.refreshes.entries inner.refreshes.entries call.guards
      ({ call with phase } : Call).guards) :
    Led { inner, calls := s.calls.set i { call with phase }, log } :=
  led_iff.mpr ((led_iff.mp h).move hcall hmoved)

theorem Led.keep (h : Led s) (hcall : s.calls[i]? = some call)
    (hents : inner.refreshes.entries = s.inner.refreshes.entries) (hgrd : phase.guarded = call.phase.guarded) :
    Led { inner, calls := s.calls.set i { call with phase }, log } :=
  h.move hcall (.inl ⟨hents, by simp [Call.guards, hgrd]⟩)

theorem Led.moved (h : Led s) (hmoved : s.Moved libs auth s') : Led s' := by
  cases hmoved with
  | same => exact h
  | rejected => exact ⟨h.taken, h.alone⟩
  | environment hcache hinst hents =>
    refine ⟨fun i call hcall hguard => ?_, h.alone⟩
    rw [hents]
    exact h.taken i call hcall hguard
  | began hreg => exact led_iff.mpr ((led_iff.mp h).append rfl)
  | moved hcall heff =>
    cases heff with
    | quiet hsame hgrd => exact h.keep hcall hsame.entries hgrd
    | elected hfree hnone hents =>
      exact h.move hcall (.inr (.inl ⟨_, _, hnone, hents, by simp [Call.guards, hfree], rfl⟩))
    | looked _ hgrd => exact h.keep hcall rfl hgrd
    | requested hphase | received hphase | checked hphase | recorded hphase | cleared hphase | installed hphase =>
      exact h.keep hcall rfl (by rw [hphase]; rfl)
    | kept cached hgrd _ _ _ hents => exact h.keep hcall hents (by rw [hgrd]; rfl)
    | released hphase =>
      exact h.move hcall (.inr (.inr ⟨_, Call.guards_iff.mpr ⟨by rw [hphase]; rfl, rfl⟩, rfl, rfl⟩))
    | authorized hphase => exact h.keep hcall rfl (by rw [hphase]; rfl)

/-! ## Revisions only grow -/

/-- The older of two installed revisions: a smaller one, or the same with the same body. -/
def InstalledRevision.Below (a b : InstalledRevision) : Prop :=
  a.revision ≤ b.revision ∧ (a.revision = b.revision → a.bodySha256 = b.bodySha256)

theorem InstalledRevision.Below.refl (a : InstalledRevision) : a.Below a := ⟨UInt64.le_refl _, fun _ => rfl⟩

theorem InstalledRevision.Below.trans {a b c : InstalledRevision} (hab : a.Below b) (hbc : b.Below c) : a.Below c := by
  refine ⟨UInt64.le_trans hab.1 hbc.1, fun hac => ?_⟩
  have hb : a.revision = b.revision := UInt64.le_antisymm hab.1 (hac ▸ hbc.1)
  rw [hab.2 hb, hbc.2 (hb ▸ hac)]

theorem admits_iff {installed : Option InstalledRevision} {revision : UInt64} {bodySha256 : Bytes} :
    DeliveryAuthInner.admits installed revision bodySha256 = true ↔
      ∀ prev, installed = some prev → prev.Below ⟨revision, bodySha256⟩ := by
  cases installed with
  | none => simp [DeliveryAuthInner.admits]
  | some prev =>
    unfold DeliveryAuthInner.admits InstalledRevision.Below
    dsimp only
    by_cases hless : revision < prev.revision
    · simp [hless, UInt64.not_le]
    · rw [if_neg hless]
      have hle : prev.revision ≤ revision := UInt64.not_lt.mp hless
      by_cases hsame : revision = prev.revision ∧ bodySha256 ≠ prev.bodySha256
      · simp [hsame, Ne.symm hsame.2]
      · rw [if_neg hsame]
        simp only [Option.some.injEq, forall_eq', true_iff]
        refine ⟨hle, fun heq => ?_⟩
        by_contra hdiffer
        exact hsame ⟨heq.symm, Ne.symm hdiffer⟩

def Fits (libraries : Libraries) (installed : Option InstalledRevision) : Phase → Prop
  | .recording snapshot _ body =>
    DeliveryAuthInner.admits installed snapshot.revision (libraries.sha256 body) = true
  | .recorded snapshot _ body | .installing snapshot _ body =>
    installed = some ⟨snapshot.revision, libraries.sha256 body⟩
  | _ => True

theorem fits_of_candidate (h : phase.candidate = none) (installed : Option InstalledRevision) :
    Fits libs installed phase := by
  cases phase <;> trivial

theorem fits_of_free (h : phase.guarded = false) (installed : Option InstalledRevision) :
    Fits libs installed phase := by
  cases phase <;> trivial

structure Ordered (libraries : Libraries) (session : Session) : Prop where
  fits : ∀ (i : ℕ) call, session.calls[i]? = some call →
    Fits libraries (session.inner.installedRevisions.lookup call.registryId) call.phase
  floor : ∀ (n : ℕ) i id snapshot body, session.log[n]? = some (.installed i id snapshot body) →
    ∃ record, session.inner.installedRevisions.lookup id = some record ∧
      InstalledRevision.Below ⟨snapshot.revision, libraries.sha256 body⟩ record
  order : ∀ (m n : ℕ) i j id snapshot snapshot' body body', m < n →
    session.log[m]? = some (.installed i id snapshot body) →
    session.log[n]? = some (.installed j id snapshot' body') →
    InstalledRevision.Below ⟨snapshot.revision, libraries.sha256 body⟩ ⟨snapshot'.revision, libraries.sha256 body'⟩

section

variable (h : Ordered libs s) {etag : Option String} {body : Bytes}
include h

theorem Ordered.quiet (hinst : s'.inner.installedRevisions = s.inner.installedRevisions)
    (hlog : ∀ (n : ℕ) i id snapshot body, s'.log[n]? = some (.installed i id snapshot body) →
      s.log[n]? = some (.installed i id snapshot body))
    (hfits : ∀ (i : ℕ) call, s'.calls[i]? = some call →
      Fits libs (s.inner.installedRevisions.lookup call.registryId) call.phase) :
    Ordered libs s' := by
  refine ⟨?_, ?_, ?_⟩
  · rw [hinst]
    exact hfits
  · rw [hinst]
    intro n i id snapshot body hn
    exact h.floor n i id snapshot body (hlog n i id snapshot body hn)
  · intro m n i j id snapshot snapshot' body body' hmn hm hn
    exact h.order m n i j id snapshot snapshot' body body' hmn (hlog m i id snapshot body hm)
      (hlog n j id snapshot' body' hn)

theorem Ordered.keep (hcall : s.calls[i]? = some call) (hinst : inner.installedRevisions = s.inner.installedRevisions)
    (hfits : Fits libs (s.inner.installedRevisions.lookup call.registryId) phase)
    (hentry : ∀ e, entry = some e → ∀ id, e.installs id = none) : Ordered libs
      { inner, calls := s.calls.set i { call with phase }, log := s.log ++ entry.toList } := by
  refine h.quiet hinst (installed_of_append entry hentry) ?_
  intro j other hother
  obtain ⟨rfl, rfl⟩ | ⟨_, hold⟩ := getElem?_set_cases hother
  · exact hfits
  · exact h.fits j other hold

theorem Ordered.silent (hcall : s.calls[i]? = some call) (hinst : inner.installedRevisions = s.inner.installedRevisions)
    (hfits : Fits libs (s.inner.installedRevisions.lookup call.registryId) phase) : Ordered libs
      { inner, calls := s.calls.set i { call with phase }, log := s.log ++ (none : Option Entry).toList } :=
  h.keep hcall hinst hfits nofun

theorem Ordered.record (hled : Led s)
    (hcall : s.calls[i]? = some call) (hphase : call.phase = .recording snapshot etag body) : Ordered libs
      { inner := s.inner.record call.registryId ⟨snapshot.revision, libs.sha256 body⟩
        calls := s.calls.set i { call with phase := .recorded snapshot etag body }
        log := s.log } := by
  have hadm := h.fits i call hcall
  rw [hphase] at hadm
  have hbelow := admits_iff.mp hadm
  refine ⟨?_, ?_, h.order⟩
  · intro j other hother
    dsimp only [DeliveryAuthInner.record]
    rw [HashMap.lookup_insert_eq]
    obtain ⟨rfl, rfl⟩ | ⟨hne, hold⟩ := getElem?_set_cases hother
    · rw [if_pos rfl]
      rfl
    · split_ifs with hid
      · apply fits_of_free
        by_contra hguard
        exact hne (hled.alone j i other call hold hcall hid (by simpa using hguard) (by rw [hphase]; rfl))
      · exact h.fits j other hold
  · intro n j id earlier earlierBody hn
    dsimp only [DeliveryAuthInner.record]
    rw [HashMap.lookup_insert_eq]
    obtain ⟨record, hrec, hfloor⟩ := h.floor n j id earlier earlierBody hn
    split_ifs with hid
    · exact ⟨_, rfl, hfloor.trans (hbelow record (hid ▸ hrec))⟩
    · exact ⟨record, hrec, hfloor⟩

theorem Ordered.install (hcall : s.calls[i]? = some call) (hphase : call.phase = .installing snapshot etag body)
    (hinst : inner.installedRevisions = s.inner.installedRevisions) (hcand : phase.candidate = none) :
    Ordered libs
      { inner, calls := s.calls.set i { call with phase }
        log := s.log ++ [.installed i call.registryId snapshot body] } := by
  have hrec := h.fits i call hcall
  rw [hphase] at hrec
  refine ⟨?_, ?_, ?_⟩
  · intro j other hother
    rw [hinst]
    obtain ⟨rfl, rfl⟩ | ⟨_, hold⟩ := getElem?_set_cases hother
    · exact fits_of_candidate hcand _
    · exact h.fits j other hold
  · intro n j id earlier earlierBody hn
    rw [hinst]
    cases getElem?_log.mp hn with
    | inl hold => exact h.floor n j id earlier earlierBody hold
    | inr hnew =>
      cases hnew.2
      exact ⟨_, hrec, .refl _⟩
  · intro m n j k id earlier later earlierBody laterBody hmn hm hn
    cases getElem?_log.mp hn with
    | inl hn =>
      have hm : s.log[m]? = some (.installed j id earlier earlierBody) := by
        rwa [getElem?_append_left (by have := (lt_length hn); omega)] at hm
      exact h.order m n j k id earlier later earlierBody laterBody hmn hm hn
    | inr hnew =>
      obtain ⟨rfl, hnew⟩ := hnew
      cases hnew
      rw [getElem?_append_left hmn] at hm
      obtain ⟨record, hold, hfloor⟩ := h.floor m j call.registryId earlier earlierBody hm
      rw [hrec] at hold
      cases hold
      exact hfloor

theorem Ordered.moved (hled : Led s) (hmoved : s.Moved libs auth s') : Ordered libs s' := by
  cases hmoved with
  | same => exact h
  | environment hcache hinst hents => exact h.quiet hinst (fun _ _ _ _ _ hn => hn) h.fits
  | rejected => exact h.quiet rfl (installed_of_append (some (.rejected _ _)) (by rintro e ⟨⟩ id; rfl)) h.fits
  | began hreg =>
    refine h.quiet rfl (installed_of_append (some (.began _)) (by rintro e ⟨⟩ id; rfl)) ?_
    intro i call hcall
    obtain hold | ⟨_, rfl⟩ := getElem?_log.mp hcall
    · exact h.fits i call hold
    · trivial
  | moved hcall heff =>
    cases heff with
    | quiet hsame _ _ _ hcand =>
      exact h.silent hcall hsame.installedRevisions (fits_of_candidate hcand _)
    | elected => exact h.silent hcall rfl trivial
    | looked _ _ _ _ hcand => exact h.keep hcall rfl (fits_of_candidate hcand _) (by rintro e ⟨⟩ id; rfl)
    | requested => exact h.keep hcall rfl trivial (by rintro e ⟨⟩ id; rfl)
    | received => exact h.silent hcall rfl trivial
    | checked hphase hadm => exact h.silent hcall rfl hadm
    | recorded hphase => simpa using h.record hled hcall hphase
    | cleared hphase =>
      have hfits := h.fits _ _ hcall
      rw [hphase] at hfits
      exact h.silent hcall rfl hfits
    | installed hphase => exact h.install hcall hphase rfl rfl
    | kept cached hgrd _ _ hinst => exact h.silent hcall hinst trivial
    | released => exact h.silent hcall rfl trivial
    | authorized => exact h.keep hcall rfl trivial (by rintro e ⟨⟩ id; rfl)

end

/-! ## The cache holds what was installed last -/

theorem guarded_of_held (h : phase.held = some snapshot) : phase.guarded = true := by
  cases phase <;> first | rfl | cases h

structure Current (session : Session) : Prop where
  cached : ∀ id cached, session.inner.cache.lookup id = some cached → latest id session.log = some cached.snapshot
  held : ∀ (i : ℕ) call snapshot, session.calls[i]? = some call → call.phase.held = some snapshot →
    latest call.registryId session.log = some snapshot

theorem Current.keep (h : Current s) (hcall : s.calls[i]? = some call)
    (hcache : ∀ id cached, inner.cache.lookup id = some cached → latest id s.log = some cached.snapshot)
    (hheld : ∀ snapshot, phase.held = some snapshot → latest call.registryId s.log = some snapshot)
    (hentry : ∀ e, entry = some e → ∀ id, e.installs id = none) :
    Current { inner, calls := s.calls.set i { call with phase }, log := s.log ++ entry.toList } := by
  have hlat : ∀ id, latest id (s.log ++ entry.toList) = latest id s.log :=
    fun id => latest_append_of_none s.log (fun e he => hentry e he id)
  refine ⟨?_, ?_⟩
  · intro id cached hcached
    rw [hlat]
    exact hcache id cached hcached
  · intro j other snapshot hother hother'
    rw [hlat]
    obtain ⟨rfl, rfl⟩ | ⟨_, hold⟩ := getElem?_set_cases hother
    · exact hheld snapshot hother'
    · exact h.held j other snapshot hold hother'

theorem Current.silent (h : Current s) (hcall : s.calls[i]? = some call)
    (hcache : inner.cache = s.inner.cache) (hheld : phase.held = none) : Current
      { inner, calls := s.calls.set i { call with phase }, log := s.log ++ (none : Option Entry).toList } :=
  h.keep hcall (by rw [hcache]; exact h.cached) (by rw [hheld]; exact nofun) nofun

theorem Current.install (h : Current s) (hled : Led s)
    (hcall : s.calls[i]? = some call) (hgrd : call.phase.guarded = true) (cached : CachedRegistry) {body : Bytes}
    (hcache : inner.cache = s.inner.cache.insert call.registryId cached) (hheld : phase.held = none) : Current
      { inner, calls := s.calls.set i { call with phase }
        log := s.log ++ [.installed i call.registryId cached.snapshot body] } := by
  refine ⟨?_, ?_⟩
  · intro id other hother
    rw [hcache, HashMap.lookup_insert_eq] at hother
    rw [latest_append]
    split_ifs at hother with hid
    · cases hother
      simp [Entry.installs, hid]
    · simpa [Entry.installs, Ne.symm hid] using h.cached id other hother
  · intro j other snapshot hother hother'
    obtain ⟨rfl, rfl⟩ | ⟨hne, hold⟩ := getElem?_set_cases hother
    · simp [hheld] at hother'
    · have hid : call.registryId ≠ other.registryId := fun hid =>
        hne (hled.alone j i other call hold hcall hid.symm (guarded_of_held hother') hgrd)
      rw [latest_append]
      simpa [Entry.installs, hid] using h.held j other snapshot hold hother'

theorem Current.moved (h : Current s) (hled : Led s) (hmoved : s.Moved libs auth s') : Current s' := by
  cases hmoved with
  | same => exact h
  | environment hcache => exact ⟨fun id cached hcached => h.cached id cached (hcache id cached hcached), h.held⟩
  | rejected =>
    refine ⟨?_, ?_⟩
    · intro id cached hcached
      rw [latest_append]
      exact h.cached id cached hcached
    · intro i call snapshot hcall hheld
      rw [latest_append]
      exact h.held i call snapshot hcall hheld
  | began hreg =>
    refine ⟨?_, ?_⟩
    · intro id cached hcached
      rw [latest_append]
      exact h.cached id cached hcached
    · intro i call snapshot hcall hheld
      rw [latest_append]
      obtain hold | ⟨_, rfl⟩ := getElem?_log.mp hcall
      · exact h.held i call snapshot hold hheld
      · cases hheld
  | moved hcall heff =>
    cases heff with
    | quiet hsame _ hheld =>
      exact h.keep hcall (by rw [hsame.cache]; exact h.cached)
        (fun snapshot hsome => h.held _ _ snapshot hcall (hheld snapshot hsome)) nofun
    | elected => exact h.silent hcall rfl rfl
    | looked hcached _ hheld =>
      refine h.keep hcall h.cached ?_ (by rintro e ⟨⟩ id; rfl)
      intro snapshot hsome
      rw [hheld snapshot hsome]
      exact h.cached _ _ hcached
    | requested hphase =>
      refine h.keep hcall h.cached ?_ (by rintro e ⟨⟩ id; rfl)
      intro snapshot hsome
      exact h.held _ _ snapshot hcall (by rw [hphase]; exact hsome)
    | received | checked | recorded | cleared => exact h.silent hcall rfl rfl
    | installed hphase =>
      exact h.install hled hcall (by rw [hphase]; rfl) (s.inner.installed _ _ _) rfl rfl
    | kept cached hgrd hheld hcache =>
      refine h.keep hcall ?_ nofun nofun
      intro id other hother
      rw [hcache, HashMap.lookup_insert_eq] at hother
      split_ifs at hother with hid
      · cases hother
        rw [hid]
        exact h.held _ _ _ hcall hheld
      · exact h.cached id other hother
    | released => exact h.silent hcall rfl rfl
    | authorized => exact h.keep hcall h.cached nofun (by rintro e ⟨⟩ id; rfl)

/-! ## What a call returns is what it read -/

structure Reads (session : Session) : Prop where
  pending : ∀ (i : ℕ) call snapshot, session.calls[i]? = some call →
    call.phase.held = some snapshot ∨ call.phase.result = some snapshot →
    LastRead session.log session.log.length i call.registryId snapshot
  authorized : ∀ (n : ℕ) i id snapshot decision, session.log[n]? = some (.authorized i id (some snapshot) decision) →
    LastRead session.log n i id snapshot

theorem Reads.extend (h : Reads s) {entry : Entry}
    (hentry : ∀ i id snapshot, entry.authorizes = some (i, id, snapshot) →
      LastRead s.log s.log.length i id snapshot)
    (hcalls : ∀ (i : ℕ) call snapshot, calls[i]? = some call →
      call.phase.held = some snapshot ∨ call.phase.result = some snapshot →
      LastRead (s.log ++ [entry]) (s.log ++ [entry]).length i call.registryId snapshot) :
    Reads { inner, calls, log := s.log ++ [entry] } where
  pending := hcalls
  authorized := by
    intro n i id snapshot decision hn
    cases getElem?_log.mp hn with
    | inl hold =>
      exact (h.authorized n i id snapshot decision hold).append (lt_length hold).le entry
    | inr hnew =>
      rw [hnew.1]
      exact (hentry i id snapshot (by rw [hnew.2]; rfl)).append le_rfl entry

theorem Reads.logged (h : Reads s) (hcall : s.calls[i]? = some call)
    {entry : Entry} (hothers : ∀ j, j ≠ i → entry.readBy j = none)
    (hentry : ∀ j id snapshot, entry.authorizes = some (j, id, snapshot) →
      LastRead s.log s.log.length j id snapshot)
    (hphase : ∀ snapshot, phase.held = some snapshot ∨ phase.result = some snapshot →
      LastRead (s.log ++ [entry]) (s.log ++ [entry]).length i call.registryId snapshot) :
    Reads { inner, calls := s.calls.set i { call with phase }, log := s.log ++ [entry] } := by
  refine h.extend hentry ?_
  intro j other snapshot hother hsome
  obtain ⟨rfl, rfl⟩ | ⟨hne, hold⟩ := getElem?_set_cases hother
  · exact hphase snapshot hsome
  · exact (h.pending j other snapshot hold hsome).extend (hothers j hne)

theorem Reads.silent (h : Reads s) (hcall : s.calls[i]? = some call)
    (hphase : ∀ snapshot, phase.held = some snapshot ∨ phase.result = some snapshot →
      call.phase.held = some snapshot ∨ call.phase.result = some snapshot) :
    Reads
      { inner, calls := s.calls.set i { call with phase }
        log := s.log ++ (none : Option Entry).toList } := by
  rw [Option.toList_none, append_nil]
  refine ⟨?_, h.authorized⟩
  intro j other snapshot hother hsome
  obtain ⟨rfl, rfl⟩ | ⟨_, hold⟩ := getElem?_set_cases hother
  · exact h.pending j call snapshot hcall (hphase snapshot hsome)
  · exact h.pending j other snapshot hold hsome

theorem Phase.empty {p : RegistrySnapshot → Prop} (hheld : phase.held = none)
    (hres : phase.result = none) (snapshot : RegistrySnapshot)
    (h : phase.held = some snapshot ∨ phase.result = some snapshot) : p snapshot := by
  rw [hheld, hres] at h
  cases h <;> contradiction

theorem Reads.moved (h : Reads s) (hcur : Current s) (hmoved : s.Moved libs auth s') : Reads s' := by
  cases hmoved with
  | same => exact h
  | environment => exact ⟨h.pending, h.authorized⟩
  | rejected =>
    exact h.extend nofun (fun i call snapshot hcall hsome => (h.pending i call snapshot hcall hsome).extend rfl)
  | began hreg =>
    refine h.extend nofun ?_
    intro i call snapshot hcall hsome
    obtain hold | ⟨_, rfl⟩ := getElem?_log.mp hcall
    · exact (h.pending i call snapshot hold hsome).extend rfl
    · exact Phase.empty rfl rfl snapshot hsome
  | moved hcall heff =>
    cases heff with
    | quiet hsame _ hheld hres =>
      exact h.silent hcall (fun snapshot hsome => hsome.imp (hheld snapshot) (hres snapshot))
    | elected => exact h.silent hcall (Phase.empty rfl rfl)
    | looked hcached _ hheld hres =>
      refine h.logged hcall (fun j hj => if_neg (Ne.symm hj)) nofun ?_
      intro snapshot hsome
      obtain rfl : snapshot = _ := hsome.elim (hheld snapshot) (hres snapshot)
      exact .of_last (if_pos rfl) (by rw [latest_append]; exact hcur.cached _ _ hcached)
    | requested hphase =>
      refine h.logged hcall (fun _ _ => rfl) nofun ?_
      intro snapshot hsome
      exact (h.pending _ _ snapshot hcall (by rw [hphase]; exact hsome)).extend rfl
    | received | checked | recorded | cleared => exact h.silent hcall (Phase.empty rfl rfl)
    | installed hphase =>
      refine h.logged hcall (fun j hj => if_neg (Ne.symm hj)) nofun ?_
      intro snapshot hsome
      cases hsome with
      | inl hheld => cases hheld
      | inr hres =>
        cases hres
        exact .of_last (if_pos rfl) (by rw [latest_append]; simp [Entry.installs])
    | kept cached hgrd hheld =>
      refine h.silent hcall ?_
      intro snapshot hsome
      cases hsome with
      | inl hheld' => cases hheld'
      | inr hres =>
        cases hres
        exact .inl hheld
    | released hphase =>
      refine h.silent hcall ?_
      intro snapshot hsome
      rw [hphase]
      exact hsome
    | authorized hphase =>
      refine h.logged hcall (fun _ _ => rfl) ?_ (Phase.empty rfl rfl)
      intro j id snapshot hret
      rename_i res
      cases res with
      | none => cases hret
      | some returned =>
        cases hret
        exact h.pending _ _ _ hcall (.inr (by rw [hphase]; rfl))

/-! ## Only configured registries are read -/

theorem DeliveryAuth.registryFor_configured {req : Request}
    (h : auth.registryFor libs req = .ok reg) : (auth.catalog.entries.lookup reg).isSome := by
  obtain ⟨token, htoken, h⟩ := bind_eq_ok.mp h
  cases token with
  | none =>
    dsimp only at h
    split at h
    case h_1 => cases h
    case h_2 selected hsel =>
      cases h
      exact auth.anonymousConfigured _ hsel
  | some presented =>
    dsimp only at h
    obtain ⟨⟨reg', cred⟩, henvelope, h⟩ := bind_eq_ok.mp h
    split at h
    case h_1 => cases h
    case h_2 cfg hconf =>
      cases h
      rw [hconf]
      rfl

def EntryOk (libraries : Libraries) (auth : DeliveryAuth) (calls : List Call) : Entry → Prop
  | .requested i id => ∃ call, calls[i]? = some call ∧ call.registryId = id
  | .installed _ id snapshot body =>
    RegistrySnapshot.parse libraries.parseJson libraries.parseUrl id body = .ok snapshot
  | .authorized i id result decision => ∃ call, calls[i]? = some call ∧ call.registryId = id ∧
    decision = auth.authorize libraries (DeliveryAuth.only id result) call.request
  | _ => True

structure Selected (libraries : Libraries) (auth : DeliveryAuth) (session : Session) : Prop where
  registry : ∀ (i : ℕ) call, session.calls[i]? = some call →
    auth.registryFor libraries call.request = .ok call.registryId
  parsed : ∀ (i : ℕ) call snapshot body, session.calls[i]? = some call →
    call.phase.candidate = some (snapshot, body) →
    RegistrySnapshot.parse libraries.parseJson libraries.parseUrl call.registryId body = .ok snapshot
  entries : ∀ entry ∈ session.log, EntryOk libraries auth session.calls entry

theorem EntryOk.mono {calls' : List Call} {entry : Entry} (h : EntryOk libs auth calls entry)
    (hcalls : ∀ (i : ℕ) call, calls[i]? = some call →
      ∃ call', calls'[i]? = some call' ∧ call'.registryId = call.registryId ∧ call'.request = call.request) :
    EntryOk libs auth calls' entry := by
  cases entry with
  | requested i id =>
    obtain ⟨call, hcall, hid⟩ := h
    obtain ⟨call', hcall', hid', -⟩ := hcalls i call hcall
    exact ⟨call', hcall', hid'.trans hid⟩
  | authorized i id result decision =>
    obtain ⟨call, hcall, hid, hdecision⟩ := h
    obtain ⟨call', hcall', hid', hrequest⟩ := hcalls i call hcall
    exact ⟨call', hcall', hid'.trans hid, hrequest ▸ hdecision⟩
  | _ => exact h

section

variable (h : Selected libs auth s)
include h

theorem Selected.move (hcall : s.calls[i]? = some call)
    (hpars : ∀ snapshot body, phase.candidate = some (snapshot, body) →
      RegistrySnapshot.parse libs.parseJson libs.parseUrl call.registryId body = .ok snapshot)
    (hentry : ∀ e, entry = some e → EntryOk libs auth s.calls e) : Selected libs auth
      { inner, calls := s.calls.set i { call with phase }, log := s.log ++ entry.toList } := by
  have hkept : ∀ (j : ℕ) other, s.calls[j]? = some other →
      ∃ other', (s.calls.set i { call with phase })[j]? = some other' ∧
        other'.registryId = other.registryId ∧ other'.request = other.request := by
    intro j other hother
    by_cases hij : i = j
    · subst hij
      rw [hcall] at hother
      cases hother
      exact ⟨_, getElem?_set_self (lt_length hcall), rfl, rfl⟩
    · exact ⟨other, by rw [getElem?_set_ne hij]; exact hother, rfl, rfl⟩
  refine ⟨?_, ?_, ?_⟩
  · intro j other hother
    obtain ⟨rfl, rfl⟩ | ⟨_, hold⟩ := getElem?_set_cases hother
    · exact h.registry j call hcall
    · exact h.registry j other hold
  · intro j other snapshot body hother hcand
    obtain ⟨rfl, rfl⟩ | ⟨_, hold⟩ := getElem?_set_cases hother
    · exact hpars snapshot body hcand
    · exact h.parsed j other snapshot body hold hcand
  · intro e he
    cases mem_append.mp he with
    | inl hold => exact (h.entries e hold).mono hkept
    | inr hnew => exact (hentry e (Option.mem_toList.mp hnew)).mono hkept

theorem Selected.silent (hcall : s.calls[i]? = some call) (hcand : phase.candidate = none) :
    Selected libs auth
      { inner, calls := s.calls.set i { call with phase }
        log := s.log ++ (none : Option Entry).toList } :=
  h.move hcall (by rw [hcand]; exact nofun) nofun

theorem Selected.keep (hcall : s.calls[i]? = some call) (hcand : phase.candidate = call.phase.candidate) :
    Selected libs auth
      { inner, calls := s.calls.set i { call with phase }
        log := s.log ++ (none : Option Entry).toList } :=
  h.move hcall (fun snapshot body hsome => h.parsed i call snapshot body hcall (hcand ▸ hsome)) nofun

theorem Selected.moved (hmoved : s.Moved libs auth s') : Selected libs auth s' := by
  cases hmoved with
  | same => exact h
  | environment => exact ⟨h.registry, h.parsed, h.entries⟩
  | rejected =>
    refine ⟨h.registry, h.parsed, ?_⟩
    intro e he
    cases mem_append.mp he with
    | inl hold => exact h.entries e hold
    | inr hnew =>
      rw [mem_singleton.mp hnew]
      trivial
  | began hreg =>
    refine ⟨?_, ?_, ?_⟩
    · intro i call hcall
      obtain hold | ⟨_, rfl⟩ := getElem?_log.mp hcall
      · exact h.registry i call hold
      · exact hreg
    · intro i call snapshot body hcall hcand
      obtain hold | ⟨_, rfl⟩ := getElem?_log.mp hcall
      · exact h.parsed i call snapshot body hold hcand
      · cases hcand
    · intro e he
      cases mem_append.mp he with
      | inl hold => exact (h.entries e hold).mono (fun i call hcall => ⟨call, getElem?_log.mpr (.inl hcall), rfl, rfl⟩)
      | inr hnew =>
        rw [mem_singleton.mp hnew]
        trivial
  | moved hcall heff =>
    cases heff with
    | quiet _ _ _ _ hcand => exact h.silent hcall hcand
    | elected => exact h.silent hcall rfl
    | looked _ _ _ _ hcand =>
      exact h.move hcall (by rw [hcand]; exact nofun) (by rintro e ⟨⟩; trivial)
    | requested =>
      exact h.move hcall nofun (by rintro e ⟨⟩; exact ⟨_, hcall, rfl⟩)
    | received hphase hparse =>
      refine h.move hcall ?_ nofun
      rintro _ _ ⟨⟩
      exact hparse
    | checked hphase | recorded hphase | cleared hphase => exact h.keep hcall (by rw [hphase]; rfl)
    | installed hphase =>
      refine h.move hcall nofun ?_
      rintro e ⟨⟩
      exact h.parsed _ _ _ _ hcall (by rw [hphase]; rfl)
    | kept | released => exact h.silent hcall rfl
    | authorized =>
      refine h.move hcall nofun ?_
      rintro e ⟨⟩
      exact ⟨_, hcall, rfl, rfl⟩

end

/-! ## Whole sessions -/

structure SessionInv (libraries : Libraries) (auth : DeliveryAuth) (session : Session) : Prop where
  led : Led session
  ordered : Ordered libraries session
  current : Current session
  reads : Reads session
  selected : Selected libraries auth session

theorem SessionInv.init : SessionInv libs auth {} where
  led := ⟨fun _ _ h => by simp at h, fun _ _ _ _ h => by simp at h⟩
  ordered := ⟨fun _ _ h => by simp at h, fun _ _ _ _ _ h => by simp at h, fun _ _ _ _ _ _ _ _ _ _ h => by simp at h⟩
  current := ⟨fun _ _ h => by simp at h, fun _ _ _ h => by simp at h⟩
  reads := ⟨fun _ _ _ h => by simp at h, fun _ _ _ _ _ h => by simp at h⟩
  selected := ⟨fun _ _ h => by simp at h, fun _ _ _ _ h => by simp at h, fun _ h => by simp at h⟩

theorem SessionInv.of_reachable (h : Reachable (sessions libs auth) s) : SessionInv libs auth s := by
  refine h.invariant SessionInv.init ?_
  rintro before after hinv ⟨action, rfl⟩
  have hmoved := before.step_moved libs auth action
  exact ⟨hinv.led.moved hmoved, hinv.ordered.moved hinv.led hmoved, hinv.current.moved hinv.led hmoved,
    hinv.reads.moved hinv.current hmoved, hinv.selected.moved hmoved⟩

theorem latest_eq_some (h : latest reg log = some snapshot) : ∃ i body, Entry.installed i reg snapshot body ∈ log := by
  obtain ⟨entry, hmem, hinst⟩ := mem_filterMap.mp (mem_of_getLast? h)
  cases entry with
  | installed i id installed body =>
    simp only [Entry.installs] at hinst
    split_ifs at hinst with hid
    cases hinst
    exact ⟨i, body, hid ▸ hmem⟩
  | _ => cases hinst

/-- Every decision of a session is that of `authorize` for the call's own request, on a snapshot parsed
from a document of the registry that request names. -/
theorem decision_fromDocuments (h : Reachable (sessions libs auth) s) {id : String}
    {res : Option RegistrySnapshot} {decision : Except AuthFailure AuthorizedDelivery}
    (hentry : Entry.authorized i id res decision ∈ s.log) :
    ∃ call, s.calls[i]? = some call ∧ auth.registryFor libs call.request = .ok id ∧
      decision = auth.authorize libs (DeliveryAuth.only id res) call.request ∧
      DeliveryAuth.FromDocuments libs (DeliveryAuth.only id res) := by
  have hinv := SessionInv.of_reachable h
  obtain ⟨call, hcall, hid, hdecision⟩ := hinv.selected.entries _ hentry
  refine ⟨call, hcall, hid ▸ hinv.selected.registry i call hcall, hdecision, ?_⟩
  intro id' snapshot hsnap
  unfold DeliveryAuth.only at hsnap
  split_ifs at hsnap with hid
  subst hid hsnap
  obtain ⟨n, hn⟩ := mem_iff_getElem?.mp hentry
  obtain ⟨m, _, _, _, _, _, hlat⟩ := hinv.reads.authorized n i id' snapshot decision hn
  obtain ⟨_, body, hinst⟩ := latest_eq_some hlat
  exact ⟨body, hinv.selected.entries _ (mem_of_mem_take hinst)⟩

/-- For every registry: installed revisions never fall, one revision has one digest, one refresh runs at a
time, and a call returns the snapshot that was installed last when it read it. Only configured registries
are read from their source; a token that names another is refused on the spot. -/
theorem registries_never_roll_back (libraries : Libraries) (auth : DeliveryAuth) (session : Session)
    (h : Reachable (sessions libraries auth) session) :
    (∀ (m n : ℕ) i j id snapshot snapshot' body body', m < n →
      session.log[m]? = some (.installed i id snapshot body) →
      session.log[n]? = some (.installed j id snapshot' body') →
      snapshot.revision ≤ snapshot'.revision ∧
        (snapshot.revision = snapshot'.revision → libraries.sha256 body = libraries.sha256 body')) ∧
    (∀ (i j : ℕ) call call', session.calls[i]? = some call → session.calls[j]? = some call' →
      call.registryId = call'.registryId → call.phase.inRefresh = true → call'.phase.inRefresh = true → i = j) ∧
    (∀ (n : ℕ) i id snapshot decision, session.log[n]? = some (.authorized i id (some snapshot) decision) →
      LastRead session.log n i id snapshot) ∧
    (∀ (n : ℕ) i id, session.log[n]? = some (.requested i id) →
      (auth.catalog.entries.lookup id).isSome ∧
        ∃ call, session.calls[i]? = some call ∧ auth.registryFor libraries call.request = .ok id) ∧
    ∀ request presented registryId credential,
      deliveryToken libraries.parseForm request.headers request.query = .ok (some presented) →
      parseTokenEnvelope presented.value = .ok (registryId, credential) →
      auth.catalog.entries.lookup registryId = none →
      session.step libraries auth (.authorize request) =
        { session with log := session.log ++ [.rejected request .invalidCredential] } := by
  have hinv := SessionInv.of_reachable h
  refine ⟨hinv.ordered.order, ?_, hinv.reads.authorized, ?_, ?_⟩
  · intro i j call call' hcall hcall' hsame hrefresh hrefresh'
    exact hinv.led.alone i j call call' hcall hcall' hsame (Phase.guarded_of_inRefresh hrefresh)
      (Phase.guarded_of_inRefresh hrefresh')
  · intro n i id hn
    obtain ⟨call, hcall, rfl⟩ := hinv.selected.entries _ (mem_of_getElem? hn)
    have hregistry := hinv.selected.registry i call hcall
    exact ⟨DeliveryAuth.registryFor_configured hregistry, call, hcall, hregistry⟩
  · intro request presented registryId credential htoken henvelope hunknown
    have hrefused : auth.registryFor libraries request = .error .invalidCredential := by
      unfold DeliveryAuth.registryFor
      rw [htoken]
      simp only [ok_bind]
      rw [henvelope]
      simp only [ok_bind]
      rw [hunknown]
    unfold Session.step
    dsimp only
    rw [hrefused]

/-! A source whose objects carry their length as revision. -/

/-- SHA-256 of the two objects and of the credential. -/
def growingDigest (message : Bytes) : Fallible Bytes :=
  decodeSha256 (
    if message = [1] then "4bf5122f344554c53bde2ebb8cd2b7e3d1600ad631c385a5d7cce23c7785459a"
    else if message = [1, 1] then "9dcf97a184f32623d11a73124ceb99a5709b083721e878a16d78f596718ba7b2"
    else "a98b5e6f61e5fddc898b11b88c575cd81307595545ee1a4aa17bfb275e270057")

def growing : Libraries where
  sha256 message := (growingDigest message).toOption.getD []
  parseForm _ := []
  parseJson body := some ⟨1, "r", UInt64.ofNat body.length, none, []⟩
  parseUrl _ := none

/-- A call that finds nothing fresh and gets `body` from the source. -/
def refreshing (i : ℕ) (cold : Bool) (body : Bytes) : List Action :=
  [.authorize DeliveryAuth.bearerRequest] ++ List.replicate (if cold then 5 else 4) (.step i .proceed) ++
    [.step i (.resolve true), .step i (.respond (.object body.length none)), .step i (.deliver (some body))] ++
    List.replicate 7 (.step i .proceed)

def twoRefreshes : List Action :=
  refreshing 0 true [1] ++ [.tick refreshInterval] ++ refreshing 1 false [1, 1]

theorem twoRefreshes_ordered :
    (Session.run growing DeliveryAuth.oneRegistry twoRefreshes).log.filterMap
      (fun entry => (entry.installs "r").map RegistrySnapshot.revision) = [1, 2] ∧
    ∀ (m n : ℕ) i j id snapshot snapshot' body body', m < n →
      (Session.run growing DeliveryAuth.oneRegistry twoRefreshes).log[m]? = some (.installed i id snapshot body) →
      (Session.run growing DeliveryAuth.oneRegistry twoRefreshes).log[n]? = some (.installed j id snapshot' body') →
      snapshot.revision ≤ snapshot'.revision ∧
        (snapshot.revision = snapshot'.revision → growing.sha256 body = growing.sha256 body') :=
  ⟨by decide +kernel, (registries_never_roll_back growing DeliveryAuth.oneRegistry _
    (reachable_run growing DeliveryAuth.oneRegistry twoRefreshes)).1⟩

theorem twoRefreshes_fromDocuments :
    ∃ call, (Session.run growing DeliveryAuth.oneRegistry twoRefreshes).calls[1]? = some call ∧
      DeliveryAuth.oneRegistry.authorize growing (DeliveryAuth.only "r" (some ⟨2, none, ∅⟩)) call.request =
        .error .invalidCredential ∧
      DeliveryAuth.FromDocuments growing (DeliveryAuth.only "r" (some ⟨2, none, ∅⟩)) := by
  have hentry : .authorized 1 "r" (some ⟨2, none, ∅⟩) (.error .invalidCredential) ∈
      (Session.run growing DeliveryAuth.oneRegistry twoRefreshes).log := mem_of_getElem? (i := 9) rfl
  obtain ⟨call, hcall, -, hdecision, hdocuments⟩ := decision_fromDocuments (reachable_run ..) hentry
  exact ⟨call, hcall, hdecision.symm, hdocuments⟩

end Mappf.Auth
