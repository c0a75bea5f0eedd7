import Mappf.Biei.Routing

/-! # Node state on the gossip wire

`types.rs`: a node publishes its admission state and four values per worker under keys of their own, and
`NodeStateView::from_kvs` rebuilds the view from them in whatever order they come. A map iterated in key order
is an association list whose keys are sorted where the order shows. -/
namespace Mappf.Biei
open List Option

open Styles (StyleRevision)

/-! ## Values -/

def toGossipValue (revision : StyleRevision) : String :=
  revision.id.value ++ String.singleton '@' ++ toString revision.version.toNat

def parseGossipValue (s : String) : Option StyleRevision := do
  let (id, v) ← rsplitOnce '@' s
  if id.isEmpty then none
  else
    let version ← parseUnsigned (2 ^ 64) v
    some ⟨⟨id⟩, UInt64.ofNat version⟩

namespace RenderMode

def asGossipValue : RenderMode → String
  | static => "static"
  | tile => "tile"

def parseGossipValue (value : String) : Option RenderMode :=
  if value = "static" then some static else if value = "tile" then some tile else none

end RenderMode

namespace Scale

def asGossipValue : Scale → String
  | x1 => "1x"
  | x2 => "2x"

def parseGossipValue (value : String) : Option Scale :=
  if value = "1x" then some x1 else if value = "2x" then some x2 else none

end Scale

/-! ## Writing -/

abbrev NodeKvs := HashMap String String

def renderAdmissionGossipKey : String := "renderer.accepting"

def workerKey (id : WorkerId) (field : String) : String :=
  "worker." ++ (toString id.toNat ++ String.singleton '.' ++ field)

def encodeWorkerKvs (out : NodeKvs) (workerId : WorkerId) (loadedProfile : Option WorkerProfile) (queueDepth : UInt64) :
    NodeKvs :=
  let (styleValue, modeValue, scaleValue) := match loadedProfile with
    | some profile => (toGossipValue profile.style, profile.renderMode.asGossipValue, profile.scale.asGossipValue)
    | none => ("", "", "")
  let out := out.insert (workerKey workerId "style") styleValue
  let out := out.insert (workerKey workerId "mode") modeValue
  let out := out.insert (workerKey workerId "scale") scaleValue
  out.insert (workerKey workerId "queue") (toString queueDepth.toNat)

inductive GossipWrite
  | worker (id : WorkerId) (loadedProfile : Option WorkerProfile) (queueDepth : UInt64)
  | admission (accepts : Bool)

def GossipWrite.apply (out : NodeKvs) : GossipWrite → NodeKvs
  | worker id loadedProfile queueDepth => encodeWorkerKvs out id loadedProfile queueDepth
  | admission accepts => out.insert renderAdmissionGossipKey (toString accepts)

/-! ## Reading -/

structure Builder where
  loadedRevision : Option (Option StyleRevision) := none
  renderMode : Option RenderMode := none
  scale : Option Scale := none
  queueDepth : Option ℕ := none

namespace Builder

def set (b : Builder) (field value : String) : Builder :=
  if field = "style" then
    if value.isEmpty then { b with loadedRevision := some none }
    else match Biei.parseGossipValue value with
      | some revision => { b with loadedRevision := some (some revision) }
      | none => b
  else if field = "mode" ∧ !value.isEmpty then { b with renderMode := RenderMode.parseGossipValue value }
  else if field = "scale" ∧ !value.isEmpty then { b with scale := Scale.parseGossipValue value }
  else if field = "queue" then { b with queueDepth := parseUnsigned (2 ^ 64) value }
  else b

def loadedProfile (b : Builder) : Option (Option WorkerProfile) :=
  match b.loadedRevision with
  | none => none
  | some none => some none
  | some (some style) => do some (some ⟨style, ← b.renderMode, ← b.scale⟩)

def view (id : WorkerId) (b : Builder) : Option WorkerView := do
  some ⟨id, ← b.loadedProfile, ← b.queueDepth⟩

end Builder

def workerField (key : String) : Option (WorkerId × String) := do
  let rest ← key.toList.dropPrefix? "worker.".toList
  let (wid, field) ← splitOnce '.' (String.ofList rest)
  let wid ← parseUnsigned (2 ^ 32) wid
  some (UInt32.ofNat wid, field)

structure Reading where
  acceptsNewRenders : Bool := false
  byWorker : HashMap WorkerId Builder := ∅

def Reading.builder (s : Reading) (id : WorkerId) : Builder := (s.byWorker.lookup id).getD {}

def readKv (s : Reading) (kv : String × String) : Reading :=
  if kv.1 = renderAdmissionGossipKey then { s with acceptsNewRenders := kv.2 = "true" }
  else match workerField kv.1 with
    | some (id, field) => { s with byWorker := s.byWorker.insert id ((s.builder id).set field kv.2) }
    | none => s

def NodeStateView.fromKvs (id : NodeId) (kvs : List (String × String)) : NodeStateView :=
  let s := kvs.foldl readKv {}
  let wids := s.byWorker.keys.insertionSort (fun a b => a.toNat ≤ b.toNat)
  ⟨id, s.acceptsNewRenders, wids.filterMap (fun wid => (s.byWorker.lookup wid).bind (Builder.view wid))⟩

/-! ## Round trips of values and keys -/

variable {revision : StyleRevision} {id : WorkerId} {α β : Type} {key : String} {v : β}

theorem parseGossipValue_toGossipValue (h : revision.id.value ≠ "") :
    parseGossipValue (toGossipValue revision) = some revision := by
  have hat : '@' ∉ (toString revision.version.toNat).toList := fun hmem =>
    absurd (isDigit_of_mem_toString hmem) (by decide)
  rw [parseGossipValue, toGossipValue, rsplitOnce_append _ hat]
  simp only [bind_eq_bind, bind_some, parseUnsigned_toString revision.version.toNat_lt]
  simp [h]

theorem workerField_workerKey (id : WorkerId) (field : String) : workerField (workerKey id field) = some (id, field) := by
  have hdot : '.' ∉ (toString id.toNat).toList := fun hmem => absurd (isDigit_of_mem_toString hmem) (by decide)
  have hrest : (workerKey id field).toList.dropPrefix? "worker.".toList =
      some (toString id.toNat ++ String.singleton '.' ++ field).toList := by
    simp [workerKey, dropPrefix?]
  rw [workerField, hrest]
  simp only [bind_eq_bind, bind_some, String.ofList_toList, splitOnce_append hdot, parseUnsigned_toString id.toNat_lt]
  simp

variable {field value : String} {b : Builder}

theorem workerKey_inj {id' : WorkerId} {field' : String} :
    workerKey id field = workerKey id' field' ↔ id = id' ∧ field = field' := by
  refine ⟨fun h => ?_, fun h => by rw [h.1, h.2]⟩
  have hfield := congrArg workerField h
  simpa [workerField_workerKey] using hfield

theorem workerField_admission : workerField renderAdmissionGossipKey = none := by decide +kernel

theorem workerKey_ne_admission (id : WorkerId) (field : String) : workerKey id field ≠ renderAdmissionGossipKey := by
  intro h
  have hfield := workerField_workerKey id field
  simp [h, workerField_admission] at hfield

/-! ## What a run of writes leaves in the map -/

def GossipWrite.update (id : WorkerId) : GossipWrite → Option (Option WorkerProfile × UInt64)
  | worker id' loadedProfile queueDepth => if id' = id then some (loadedProfile, queueDepth) else none
  | admission _ => none

def GossipWrite.flag : GossipWrite → Option Bool
  | worker _ _ _ => none
  | admission accepts => some accepts

open GossipWrite (update flag)

def lastWritten {α : Type} (select : GossipWrite → Option α) (writes : List GossipWrite) : Option α :=
  (writes.filterMap select).getLast?

theorem lastWritten_append (select : GossipWrite → Option α) (writes : List GossipWrite) (w : GossipWrite) :
    lastWritten select (writes ++ [w]) = (select w).or (lastWritten select writes) := by
  cases h : select w <;> simp [lastWritten, h]

def Published (out : NodeKvs) (id : WorkerId) (loadedProfile : Option WorkerProfile) (queueDepth : UInt64) : Prop :=
  out.lookup (workerKey id "queue") = some (toString queueDepth.toNat) ∧
    match loadedProfile with
    | none => out.lookup (workerKey id "style") = some ""
    | some profile => out.lookup (workerKey id "style") = some (toGossipValue profile.style) ∧
      out.lookup (workerKey id "mode") = some profile.renderMode.asGossipValue ∧
      out.lookup (workerKey id "scale") = some profile.scale.asGossipValue

variable {init : NodeKvs} {writes : List GossipWrite} {loadedProfile : Option WorkerProfile} {queueDepth : UInt64}

theorem published_last (h : lastWritten (update id) writes = some (loadedProfile, queueDepth)) :
    Published (writes.foldl GossipWrite.apply init) id loadedProfile queueDepth := by
  induction writes using reverseRecOn with
  | nil => cases h
  | append_singleton writes w ih =>
    rw [lastWritten_append] at h
    cases w with
    | admission accepts =>
      have hold := ih (by simpa [update] using h)
      cases loadedProfile <;>
        simpa [Published, GossipWrite.apply, HashMap.lookup_insert_eq, workerKey_ne_admission] using hold
    | worker id' prof' depth' =>
      by_cases hid : id' = id
      · subst hid
        obtain ⟨rfl, rfl⟩ : prof' = loadedProfile ∧ depth' = queueDepth := by
          simpa [update] using h
        cases prof' <;>
          simp [Published, GossipWrite.apply, encodeWorkerKvs, workerKey_inj]
      · have hold := ih (by simpa [update, hid] using h)
        cases loadedProfile <;>
          simpa [Published, GossipWrite.apply, encodeWorkerKvs, HashMap.lookup_insert_eq, workerKey_inj, Ne.symm hid]
            using hold

theorem admission_last {accepts : Bool} (h : lastWritten flag writes = some accepts) :
    (writes.foldl GossipWrite.apply init).lookup renderAdmissionGossipKey = some (toString accepts) := by
  induction writes using reverseRecOn with
  | nil => cases h
  | append_singleton writes w ih =>
    rw [lastWritten_append] at h
    cases w with
    | admission accepts' =>
      obtain rfl : accepts' = accepts := by simpa [flag] using h
      simp [GossipWrite.apply]
    | worker id' prof' depth' =>
      have hold := ih (by simpa [flag] using h)
      simpa [GossipWrite.apply, encodeWorkerKvs, HashMap.lookup_insert_eq, (workerKey_ne_admission _ _).symm] using hold

/-- A key of a worker was there before, or belongs to a worker that was written. -/
theorem key_origin (h : (writes.foldl GossipWrite.apply init).lookup key = some value)
    (hkey : workerField key = some (id, field)) :
    key ∈ init.keys ∨ key = workerKey id field ∧ (lastWritten (update id) writes).isSome = true := by
  induction writes using reverseRecOn generalizing value with
  | nil => exact .inl (AList.mem_keys.mp (AList.lookup_isSome.mp (isSome_iff_exists.mpr ⟨value, h⟩)))
  | append_singleton writes w ih =>
    rw [foldl_append, foldl_cons, foldl_nil] at h
    rw [lastWritten_append]
    cases w with
    | admission accepts =>
      have hne : key ≠ renderAdmissionGossipKey := by
        rintro rfl
        simp [workerField_admission] at hkey
      simp only [GossipWrite.apply, HashMap.lookup_insert_eq, hne, if_false] at h
      simpa [update] using ih h
    | worker id' prof' depth' =>
      by_cases hnew : ∃ field', key = workerKey id' field'
      · obtain ⟨field', rfl⟩ := hnew
        rw [workerField_workerKey] at hkey
        cases hkey
        exact .inr ⟨rfl, by simp [update]⟩
      · simp only [not_exists] at hnew
        simp only [GossipWrite.apply, encodeWorkerKvs, HashMap.lookup_insert_eq, hnew, if_false] at h
        refine (ih h).imp_right fun hold => ⟨hold.1, ?_⟩
        simp [hold.2]

/-! ## What the reader makes of it -/

theorem foldl_sets {σ : Type} {step : σ → α → σ} (π : σ → β) {l : List α} {a : α} (ha : a ∈ l)
    (hset : ∀ s, π (step s a) = v) (hkeep : ∀ s, ∀ x ∈ l, x ≠ a → π (step s x) = π s) (s : σ) :
    π (l.foldl step s) = v := by
  induction l using reverseRecOn with
  | nil => cases ha
  | append_singleton l x ih =>
    rw [foldl_append, foldl_cons, foldl_nil]
    by_cases hx : x = a
    · rw [hx, hset]
    · rw [hkeep _ x (by simp) hx]
      exact ih (by simpa [Ne.symm hx] using ha) (fun s y hy => hkeep s y (by simp [hy]))

theorem readKv_builder (s : Reading) (kv : String × String) (id : WorkerId) :
    ((readKv s kv).builder id = s.builder id ∧ ∀ field, workerField kv.1 ≠ some (id, field)) ∨
      ∃ field, workerField kv.1 = some (id, field) ∧ (readKv s kv).builder id = (s.builder id).set field kv.2 := by
  unfold readKv
  split_ifs with hadm
  · exact .inl ⟨rfl, by simp [hadm, workerField_admission]⟩
  · cases hfield : workerField kv.1 with
    | none => exact .inl ⟨rfl, by simp⟩
    | some found =>
      obtain ⟨id', field⟩ := found
      by_cases hid : id' = id
      · subst hid
        exact .inr ⟨field, rfl, by simp [Reading.builder]⟩
      · exact .inl ⟨by simp [Reading.builder, AList.lookup_insert_ne (Ne.symm hid)], by simp [hid]⟩

variable {kvs : List (String × String)}

theorem builder_read (π : Builder → β) (hmem : (workerKey id field, value) ∈ kvs)
    (honly : ∀ kv ∈ kvs, workerField kv.1 = some (id, field) → kv = (workerKey id field, value))
    (hset : ∀ b : Builder, π (b.set field value) = v)
    (hkeep : ∀ (b : Builder) field' value', field' ≠ field → π (b.set field' value') = π b) :
    π ((kvs.foldl readKv {}).builder id) = v := by
  refine foldl_sets (fun s : Reading => π (s.builder id)) hmem (fun s => ?_) (fun s kv hkv hne => ?_) {}
  · obtain ⟨-, hno⟩ | ⟨field', hfield, hbuilder⟩ := readKv_builder s (workerKey id field, value) id
    · exact absurd (workerField_workerKey id field) (hno field)
    · rw [workerField_workerKey] at hfield
      cases hfield
      rw [hbuilder, hset]
  · obtain ⟨hsame, -⟩ | ⟨field', hfield, hbuilder⟩ := readKv_builder s kv id
    · rw [hsame]
    · rw [hbuilder, hkeep]
      rintro rfl
      exact hne (honly kv hkv hfield)

theorem Builder.view_id {worker : WorkerView} (h : b.view id = some worker) : worker.id = id := by
  simp only [view, bind_eq_bind, bind_eq_some_iff, some.injEq] at h
  obtain ⟨_, -, _, -, rfl⟩ := h
  rfl

theorem mem_workers {node : NodeId} {worker : WorkerView} : worker ∈ (NodeStateView.fromKvs node kvs).workers ↔
      ∃ b, (kvs.foldl readKv {}).byWorker.lookup worker.id = some b ∧ b.view worker.id = some worker := by
  simp only [NodeStateView.fromKvs, mem_filterMap, mem_insertionSort, bind_eq_some_iff]
  constructor
  · rintro ⟨wid, -, b, hb, hview⟩
    obtain rfl := Builder.view_id hview
    exact ⟨b, hb, hview⟩
  · rintro ⟨b, hb, hview⟩
    exact ⟨worker.id, AList.mem_keys.mp (AList.lookup_isSome.mp (by simp [hb])), b, hb, hview⟩

theorem workers_ascending (node : NodeId) (kvs : List (String × String)) :
    (NodeStateView.fromKvs node kvs).workers.Pairwise (fun a b => a.id < b.id) := by
  have hsorted := pairwise_insertionSort (fun a b : WorkerId => a.toNat ≤ b.toNat) (kvs.foldl readKv {}).byWorker.keys
  have hnodup := ((perm_insertionSort (fun a b : WorkerId => a.toNat ≤ b.toNat)
    (kvs.foldl readKv {}).byWorker.keys).nodup_iff).mpr (AList.keys_nodup _)
  refine (hsorted.and hnodup).filterMap _ ?_
  rintro a a' ⟨hle, hne⟩ worker hwork worker' hwork'
  obtain ⟨_, -, hview⟩ := bind_eq_some_iff.mp hwork
  obtain ⟨_, -, hview'⟩ := bind_eq_some_iff.mp hwork'
  rw [Builder.view_id hview, Builder.view_id hview']
  have := UInt32.toNat_inj.not.mpr hne
  exact UInt32.lt_iff_toNat_lt.mpr (by omega)

theorem Builder.set_other : (field ≠ "style" → (b.set field value).loadedRevision = b.loadedRevision) ∧
      (field ≠ "mode" → (b.set field value).renderMode = b.renderMode) ∧
      (field ≠ "scale" → (b.set field value).scale = b.scale) ∧
      (field ≠ "queue" → (b.set field value).queueDepth = b.queueDepth) := by
  unfold set
  split_ifs <;> grind

theorem Builder.set_style (b : Builder) (h : revision.id.value ≠ "") :
    (b.set "style" (toGossipValue revision)).loadedRevision = some (some revision) := by
  have hne : (toGossipValue revision).isEmpty = false := by simp [toGossipValue]
  simp [set, hne, parseGossipValue_toGossipValue h]

theorem Builder.set_mode (b : Builder) (mode : RenderMode) :
    (b.set "mode" mode.asGossipValue).renderMode = some mode := by
  cases mode <;> rfl

theorem Builder.set_scale (b : Builder) (scale : Scale) : (b.set "scale" scale.asGossipValue).scale = some scale := by
  cases scale <;> rfl

theorem builder_view (hout : ∀ key value, (key, value) ∈ kvs ↔
      (writes.foldl GossipWrite.apply init).lookup key = some value)
    (hkeys : ∀ key ∈ init.keys, ∀ id field, workerField key = some (id, field) → key = workerKey id field)
    (hstyle : ∀ prof, loadedProfile = some prof → prof.style.id.value ≠ "")
    (h : lastWritten (update id) writes = some (loadedProfile, queueDepth)) :
    ((kvs.foldl readKv {}).builder id).view id = some ⟨id, loadedProfile, queueDepth.toNat⟩ := by
  have hread {β : Type} (π : Builder → β) {v : β} {field value : String}
      (hlook : (writes.foldl GossipWrite.apply init).lookup (workerKey id field) = some value)
      (hset : ∀ b : Builder, π (b.set field value) = v)
      (hkeep : ∀ (b : Builder) field' value', field' ≠ field → π (b.set field' value') = π b) :
      π ((kvs.foldl readKv {}).builder id) = v := by
    refine builder_read π ((hout _ _).mpr hlook) (fun kv hkv hfield => ?_) hset hkeep
    have hlook' := (hout kv.1 kv.2).mp hkv
    have hkey : kv.1 = workerKey id field := by
      rcases key_origin hlook' hfield with hinit | hwrote
      · exact hkeys _ hinit _ _ hfield
      · exact hwrote.1
    rw [hkey, hlook] at hlook'
    exact Prod.ext hkey (some.inj hlook').symm
  obtain ⟨hqueue, hprof⟩ : Published (writes.foldl GossipWrite.apply init) id loadedProfile queueDepth :=
    published_last h
  have hdepth := hread Builder.queueDepth hqueue (fun _ => parseUnsigned_toString queueDepth.toNat_lt)
    (fun _ _ _ => Builder.set_other.2.2.2)
  cases loadedProfile with
  | none =>
    have hrev := hread Builder.loadedRevision hprof (fun _ => rfl) (fun _ _ _ => Builder.set_other.1)
    simp [Builder.view, Builder.loadedProfile, hrev, hdepth]
  | some prof =>
    obtain ⟨hstyle', hmode', hscale'⟩ := hprof
    have hrev := hread Builder.loadedRevision hstyle' (fun b => b.set_style (hstyle prof rfl))
      (fun _ _ _ => Builder.set_other.1)
    have hmode := hread Builder.renderMode hmode' (fun b => b.set_mode _) (fun _ _ _ => Builder.set_other.2.1)
    have hscale := hread Builder.scale hscale' (fun b => b.set_scale _) (fun _ _ _ => Builder.set_other.2.2.1)
    simp [Builder.view, Builder.loadedProfile, hrev, hmode, hscale, hdepth]

theorem byWorker_origin (h : (kvs.foldl readKv {}).byWorker.lookup id = some b) :
    ∃ kv ∈ kvs, ∃ field, workerField kv.1 = some (id, field) := by
  induction kvs using reverseRecOn generalizing b with
  | nil => cases h
  | append_singleton kvs kv ih =>
    rw [foldl_append, foldl_cons, foldl_nil] at h
    by_cases hkv : ∃ field, workerField kv.1 = some (id, field)
    · exact ⟨kv, by simp, hkv⟩
    · have hold : (kvs.foldl readKv {}).byWorker.lookup id = some b := by
        unfold readKv at h
        split_ifs at h
        · exact h
        · split at h
          · rename_i id' field hfield
            rwa [AList.lookup_insert_ne (by rintro rfl; exact hkv ⟨field, hfield⟩)] at h
          · exact h
      obtain ⟨kv', hmem, hfield⟩ := ih hold
      exact ⟨kv', by simp [hmem], hfield⟩

theorem gossip_state_roundtrip (node : NodeId) (initial : NodeKvs) (writes : List GossipWrite)
    (hstyles : ∀ id profile queueDepth, .worker id (some profile) queueDepth ∈ writes → profile.style.id.value ≠ "")
    (hkeys : ∀ key ∈ initial.keys, ∀ id field, workerField key = some (id, field) → key = workerKey id field)
    (kvs : List (String × String))
    (hout : ∀ key value, (key, value) ∈ kvs ↔ (writes.foldl GossipWrite.apply initial).lookup key = some value) :
    (∀ accepts, lastWritten flag writes = some accepts →
      (NodeStateView.fromKvs node kvs).acceptsNewRenders = accepts) ∧
    (∀ id loadedProfile queueDepth, lastWritten (update id) writes = some (loadedProfile, queueDepth) →
      ∀ worker : WorkerView, worker ∈ (NodeStateView.fromKvs node kvs).workers ∧ worker.id = id ↔
        worker = ⟨id, loadedProfile, queueDepth.toNat⟩) ∧
    (∀ worker ∈ (NodeStateView.fromKvs node kvs).workers,
      (lastWritten (update worker.id) writes).isSome = true ∨
        ∃ key ∈ initial.keys, ∃ field, workerField key = some (worker.id, field)) ∧
    (NodeStateView.fromKvs node kvs).workers.Pairwise (fun a b => a.id < b.id) := by
  refine ⟨fun accepts h => ?_, fun id loadedProfile queueDepth h worker => ?_, fun worker hworker => ?_,
    workers_ascending node kvs⟩
  · have hmem := (hout _ _).mpr (admission_last h)
    refine foldl_sets Reading.acceptsNewRenders hmem (fun s => ?_) (fun s kv hkv hne => ?_) {}
    · cases accepts <;> rfl
    · have hkey : kv.1 ≠ renderAdmissionGossipKey := by
        intro hkey
        have hlookup := (hout kv.1 kv.2).mp hkv
        rw [hkey, admission_last h] at hlookup
        exact hne (Prod.ext hkey (some.inj hlookup).symm)
      unfold readKv
      rw [if_neg hkey]
      split <;> rfl
  · have hstyle : ∀ profile, loadedProfile = some profile → profile.style.id.value ≠ "" := by
      rintro profile rfl
      obtain ⟨w, hw, hupdate⟩ := mem_filterMap.mp (mem_of_getLast? h)
      cases w with
      | admission accepts => cases hupdate
      | worker id' profile' depth' =>
        obtain ⟨rfl, rfl, rfl⟩ : id' = id ∧ profile' = some profile ∧ depth' = queueDepth := by
          simpa [update] using hupdate
        exact hstyles _ _ _ hw
    have hview := builder_view hout hkeys hstyle h
    obtain ⟨b, hb⟩ : ∃ b, (kvs.foldl readKv {}).byWorker.lookup id = some b := by
      cases hlookup : (kvs.foldl readKv {}).byWorker.lookup id with
      | some b => exact ⟨b, rfl⟩
      | none =>
        rw [Reading.builder, hlookup] at hview
        cases hview
    rw [Reading.builder, hb, getD_some] at hview
    rw [mem_workers]
    constructor
    · rintro ⟨⟨b', hb', hview'⟩, rfl⟩
      rw [hb] at hb'
      cases hb'
      rw [hview] at hview'
      exact (some.inj hview').symm
    · rintro rfl
      exact ⟨⟨b, hb, hview⟩, rfl⟩
  · obtain ⟨b, hb, -⟩ := mem_workers.mp hworker
    obtain ⟨kv, hkv, field, hfield⟩ := byWorker_origin hb
    rcases key_origin ((hout kv.1 kv.2).mp hkv) hfield with hinitial | hwritten
    · exact .inr ⟨kv.1, hinitial, field, hfield⟩
    · exact .inl hwritten.2

theorem mem_pairs {out : NodeKvs} :
    (key, value) ∈ out.entries.map (fun entry => (entry.1, entry.2)) ↔ out.lookup key = some value := by
  rw [← mem_def, AList.mem_lookup_iff]
  simp

def atSignProfile : WorkerProfile := ⟨⟨⟨"a@1"⟩, 12⟩, .tile, .x2⟩

-- a map that already holds the keys of worker 7 with another profile, of worker 8 and of the admission flag
def published : NodeKvs :=
  [.worker 7 (some ⟨⟨⟨"b"⟩, 4⟩, .static, .x1⟩) 9, .worker 8 none 2, .admission false].foldl GossipWrite.apply ∅

def publishedTwice : NodeKvs :=
  [.worker 7 none 0, .admission true, .worker 7 (some atSignProfile) 3].foldl GossipWrite.apply published

theorem publishedTwice_roundtrip :
    let view := NodeStateView.fromKvs ⟨"n"⟩ (publishedTwice.entries.map (fun entry => (entry.1, entry.2)))
    view.acceptsNewRenders = true ∧
      ∀ worker : WorkerView, worker ∈ view.workers ∧ worker.id = 7 ↔ worker = ⟨7, some atSignProfile, 3⟩ := by
  have hkeys : ∀ key ∈ published.keys, ∀ id field, workerField key = some (id, field) → key = workerKey id field := by
    intro key hkey id field hfield
    obtain ⟨value, hvalue⟩ := isSome_iff_exists.mp (AList.lookup_isSome.mpr (AList.mem_keys.mpr hkey))
    exact ((key_origin hvalue hfield).resolve_left not_mem_nil).1
  have h := gossip_state_roundtrip ⟨"n"⟩ published [.worker 7 none 0, .admission true, .worker 7 (some atSignProfile) 3]
    (by simp +contextual [atSignProfile]) hkeys _ (fun _ _ => mem_pairs)
  exact ⟨h.1 true rfl, h.2.1 7 (some atSignProfile) 3 rfl⟩

end Mappf.Biei
