import Mappf.Cluster.RefreshReceiver

/-! # What an acknowledgement is worth

A hint is entered into the filter before it takes effect. A repeated delivery is acknowledged on the strength of that
entry alone, so it is acknowledged too early while the first one is still under way, and wrongly when the first one
found the style not configured or was dropped. In a run without these three, every acknowledgement is truthful. -/
namespace Mappf.Cluster
open List

/-- Between the admission of a hint and its last effect. -/
def Phase.active : Phase → Bool
  | .applying | .publishing => true
  | .arrived | .answered _ _ | .dropped => false

section Invariant

variable {σ : Type} {service : Service σ} {s s' : Session σ} {i : ℕ} {hint : StyleRefreshHint} {phase phase' : Phase}

namespace Session

def underWay (s : Session σ) (key : DedupKey) : Bool :=
  s.tasks.any (fun task => task.hint.key = key && task.phase.active) || s.watching.any (fun hint => hint.key = key)

/-- A repeated delivery finds nobody under way with the same hint, and a style is configured when a hint for it is
applied. -/
def promptTask (service : Service σ) (s : Session σ) (task : Task) : Bool :=
  match task.phase with
  | .arrived => (s.admitHint task.hint).2 = .accepted || !s.underWay task.hint.key
  | .applying => service.configured s.styles task.hint.styleId
  | .publishing | .answered _ _ | .dropped => true

/-- Nor is a handler dropped while it publishes. -/
def prompt (service : Service σ) (s : Session σ) : Action σ → Bool
  | .move i => (s.tasks[i]?).all (s.promptTask service)
  | .drop i => (s.tasks[i]?).all (fun task => task.phase ≠ .publishing)
  | .apply => s.watching.all (fun hint => service.configured s.styles hint.styleId)
  | .deliver _ | .observe _ | .change _ | .tick _ => true

theorem underWay_iff {key : DedupKey} : s.underWay key = true ↔
    (∃ task ∈ s.tasks, task.hint.key = key ∧ task.phase.active = true) ∨
      ∃ hint, s.watching = some hint ∧ hint.key = key := by
  simp [underWay, Option.any_eq_true]

def Kept (s : Session σ) (task : Task) : Prop :=
  match task.phase with
  | .arrived | .dropped => True
  | .applying => task.hint.validate = .ok ()
  | .publishing => task.hint.validate = .ok () ∧ task.hint.key ∈ s.revalidated
  | .answered status _ => status = 202 → s.Effected task.hint.key

end Session

/-! ## The invariant -/

structure Prompt (s : Session σ) : Prop where
  present : ∀ key, s.dedup.present.contains key = true → s.underWay key = true ∨ s.Effected key
  kept : ∀ task ∈ s.tasks, s.Kept task
  watching : ∀ hint, s.watching = some hint → hint.key ∈ s.received

structure Later (s s' : Session σ) : Prop where
  revalidated : s.revalidated ⊆ s'.revalidated
  published : s.published ⊆ s'.published
  received : s.received ⊆ s'.received

namespace Later

theorem refl (s : Session σ) : Later s s := ⟨fun _ h => h, fun _ h => h, fun _ h => h⟩

theorem effected (h : Later s s') {key : DedupKey} (heff : s.Effected key) : s'.Effected key :=
  ⟨h.revalidated heff.1, heff.2.imp (fun hk => h.published hk) (fun hk => h.received hk)⟩

theorem kept (h : Later s s') {task : Task} (hkept : s.Kept task) : s'.Kept task := by
  obtain ⟨hint, phase⟩ := task
  cases phase with
  | publishing => exact ⟨hkept.1, h.revalidated hkept.2⟩
  | answered status body => exact fun hstat => h.effected (hkept hstat)
  | _ => exact hkept

end Later

namespace Prompt

section

variable (h : Prompt s)
include h

/-- Whoever was under way still is, or the hint has taken effect. -/
theorem of_step (hlater : Later s s') (htasks : ∀ task ∈ s'.tasks, task ∈ s.tasks ∨ s'.Kept task)
    (hpres : ∀ key, s'.dedup.present.contains key = true →
      s.dedup.present.contains key = true ∨ s'.underWay key = true)
    (hway : ∀ key, s.underWay key = true → s'.underWay key = true ∨ s'.Effected key)
    (hwatch : ∀ hint, s'.watching = some hint → hint.key ∈ s'.received) : Prompt s' := by
  refine ⟨fun key hkey => ?_, fun task htask => ?_, hwatch⟩
  · obtain hold | hnew := hpres key hkey
    · obtain hunder | heff := h.present key hold
      · exact hway key hunder
      · exact .inr (hlater.effected heff)
    · exact .inl hnew
  · exact (htasks task htask).elim (fun hold => hlater.kept (h.kept task hold)) id

theorem turn (htask : s.tasks[i]? = some ⟨hint, phase⟩) (hlater : Later s s')
    (htasks : s'.tasks = s.tasks) (hwatch : s'.watching = s.watching)
    (hpres : ∀ key, s'.dedup.present.contains key = true →
      s.dedup.present.contains key = true ∨ (phase'.active = true ∧ key = hint.key))
    (hkept : s'.Kept ⟨hint, phase'⟩) (hended : phase.active = true → phase'.active = true ∨ s'.Effected hint.key) :
    Prompt (s'.turn i hint phase') := by
  have hset : (s'.turn i hint phase').tasks = s.tasks.set i ⟨hint, phase'⟩ := by rw [← htasks]; rfl
  have hlt : i < s.tasks.length := lt_length htask
  have hmine : phase'.active = true → (s'.turn i hint phase').underWay hint.key = true := fun hactive =>
    Session.underWay_iff.mpr (.inl ⟨⟨hint, phase'⟩, by rw [hset]; exact mem_set hlt _, rfl, hactive⟩)
  refine h.of_step ⟨hlater.revalidated, hlater.published, hlater.received⟩ ?_ ?_ ?_ ?_
  · rw [hset]
    exact mem_set_or hkept
  · intro key hkey
    exact (hpres key hkey).imp_right (fun ⟨hactive, hsame⟩ => hsame ▸ hmine hactive)
  · intro key hunder
    obtain ⟨task, hmem, rfl, hactive⟩ | ⟨hint', hsome, hhint⟩ := Session.underWay_iff.mp hunder
    · obtain ⟨j, hj⟩ := mem_iff_getElem?.mp hmem
      by_cases hij : i = j
      · subst hij
        obtain rfl : (⟨hint, phase⟩ : Task) = task := Option.some.inj (htask.symm.trans hj)
        exact (hended hactive).imp_left hmine
      · refine .inl (Session.underWay_iff.mpr (.inl ⟨task, ?_, rfl, hactive⟩))
        rw [hset]
        exact mem_of_getElem? ((getElem?_set_ne hij).trans hj)
    · exact .inl (Session.underWay_iff.mpr (.inr ⟨hint', hwatch.trans hsome, hhint⟩))
  · intro hint' hsome
    exact hlater.received (h.watching hint' (hwatch.symm.trans hsome))

/-- A duplicate is acknowledged when the first delivery has ended. -/
theorem arrive (htask : s.tasks[i]? = some ⟨hint, .arrived⟩)
    (hprompt : s.promptTask service ⟨hint, .arrived⟩ = true) : Prompt (s.move service i hint .arrived) := by
  have hpres : ∀ key, (s.admitHint hint).1.present.contains key = true →
      s.dedup.present.contains key = true ∨ ((s.admitHint hint).2 = .accepted ∧ key = hint.key) :=
    fun key hkey => DedupState.admitHint_present hkey
  have hdup : (s.admitHint hint).2 = .duplicate → s.Effected hint.key := by
    intro hsame
    have hquiet : s.underWay hint.key = false := by simpa [Session.promptTask, hsame] using hprompt
    refine (h.present hint.key (DedupState.admitHint_duplicate hsame)).resolve_left ?_
    simp [hquiet]
  dsimp only [Session.move]
  cases hvalid : hint.validate with
  | error err =>
    exact h.turn htask (.refl s) rfl rfl (fun _ hold => .inl hold) nofun nofun
  | ok _ =>
    generalize s.admitHint hint = admission at hpres hdup ⊢
    obtain ⟨dedup, verdict⟩ := admission
    have hlater : Later s { s with dedup } := ⟨fun _ hk => hk, fun _ hk => hk, fun _ hk => hk⟩
    cases verdict with
    | duplicate =>
      refine h.turn htask hlater rfl rfl (fun key hkey => .inl ?_) (fun _ => hdup rfl) nofun
      simpa using hpres key hkey
    | accepted =>
      exact h.turn htask hlater rfl rfl (fun key hkey => (hpres key hkey).imp_right (fun hnew => ⟨rfl, hnew.2⟩))
        hvalid nofun

theorem applied (htask : s.tasks[i]? = some ⟨hint, .applying⟩)
    (hprompt : s.promptTask service ⟨hint, .applying⟩ = true) : Prompt (s.move service i hint .applying) := by
  dsimp only [Session.move]
  rw [if_pos (show service.configured s.styles hint.styleId = true from hprompt)]
  have hlater : Later s (s.revalidate service hint) :=
    ⟨subset_append_left _ _, fun _ hk => hk, fun _ hk => hk⟩
  exact h.turn htask hlater rfl rfl (fun _ hold => .inl hold)
    ⟨h.kept _ (mem_of_getElem? htask), mem_append_right _ (mem_singleton.mpr rfl)⟩ (fun _ => .inl rfl)

theorem publish (htask : s.tasks[i]? = some ⟨hint, .publishing⟩) : Prompt (s.move service i hint .publishing) := by
  obtain ⟨hvalid, hreval⟩ := h.kept _ (mem_of_getElem? htask)
  dsimp only [Session.move]
  rw [StyleRefreshHint.encode_of_valid service.json hvalid]
  have heff : Session.Effected
      { s with
        gossip := s.gossip.insert hint.gossipKey (hint.toJson service.json), published := s.published ++ [hint.key] }
      hint.key :=
    ⟨hreval, .inl (mem_append_right _ (mem_singleton.mpr rfl))⟩
  exact h.turn htask ⟨fun _ hk => hk, subset_append_left _ _, fun _ hk => hk⟩ rfl rfl
    (fun _ hold => .inl hold) (fun _ => heff) (fun _ => .inr heff)

/-- Steps that leave the deliveries alone. -/
theorem aside (hlater : Later s s') (htasks : s'.tasks = s.tasks)
    (hpres : ∀ key, s'.dedup.present.contains key = true → s.dedup.present.contains key = true ∨
      ∃ hint, s'.watching = some hint ∧ hint.key = key)
    (hkept : ∀ hint, s.watching = some hint → s'.watching = some hint ∨ s'.Effected hint.key)
    (hwatch : ∀ hint, s'.watching = some hint → hint.key ∈ s'.received) : Prompt s' := by
  refine h.of_step hlater (fun task hmem => .inl (htasks ▸ hmem)) ?_ ?_ hwatch
  · exact fun key hkey => (hpres key hkey).imp_right (fun hnew => Session.underWay_iff.mpr (.inr hnew))
  · intro key hunder
    obtain hfound | ⟨hint, hsome, rfl⟩ := Session.underWay_iff.mp hunder
    · exact .inl (Session.underWay_iff.mpr (.inl (htasks ▸ hfound)))
    · exact (hkept hint hsome).imp_left (fun hstill => Session.underWay_iff.mpr (.inr ⟨hint, hstill, rfl⟩))

theorem observe (hint : StyleRefreshHint) : Prompt (s.step service (.observe hint)) := by
  dsimp only [Session.step]
  split_ifs with hready
  · have hidle : s.watching = none := by simpa using (Bool.and_eq_true_iff.mp hready).2
    have hpres : ∀ key, (s.admitHint hint).1.present.contains key = true →
        s.dedup.present.contains key = true ∨ ((s.admitHint hint).2 = .accepted ∧ key = hint.key) :=
      fun key hkey => DedupState.admitHint_present hkey
    generalize s.admitHint hint = admission at hpres ⊢
    obtain ⟨dedup, verdict⟩ := admission
    cases verdict with
    | duplicate =>
      refine h.aside ⟨fun _ hk => hk, fun _ hk => hk, subset_append_left _ _⟩ rfl (fun key hkey => .inl ?_)
        (by simp [hidle]) (by simp [hidle])
      simpa using hpres key hkey
    | accepted =>
      refine h.aside ⟨fun _ hk => hk, fun _ hk => hk, subset_append_left _ _⟩ rfl ?_ (by simp [hidle]) (by simp)
      exact fun key hkey => (hpres key hkey).imp_right (fun hnew => ⟨hint, rfl, hnew.2.symm⟩)
  · exact h

theorem apply (hprompt : s.prompt service .apply = true) : Prompt (s.step service .apply) := by
  dsimp only [Session.step]
  cases hwatch : s.watching with
  | none => exact h
  | some hint =>
    have hconf : service.configured s.styles hint.styleId = true := by
      simpa [Session.prompt, hwatch] using hprompt
    dsimp only
    rw [if_pos hconf]
    refine h.aside ⟨subset_append_left _ _, fun _ hk => hk, fun _ hk => hk⟩ rfl (fun _ hold => .inl hold) ?_ nofun
    intro hint' hsome
    obtain rfl : hint = hint' := Option.some.inj (hwatch.symm.trans hsome)
    exact .inr ⟨mem_append_right _ (mem_singleton.mpr rfl), .inr (h.watching hint hwatch)⟩

theorem deliver (hint : StyleRefreshHint) : Prompt (s.step service (.deliver hint)) := by
  refine h.of_step ⟨fun _ hk => hk, fun _ hk => hk, fun _ hk => hk⟩ ?_ (fun _ hkey => .inl hkey) ?_ h.watching
  · intro task hmem
    refine (mem_append.mp hmem).imp_right (fun hnew => ?_)
    rw [mem_singleton.mp hnew]
    trivial
  · intro key hunder
    refine .inl (Session.underWay_iff.mpr ((Session.underWay_iff.mp hunder).imp_left ?_))
    exact fun ⟨task, hmem, hactive⟩ => ⟨task, mem_append_left _ hmem, hactive⟩

theorem step {action : Action σ} (hprompt : s.prompt service action = true) : Prompt (s.step service action) := by
  cases action with
  | deliver hint => exact h.deliver hint
  | move i =>
    dsimp only [Session.step, Session.prompt] at hprompt ⊢
    cases htask : s.tasks[i]? with
    | none => exact h
    | some task =>
      rw [htask] at hprompt
      obtain ⟨hint, phase⟩ := task
      cases phase with
      | arrived => exact h.arrive htask hprompt
      | applying => exact h.applied htask hprompt
      | publishing => exact h.publish htask
      | answered status body | dropped => exact h
  | drop i =>
    dsimp only [Session.step, Session.prompt] at hprompt ⊢
    cases htask : s.tasks[i]? with
    | none => exact h
    | some task =>
      rw [htask] at hprompt
      obtain ⟨hint, phase⟩ := task
      cases phase with
      | arrived => exact h.turn htask (.refl s) rfl rfl (fun _ hold => .inl hold) trivial nofun
      | publishing => cases hprompt
      | _ => exact h
  | observe hint => exact h.observe hint
  | apply => exact h.apply hprompt
  | change styles | tick elapsed => exact ⟨h.present, h.kept, h.watching⟩

end

end Prompt
end Invariant

/-! ## Runs -/

variable {σ : Type}

def promptSessions (service : Service σ) (styles : σ) : Machine (Session σ) where
  init := { styles }
  step := fun s s' => ∃ action, s.prompt service action = true ∧ s' = s.step service action

/-- Of either service, whatever happens to its styles. -/
theorem acknowledgements_truthful (service : Service σ) (styles : σ) (s : Session σ)
    (h : Reachable (promptSessions service styles) s) : s.Truthful := by
  have hprompt : Prompt s := by
    refine h.invariant (I := Prompt) ⟨fun _ h => (by cases h), fun _ h => (by cases h), fun _ h => (by cases h)⟩ ?_
    rintro s _ hs ⟨action, haction, rfl⟩
    exact hs.step haction
  intro task hmem body hphase
  have hkept := hprompt.kept task hmem
  unfold Session.Kept at hkept
  rw [hphase] at hkept
  exact hkept rfl

namespace Example

def refresh : StyleRefreshHint := ⟨1, "h", "a/b"⟩

def repeated (σ : Type) : List (Action σ) := [.deliver refresh, .move 0, .move 0, .move 0, .deliver refresh, .move 1]

/-- The first delivery is answered that the style is not configured, the second that the refresh is accepted. -/
theorem retry_after_404_acknowledged :
    ∃ s, Reachable (sessions (biei .minimal) {}) s ∧ s.tasks.map (fun task => task.phase) =
      [.answered 404 "style not configured", .answered 202 "refresh accepted"] ∧ ¬ s.Truthful := by
  refine ⟨_, reachable_foldl (Session.step (biei .minimal)) { styles := {} } (repeated BieiStyles),
    by decide +kernel, fun h => ?_⟩
  have heffected := h ⟨refresh, .answered 202 "refresh accepted"⟩ (by decide +kernel) _ rfl
  exact absurd heffected.1 (by decide +kernel)

def provided : IshikariStyles where
  resolveStyleUrl styleId := some styleId

def acknowledged : Session IshikariStyles :=
  (repeated IshikariStyles).foldl (Session.step (ishikari .minimal)) { styles := provided }

theorem repeated_acknowledged_truthfully :
    acknowledged.tasks.map (fun task => task.phase) =
      [.answered 202 "refresh accepted\n", .answered 202 "refresh accepted\n"] ∧ acknowledged.Truthful := by
  have hstep : ∀ (s : Session IshikariStyles) action, s.prompt (ishikari .minimal) action = true →
      (promptSessions (ishikari .minimal) provided).step s (s.step (ishikari .minimal) action) :=
    fun _ action h => ⟨action, h, rfl⟩
  have hreachable : Reachable (promptSessions (ishikari .minimal) provided) acknowledged :=
    Reachable.init.foldl_checked (Session.prompt (ishikari .minimal)) hstep (by decide +kernel)
  exact ⟨by decide +kernel, acknowledgements_truthful (ishikari .minimal) provided acknowledged hreachable⟩

end Example

end Mappf.Cluster
