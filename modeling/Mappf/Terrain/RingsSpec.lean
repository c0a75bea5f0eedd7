import Mappf.Lib.Trail
import Mappf.Terrain.Rings

/-! # What the walks use

The walks of a label use every directed arc of the label once. If the directed arcs are balanced, every walk
closes. -/
namespace Mappf.Terrain
open List Function

section
variable {arcs : List SharedArc}

/-! ## Slots -/

/-- The slots hold the arcs not used yet, each under its start. -/
def Slotted (slots : Slots arcs.length) (left : List (Directed arcs)) : Prop :=
  ∀ point, (slots point).Perm (left.filter (fun d => directedStart d = point))

variable {slots : Slots arcs.length} {left : List (Directed arcs)} {out : LabelRings arcs} {point : Point}
  {d : Directed arcs} {rest : List (Directed arcs)}

theorem Slotted.mem (h : Slotted slots left) : d ∈ slots point ↔ d ∈ left ∧ directedStart d = point := by
  rw [(h point).mem_iff, mem_filter, decide_eq_true_eq]

theorem Slotted.take (h : Slotted slots left) (hslot : (slots point).Perm (d :: rest)) :
    ∃ left', left.Perm (d :: left') ∧ Slotted (update slots point rest) left' := by
  obtain ⟨hmem, rfl⟩ := h.mem.mp (hslot.symm.subset mem_cons_self)
  have hleft := perm_cons_erase hmem
  refine ⟨left.erase d, hleft, ?_⟩
  intro point
  have hfilt := (h point).trans (hleft.filter _)
  by_cases heq : point = directedStart d
  · subst heq
    rw [update_self]
    rw [filter_cons_of_pos (by simp)] at hfilt
    exact (hslot.symm.trans hfilt).cons_inv
  · rw [update_of_ne heq]
    rwa [filter_cons_of_neg (by simpa using Ne.symm heq)] at hfilt

theorem takeTurningArc_spec (candidates : List (Directed arcs)) (incoming : ℤ) :
    (candidates = [] ∧ takeTurningArc candidates incoming = none) ∨
      ∃ next rest, takeTurningArc candidates incoming = some (next, rest) ∧ candidates.Perm (next :: rest) := by
  by_cases hnil : candidates = []
  · left
    rw [hnil]
    exact ⟨rfl, rfl⟩
  · right
    have hlt := List.minIdxOn_lt_length (f := fun d : Directed arcs =>
      (toLex (turnRank incoming (directedStartDirection d), d.key) : ℕ ×ₗ ℕ ×ₗ Bool)) hnil
    refine ⟨_, _, ?_, (List.getElem_cons_eraseIdx_perm hlt).symm⟩
    rw [takeTurningArc, List.minIdxOn?_eq_some_minIdxOn hnil]
    simp only [Option.bind_eq_bind, Option.bind_some, List.getElem?_eq_getElem hlt]
    rfl

/-! ## One walk -/

abbrev ArcTrail (start stop : Point) (taken : List (Directed arcs)) : Prop :=
  Trail directedStart directedEnd start stop taken

theorem walkLoop_spec {start : Point} {fuel : ℕ} {walk : Walk arcs} {slots : Slots arcs.length}
    {left : List (Directed arcs)} (hslots : Slotted slots left) :
    ∃ walk' slots' left', walkLoop start fuel walk slots = (walk', slots') ∧ Slotted slots' left' ∧
      (walk'.taken ++ left').Perm (walk.taken ++ left) ∧ (left' ⊆ left ∧ left'.length ≤ left.length) ∧
      (LeftOver directedStart directedEnd start walk.current left → left.length < fuel →
        ArcTrail start walk.current walk.taken →
        walk'.current = start ∧ ArcTrail start start walk'.taken ∧ Balanced directedStart directedEnd left') := by
  induction fuel generalizing walk slots left with
  | zero =>
    exact ⟨walk, slots, left, rfl, hslots, List.Perm.refl _, ⟨List.Subset.refl _, le_refl _⟩, fun _ h => (nomatch h)⟩
  | succ fuel ih =>
    rw [walkLoop]
    split_ifs with hclosed
    · refine ⟨walk, slots, left, rfl, hslots, List.Perm.refl _, ⟨List.Subset.refl _, le_refl _⟩, ?_⟩
      intro hleft _ htrail
      rw [hclosed] at hleft htrail
      exact ⟨hclosed, htrail, hleft.balanced⟩
    · rcases takeTurningArc_spec (slots walk.current) walk.incoming with ⟨hnil, hnone⟩ | ⟨next, rest, hsome, hperm⟩
      · rw [hnone]
        refine ⟨walk, slots, left, rfl, hslots, List.Perm.refl _, ⟨List.Subset.refl _, le_refl _⟩, ?_⟩
        intro hleft _ _
        -- an arc that leaves the current point is in its slot
        have hmem := hslots.mem.mpr (hleft.exists_next hclosed).choose_spec
        simp [hnil] at hmem
      · rw [hsome]
        obtain ⟨left₁, hleft₁, hslots₁⟩ := hslots.take hperm
        have hlen := hleft₁.length_eq
        rw [length_cons] at hlen
        obtain ⟨walk', slots', left', hrun, hslots', htaken, ⟨hsub, hless⟩, hclose⟩ :=
          @ih (walk.extend next) _ _ hslots₁
        refine ⟨walk', slots', left', hrun, hslots', ?_, ?_, ?_⟩
        · refine htaken.trans ?_
          rw [Walk.extend, append_assoc]
          exact List.Perm.append_left _ hleft₁.symm
        · exact ⟨List.Subset.trans hsub (fun e he => hleft₁.symm.subset (mem_cons_of_mem _ he)), by omega⟩
        · intro hleft hfuel htrail
          have hnext := (hslots.mem.mp (hperm.symm.subset mem_cons_self)).2
          refine hclose ?_ (by omega) (trail_concat htrail hnext)
          apply LeftOver.step (a := next)
          intro v
          rw [← flow_perm hleft₁, hnext]
          exact hleft v

/-! ## All walks from one start -/

def LabelRings.taken (out : LabelRings arcs) : List (Directed arcs) := out.walks.flatMap (fun walk => walk.2.taken)

def LabelRings.Closed (out : LabelRings arcs) : Prop :=
  ∀ walk ∈ out.walks, walk.2.current = walk.1 ∧ ArcTrail walk.1 walk.1 walk.2.taken

/-- Of the walks that are back at their start, only rings of fewer than four points are dropped. -/
def LabelRings.Kept (out : LabelRings arcs) : Prop :=
  out.rings = ((out.walks.filter (fun walk => walk.2.current = walk.1)).map (fun walk => closeRing walk.2.ring)).filter
    (fun ring => 4 ≤ ring.length)

theorem LabelRings.Kept.add (h : out.Kept) (start : Point) (walk : Walk arcs) : (out.add start walk).Kept := by
  rw [Kept] at h ⊢
  simp only [LabelRings.add, filter_append, map_append, ← h]
  by_cases hclosed : walk.current = start
  · by_cases hlong : 4 ≤ (closeRing walk.ring).length <;> simp [hclosed, hlong]
  · simp [hclosed]

theorem LabelRings.taken_add (out : LabelRings arcs) (start : Point) (walk : Walk arcs) :
    (out.add start walk).taken = out.taken ++ walk.taken := by
  rw [taken, add, flatMap_append, flatMap_singleton]
  rfl

theorem LabelRings.Closed.add (h : out.Closed) {start : Point} {walk : Walk arcs} (hcur : walk.current = start)
    (htrail : ArcTrail start start walk.taken) : (out.add start walk).Closed := by
  intro entry hentry
  rcases mem_append.mp hentry with hentry | hentry
  · exact h entry hentry
  · rw [mem_singleton.mp hentry]
    exact ⟨hcur, htrail⟩

/-- What one turn or one loop makes of the arcs of a label: none is lost, and if the arcs not used yet are
balanced, the walks close. -/
structure Advance (out : LabelRings arcs) (left : List (Directed arcs)) (out' : LabelRings arcs)
    (left' : List (Directed arcs)) : Prop where
  taken : (out'.taken ++ left').Perm (out.taken ++ left)
  subset : left' ⊆ left
  length : left'.length ≤ left.length
  closed : Balanced directedStart directedEnd left → left.length ≤ arcs.length → out.Closed →
    out'.Closed ∧ Balanced directedStart directedEnd left'
  kept : out.Kept → out'.Kept

theorem Advance.refl (out : LabelRings arcs) (left : List (Directed arcs)) : Advance out left out left :=
  ⟨List.Perm.refl _, List.Subset.refl _, le_refl _, fun h _ hout => ⟨hout, h⟩, fun h => h⟩

theorem Advance.trans {out' out'' : LabelRings arcs} {left' left'' : List (Directed arcs)}
    (h : Advance out left out' left') (h' : Advance out' left' out'' left'') : Advance out left out'' left'' where
  taken := h'.taken.trans h.taken
  subset := List.Subset.trans h'.subset h.subset
  length := h'.length.trans h.length
  closed := by
    intro hbal hlen hout
    obtain ⟨hout', hbal'⟩ := h.closed hbal hlen hout
    exact h'.closed hbal' (h.length.trans hlen) hout'
  kept := fun hout => h'.kept (h.kept hout)

variable {start : Point}

theorem walk_advance (hslots : Slotted slots left) {first : Directed arcs} (hslot : slots start = first :: rest)
    (out : LabelRings arcs) :
    ∃ walk slots' left', walkLoop start (arcs.length + 1) (Walk.begin first) (update slots start rest) =
        (walk, slots') ∧ Slotted slots' left' ∧ left'.length < left.length ∧
      Advance out left (out.add start walk) left' := by
  obtain ⟨left₁, hleft₁, hslots₁⟩ := hslots.take (List.Perm.of_eq hslot)
  have hlen := hleft₁.length_eq
  rw [length_cons] at hlen
  obtain ⟨walk, slots', left', hrun, hslots', htaken, ⟨hsub, hless⟩, hclose⟩ :=
    @walkLoop_spec arcs start (arcs.length + 1) (Walk.begin first) _ _ hslots₁
  have hall : (walk.taken ++ left').Perm left := htaken.trans hleft₁.symm
  refine ⟨walk, slots', left', hrun, hslots', by omega, ?_, ?_, by omega, ?_, fun h => h.add start walk⟩
  · rw [LabelRings.taken_add, append_assoc]
    exact List.Perm.append_left _ hall
  · exact List.Subset.trans hsub (fun e he => hleft₁.symm.subset (mem_cons_of_mem _ he))
  · intro hbal hmax hout
    have hfirst : directedStart first = start := (hslots.mem.mp (by rw [hslot]; exact mem_cons_self)).2
    have hover : LeftOver directedStart directedEnd (directedStart first) (directedEnd first) left₁ := by
      apply Balanced.leftOver
      intro v
      rw [← flow_perm hleft₁]
      exact hbal v
    rw [hfirst] at hover
    obtain ⟨hcur, htrail, hbal'⟩ := hclose hover (by omega) ⟨hfirst, rfl⟩
    exact ⟨hout.add hcur htrail, hbal'⟩

theorem startLoop_spec {fuel : ℕ} {slots : Slots arcs.length} {left : List (Directed arcs)}
    (hslots : Slotted slots left) (hfuel : left.length < fuel) :
    ∃ out' slots' left', startLoop start fuel (out, slots) = .ok (out', slots') ∧ Slotted slots' left' ∧
      (∀ d ∈ left', directedStart d ≠ start) ∧ Advance out left out' left' := by
  induction fuel generalizing out slots left with
  | zero => cases hfuel
  | succ fuel ih =>
    rw [startLoop]
    cases hslot : slots start with
    | nil =>
      refine ⟨out, slots, left, rfl, hslots, ?_, Advance.refl out left⟩
      intro d hd hstart
      have hmem := hslots.mem.mpr ⟨hd, hstart⟩
      simp [hslot] at hmem
    | cons first rest =>
      obtain ⟨walk, slots₁, left₁, hrun, hslots₁, hless, hadv⟩ := walk_advance hslots hslot out
      obtain ⟨out', slots', left', hrun', hslots', hempty, hadv'⟩ :=
        @ih (out.add start walk) _ _ hslots₁ (by omega)
      refine ⟨out', slots', left', ?_, hslots', hempty, hadv.trans hadv'⟩
      dsimp only
      rw [hrun]
      exact hrun'

/-! ## One label -/

structure Filling (s : Filled arcs) (put : List (Directed arcs)) : Prop where
  slotted : Slotted s.slots put
  covered : ∀ d ∈ put, directedStart d ∈ s.starts

theorem fillStep_spec {s : Filled arcs} {put : List (Directed arcs)} (h : Filling s put) (d : Directed arcs) :
    Filling (fillStep s d) (put ++ [d]) := by
  refine ⟨fun point => ?_, fun e he => ?_⟩
  · rw [filter_append]
    dsimp only [fillStep]
    by_cases heq : point = directedStart d
    · subst heq
      rw [update_self, filter_cons_of_pos (by simp)]
      exact (h.slotted _).append_right _
    · rw [update_of_ne heq, filter_cons_of_neg (by simpa using Ne.symm heq), filter_nil, append_nil]
      exact h.slotted point
  · have hold : ∀ e ∈ put, directedStart e ∈ (fillStep s d).starts := by
      intro e he
      unfold fillStep
      split_ifs
      · exact mem_append_left _ (h.covered e he)
      · exact h.covered e he
    rcases mem_append.mp he with he | he
    · exact hold e he
    rw [mem_singleton.mp he]
    by_cases hempty : (s.slots (directedStart d)).isEmpty = true
    · simp [fillStep, hempty]
    · -- a slot that is not empty holds an arc with the same start
      obtain ⟨e', he'⟩ := exists_mem_of_ne_nil _ (fun hnil => hempty (isEmpty_iff.mpr hnil))
      obtain ⟨hput, hsame⟩ := h.slotted.mem.mp he'
      exact hsame ▸ hold e' hput

theorem fill_spec (hslots : ∀ point, slots point = []) (directed : List (Directed arcs)) :
    Filling (directed.foldl fillStep ⟨slots, []⟩) directed := by
  induction directed using List.reverseRecOn with
  | nil => exact ⟨fun point => by simp [hslots], nofun⟩
  | append_singleton directed d ih =>
    rw [foldl_append]
    exact fillStep_spec ih d

theorem mapTouched_perm {f : List (DirectedArc arcs.length) → List (DirectedArc arcs.length)}
    (hf : ∀ slot, (f slot).Perm slot) (touched : List Point) (slots : Slots arcs.length) (point : Point) :
    (mapTouched f touched slots point).Perm (slots point) := by
  induction touched generalizing slots with
  | nil => exact List.Perm.refl _
  | cons first touched ih =>
    refine (ih _).trans ?_
    dsimp only
    by_cases heq : point = first
    · rw [heq, update_self]
      exact hf _
    · rw [update_of_ne heq]

theorem mapTouched_clear (touched : List Point) (h : ∀ point, slots point = []) (point : Point) :
    mapTouched (fun _ => []) touched slots point = [] := by
  induction touched generalizing slots with
  | nil => exact h point
  | cons first touched ih =>
    apply ih
    intro point'
    dsimp only
    by_cases heq : point' = first
    · rw [heq, update_self]
    · rw [update_of_ne heq, h]

structure Walking (directed : List (Directed arcs)) (s : LabelRings arcs × Slots arcs.length)
    (starts : List Point) (left : List (Directed arcs)) : Prop where
  slotted : Slotted s.2 left
  advance : Advance ⟨[], []⟩ directed s.1 left
  covered : ∀ d ∈ left, directedStart d ∈ starts

theorem startLoop_walking {directed : List (Directed arcs)} {s : LabelRings arcs × Slots arcs.length}
    {starts : List Point} (h : Walking directed s (start :: starts) left) :
    ∃ s', startLoop start (directed.length + 1) s = .ok s' ∧ ∃ left', Walking directed s' starts left' := by
  obtain ⟨out, slots⟩ := s
  obtain ⟨out', slots', left', hrun, hslotted, hempty, hadv⟩ :=
    startLoop_spec h.slotted (Nat.lt_succ_of_le h.advance.length)
  refine ⟨(out', slots'), hrun, left', hslotted, h.advance.trans hadv, fun e he => ?_⟩
  rcases mem_cons.mp (h.covered e (hadv.subset he)) with hsame | hstart
  · exact absurd hsame (hempty e he)
  · exact hstart

structure Assembled (label : Label) (out : LabelRings arcs) : Prop where
  taken : out.taken.Perm (directedArcs arcs label)
  closed : Balanced directedStart directedEnd (directedArcs arcs label) →
    (directedArcs arcs label).length ≤ arcs.length → out.Closed
  kept : out.Kept

theorem assembleLabel_spec (hslots : ∀ point, slots point = []) (label : Label) :
    ∃ out slots', assembleLabel slots label = .ok (out, slots') ∧ (∀ point, slots' point = []) ∧
      Assembled label out := by
  have hfilling := fill_spec hslots (directedArcs arcs label)
  rw [assembleLabel]
  generalize (directedArcs arcs label).foldl fillStep ⟨slots, []⟩ = filled at hfilling ⊢
  have hbegin : Walking (directedArcs arcs label)
      (⟨[], []⟩, mapTouched (fun slot => slot.insertionSort (fun d e => d.key ≤ e.key)) filled.starts filled.slots)
      (filled.starts.insertionSort (fun p q => (toLex p : ℤ ×ₗ ℤ) ≤ toLex q)) (directedArcs arcs label) := by
    refine ⟨fun point => ?_, Advance.refl _ _, fun d hd => (mem_insertionSort _).mpr (hfilling.covered d hd)⟩
    exact (mapTouched_perm (fun slot => perm_insertionSort _ slot) _ _ point).trans (hfilling.slotted point)
  obtain ⟨⟨out, slots'⟩, hrun, left, hwalking⟩ := foldlM_ok
    (fun s starts => ∃ left, Walking (directedArcs arcs label) s starts left)
    (fun s start starts h => startLoop_walking h.choose_spec) ⟨_, hbegin⟩
  have hleft : left = [] := by
    rw [eq_nil_iff_forall_not_mem]
    intro d hd
    cases hwalking.covered d hd
  subst hleft
  have htaken := hwalking.advance.taken
  rw [append_nil] at htaken
  refine ⟨out, mapTouched (fun _ => []) filled.starts slots', ?_, ?_, htaken, ?_, hwalking.advance.kept rfl⟩
  · dsimp only
    rw [hrun]
    rfl
  · exact mapTouched_clear filled.starts (fun point => List.Perm.eq_nil (hwalking.slotted point))
  · intro hbal hlen
    exact (hwalking.advance.closed hbal hlen (fun walk hwalk => (nomatch hwalk))).1

structure Assembling (s : List (Label × LabelRings arcs) × Slots arcs.length) (todo : List Label) : Prop where
  empty : ∀ point, s.2 point = []
  labels : s.1.map Prod.fst ++ todo = labels arcs
  assembled : ∀ entry ∈ s.1, Assembled entry.1 entry.2

theorem labelStep_spec {s : List (Label × LabelRings arcs) × Slots arcs.length} {label : Label} {todo : List Label}
    (h : Assembling s (label :: todo)) : ∃ s', labelStep s label = .ok s' ∧ Assembling s' todo := by
  obtain ⟨rings, slots', hrun, hempty, hassembled⟩ := assembleLabel_spec h.empty label
  refine ⟨(s.1 ++ [(label, rings)], slots'), ?_, hempty, ?_, ?_⟩
  · rw [labelStep, hrun]
    rfl
  · rw [← h.labels, map_append, append_assoc]
    rfl
  · intro entry hentry
    rcases mem_append.mp hentry with hentry | hentry
    · exact h.assembled entry hentry
    · rw [mem_singleton.mp hentry]
      exact hassembled

variable (arcs) in
theorem assembleLabels_spec :
    ∃ out, assembleLabels arcs = .ok out ∧ out.map Prod.fst = labels arcs ∧
      ∀ entry ∈ out, Assembled entry.1 entry.2 := by
  have hbegin : Assembling ([], fun _ => []) (labels arcs) :=
    ⟨fun _ => rfl, rfl, fun entry hentry => (nomatch hentry)⟩
  obtain ⟨⟨out, slots⟩, hrun, hend⟩ := foldlM_ok Assembling (fun _ _ _ h => labelStep_spec h) hbegin
  refine ⟨out, ?_, ?_, hend.assembled⟩
  · rw [assembleLabels, hrun]
    rfl
  · rw [← hend.labels, append_nil]

end

end Mappf.Terrain
