import Mappf.Lib.Bytes

/-! # Fallible computations and cursors

A computation ends with a value, with an error chain (outermost context first), or with a fault: an
overflowing operation or an access outside a buffer, which the source turns into a panic or a wrong
value. `Safe` excludes the fault. A cursor reads from the front of a buffer. -/
namespace Mappf
open List

inductive Failure
  | bail (chain : List String)
  | fault
  deriving DecidableEq

abbrev Fallible (α : Type) := Except Failure α

def bail {α : Type} (message : String) : Fallible α := .error (.bail [message])

def context {α : Type} (message : String) : Fallible α → Fallible α
  | .error (.bail chain) => .error (.bail (message :: chain))
  | result => result

variable {α β : Type}

variable {ε : Type} {f : α → Except ε β} {x : Fallible α} {l : List α}

theorem bind_eq_ok {x : Except ε α} {b : β} : (x >>= f) = .ok b ↔ ∃ a, x = .ok a ∧ f a = .ok b := by
  cases x with
  | error e | ok a => simp [bind, Except.bind]

@[simp] theorem ok_bind (a : α) (f : α → Except ε β) : ((.ok a : Except ε α) >>= f) = f a := rfl

theorem context_eq_ok {message : String} {a : α} : context message x = .ok a ↔ x = .ok a := by
  unfold context
  split
  · constructor <;> nofun
  · exact Iff.rfl

/-- A loop ends normally if every turn does, under an invariant of the state and the turns left. -/
theorem foldlM_ok {σ : Type} {step : σ → α → Except ε σ} (I : σ → List α → Prop)
    (hstep : ∀ s a l, I s (a :: l) → ∃ s', step s a = .ok s' ∧ I s' l) {s : σ} (h : I s l) :
    ∃ s', l.foldlM step s = .ok s' ∧ I s' [] := by
  induction l generalizing s with
  | nil => exact ⟨s, rfl, h⟩
  | cons a l ih =>
    obtain ⟨s', hs', h'⟩ := hstep s a l h
    rw [foldlM_cons, hs', ok_bind]
    exact ih h'

theorem forM_eq_ok {f : α → Except ε Unit} : l.forM f = .ok () ↔ ∀ a ∈ l, f a = .ok () := by
  induction l with
  | nil => simp [pure, Except.pure]
  | cons a l ih =>
    have hcons : (a :: l).forM f = (f a >>= fun _ => l.forM f) := rfl
    rw [hcons, bind_eq_ok, forall_mem_cons, ← ih]
    constructor
    · rintro ⟨⟨⟩, ha, hl⟩
      exact ⟨ha, hl⟩
    · rintro ⟨ha, hl⟩
      exact ⟨(), ha, hl⟩

theorem mapM_mem_iff {bs : List β} (h : l.mapM f = .ok bs) (b : β) : b ∈ bs ↔ ∃ a ∈ l, f a = .ok b := by
  induction l generalizing bs with
  | nil =>
    cases h
    simp
  | cons a l ih =>
    rw [mapM_cons] at h
    obtain ⟨b', hb', h⟩ := bind_eq_ok.mp h
    obtain ⟨bs', hbs', h⟩ := bind_eq_ok.mp h
    cases h
    rw [mem_cons, ih hbs']
    constructor
    · rintro (rfl | ⟨a', ha', hf⟩)
      · exact ⟨a, mem_cons_self, hb'⟩
      · exact ⟨a', mem_cons_of_mem a ha', hf⟩
    · rintro ⟨a', ha', hf⟩
      cases mem_cons.mp ha' with
      | inl heq =>
        subst heq
        exact .inl (Except.ok.inj (hf.symm.trans hb'))
      | inr hmem => exact .inr ⟨a', hmem, hf⟩

theorem mapM_ok {P : β → Prop} (h : ∀ a ∈ l, ∃ b, f a = .ok b ∧ P b) :
    ∃ bs, l.mapM f = .ok bs ∧ (∀ b ∈ bs, P b) ∧ bs.length = l.length := by
  induction l with
  | nil => exact ⟨[], rfl, fun b hb => (nomatch hb), rfl⟩
  | cons a l ih =>
    obtain ⟨b, hb, hP⟩ := h a mem_cons_self
    obtain ⟨bs, hbs, hall, hlen⟩ := ih (fun a' ha' => h a' (mem_cons_of_mem a ha'))
    refine ⟨b :: bs, ?_, ?_, congrArg Nat.succ hlen⟩
    · rw [mapM_cons, hb, ok_bind, hbs]
      rfl
    · intro b' hb'
      rcases mem_cons.mp hb' with rfl | hb'
      · exact hP
      · exact hall b' hb'

/-! ## Freedom from faults -/

def Safe (x : Fallible α) : Prop := x ≠ .error .fault

theorem safe_ok (a : α) : Safe (.ok a : Fallible α) := by
  nofun

theorem safe_bail (message : String) : Safe (bail message : Fallible α) := by
  nofun

theorem Safe.bind {f : α → Fallible β} (hx : Safe x) (hf : ∀ a, x = .ok a → Safe (f a)) : Safe (x >>= f) := by
  cases x with
  | ok a => exact hf a rfl
  | error e =>
    intro h
    apply hx
    cases h
    rfl

theorem Safe.context (hx : Safe x) (message : String) : Safe (context message x) := by
  cases x with
  | ok a => exact safe_ok a
  | error e =>
    cases e with
    | bail chain => intro h; cases h
    | fault => exact hx

/-! ## Cursors -/

abbrev Cursor (α : Type) := StateT Bytes Fallible α

/-- The next `n` bytes; a fault if fewer remain. -/
def getBytes (n : ℕ) : Cursor Bytes := fun buf =>
  if buf.length < n then .error .fault else .ok (buf.take n, buf.drop n)

/-- Stops with an error unless the condition holds. -/
def ensure (p : Prop) [Decidable p] (message : String) : Cursor Unit :=
  StateT.lift (if p then .ok () else bail message)

/-- With `n` bytes left, `x` does not fault and uses no more than those. -/
def Reads (n : ℕ) (x : Cursor α) : Prop :=
  ∀ buf : Bytes, n ≤ buf.length → Safe (x buf) ∧ ∀ a rest, x buf = .ok (a, rest) → buf.length ≤ rest.length + n

theorem reads_getBytes (n : ℕ) : Reads n (getBytes n) := by
  intro buf hn
  rw [getBytes, if_neg (Nat.not_lt.mpr hn)]
  refine ⟨safe_ok _, ?_⟩
  intro a rest h
  cases h
  rw [length_drop]
  omega

theorem reads_lift (hx : Safe x) : Reads 0 (StateT.lift x : Cursor α) := by
  intro buf _
  show Safe (x >>= fun a => .ok (a, buf)) ∧ _
  refine ⟨hx.bind (fun a _ => safe_ok _), ?_⟩
  intro a rest h
  obtain ⟨a', _, he⟩ := bind_eq_ok.mp (show (x >>= fun a => Except.ok (a, buf)) = .ok (a, rest) from h)
  cases he
  rfl

theorem reads_ensure (p : Prop) [Decidable p] (message : String) : Reads 0 (ensure p message) := by
  apply reads_lift
  split_ifs
  · exact safe_ok _
  · exact safe_bail _

theorem reads_pure (a : α) : Reads 0 (pure a : Cursor α) := by
  intro buf _
  refine ⟨safe_ok _, ?_⟩
  intro a' rest h
  cases h
  rfl

theorem Reads.bind {n k : ℕ} {x : Cursor α} {f : α → Cursor β} (hx : Reads n x) (hle : n ≤ k)
    (hf : ∀ a, Reads (k - n) (f a)) : Reads k (x >>= f) := by
  intro buf hlen
  obtain ⟨hsafe, huse⟩ := hx buf (by omega)
  show Safe (x buf >>= fun out => f out.1 out.2) ∧ _
  refine ⟨hsafe.bind ?_, ?_⟩
  · intro out hout
    have hrest := huse out.1 out.2 hout
    exact (hf out.1 out.2 (by omega)).1
  · intro b rest h
    obtain ⟨out, hout, hb⟩ := bind_eq_ok.mp (show (x buf >>= fun out => f out.1 out.2) = .ok (b, rest) from h)
    have hrest := huse out.1 out.2 hout
    have hrest' := (hf out.1 out.2 (by omega)).2 b rest hb
    omega

end Mappf
