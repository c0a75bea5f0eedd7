import Mappf.Ishikari.ProviderCache
import Mappf.Styles.ResponseFreshness

/-! # Lifetimes of composed glyph ranges

`glyph.rs`: a stack that the provider does not have is composed of the ranges of its fonts. The composite gets the least
of the lifetimes its parts had left when they arrived, but its age counts from the end of the merge, so the time that
the slowest part, the CPU queue and the merge took is granted twice. A `Cache-Control` text is given by its directives. -/
namespace Mappf.Ishikari
open FileSource (ParsedCacheControl second)
open Styles (Directive parseValues u64Max)
open Upstream (HttpError)

/-- A resource and when its fetch returned it. -/
structure GlyphPart where
  cacheControl : List Directive
  ageSeconds : ℕ
  arrivedAt : ℕ

namespace GlyphPart

variable (part : GlyphPart)

def control : ParsedCacheControl := (parseValues [part.cacheControl]).getD {}

def noTransform : Bool := part.cacheControl.any (·.nameEq "no-transform")

def bypassesCache : Bool := part.control.noStore || part.control.noCache || part.control.isPrivate

def clientLifetime : ℕ := part.control.maxAge.getD 0

def sharedLifetime : ℕ := (part.control.sMaxage.or part.control.maxAge).getD 0

def ageAt (now : ℕ) : ℕ := part.ageSeconds + (now - part.arrivedAt) / second

end GlyphPart

open GlyphPart (clientLifetime sharedLifetime bypassesCache noTransform)

inductive CompositePolicy
  | noStore
  | shared (maxAge sMaxage : ℕ) (mustRevalidate : Bool)

namespace CompositePolicy

def directives : CompositePolicy → List Directive
  | noStore => [⟨"no-store", none⟩]
  | shared maxAge sMaxage mustRevalidate =>
    [⟨"public", none⟩, ⟨"max-age", some (toString maxAge)⟩, ⟨"s-maxage", some (toString sMaxage)⟩] ++
      if mustRevalidate then [⟨"must-revalidate", none⟩] else []

def text (policy : CompositePolicy) : String :=
  ", ".intercalate (policy.directives.map fun directive => directive.name ++ (directive.value.map ("=" ++ ·)).getD "")

end CompositePolicy

def leastFresh (lifetime : GlyphPart → ℕ) (resources : List GlyphPart) : ℕ :=
  resources.foldl (fun fresh part => min fresh (lifetime part - part.ageSeconds)) u64Max

def compositeCachePolicy (resources : List GlyphPart) : Except HttpError (CompositePolicy × ℕ) :=
  let clientFresh := leastFresh clientLifetime resources
  let sharedFresh := leastFresh sharedLifetime resources
  if resources.any noTransform then .error ⟨502, "glyph component forbids transformation"⟩
  else if resources.any bypassesCache then .ok (.noStore, 0)
  else .ok (.shared clientFresh sharedFresh
    (resources.any fun part => part.control.mustRevalidate || part.control.proxyRevalidate), sharedFresh)

structure CachedGlyphComposite where
  policy : CompositePolicy
  storedAt : ℕ
  freshFor : ℕ

/-- The policy is fixed when the last part is there, the clock is read after the merge. -/
def buildGlyphComposite (resources : List GlyphPart) (merged : ℕ) : Except HttpError CachedGlyphComposite :=
  (compositeCachePolicy resources).map fun (policy, freshFor) => ⟨policy, merged, freshFor⟩

namespace CachedGlyphComposite

/-- What `current_resource` serves: the policy as a receiver reads it, at an age that counts from `stored_at`. -/
def resource (composite : CachedGlyphComposite) : GlyphPart := ⟨composite.policy.directives, 0, composite.storedAt⟩

def CachedAt (composite : CachedGlyphComposite) (now : ℕ) : Prop :=
  now < composite.storedAt + composite.freshFor * second

/-- What is served of the composite at any time is not fresh for longer than the part, up to a second. -/
structure Bounded (composite : CachedGlyphComposite) (part : GlyphPart) (now : ℕ) : Prop where
  client : composite.resource.clientLifetime - composite.resource.ageAt now ≤ part.clientLifetime - part.ageAt now + 1
  shared : composite.resource.sharedLifetime - composite.resource.ageAt now ≤ part.sharedLifetime - part.ageAt now + 1
  cached : composite.CachedAt now → now ≤ part.arrivedAt + (part.sharedLifetime - part.ageSeconds) * second + second
  bypassed : part.bypassesCache = true → ¬ composite.CachedAt now ∧ composite.policy.text = "no-store"

end CachedGlyphComposite

variable {resources : List GlyphPart} {merged now : ℕ} {composite : CachedGlyphComposite} {part : GlyphPart}

theorem le_leastFresh {lifetime : GlyphPart → ℕ} {fresh : ℕ} : fresh ≤ leastFresh lifetime resources ↔
    fresh ≤ u64Max ∧ ∀ part ∈ resources, fresh ≤ lifetime part - part.ageSeconds := by
  unfold leastFresh
  generalize u64Max = bound
  induction resources generalizing bound with
  | nil => simp
  | cons part resources ih => simp [ih, and_assoc]

theorem leastFresh_le (lifetime : GlyphPart → ℕ) (hpart : part ∈ resources) :
    leastFresh lifetime resources ≤ lifetime part - part.ageSeconds :=
  (le_leastFresh.mp le_rfl).2 part hpart

theorem seconds_toString (name : String) {n : ℕ} (h : n ≤ u64Max) :
    (⟨name, some (toString n)⟩ : Directive).seconds = n := by
  have hdigits : (toString n).toList.all Char.isDigit = true := List.all_eq_true.mpr fun _ => isDigit_of_mem_toString
  have hread : Styles.decimal (toString n).toList = n := by
    rw [Nat.toString_eq_ofList_toDigits, String.toList_ofList, Styles.decimal]
    have hdecimal := @Nat.ofDigitChars_toDigits 10 n (by decide) (by decide)
    simp only [Nat.ofDigitChars_eq_foldl, Nat.mul_comm 10] at hdecimal
    exact hdecimal
  unfold Directive.seconds
  dsimp only
  rw [hdigits, hread, min_eq_left h]
  simp

/-- A receiver reads the numbers that the policy was written with. -/
theorem lifetimes_shared {client shared : ℕ} (hclient : client ≤ u64Max) (hshared : shared ≤ u64Max)
    (mustRevalidate : Bool) (arrivedAt : ℕ) :
    let part : GlyphPart := ⟨(CompositePolicy.shared client shared mustRevalidate).directives, 0, arrivedAt⟩
    part.clientLifetime = client ∧ part.sharedLifetime = shared := by
  have hmax := Directive.getD_deltaSeconds ⟨"max-age", some (toString client)⟩
  have hsmax := Directive.getD_deltaSeconds ⟨"s-maxage", some (toString shared)⟩
  rw [seconds_toString _ hclient] at hmax
  rw [seconds_toString _ hshared] at hsmax
  unfold CompositePolicy.directives
  dsimp only
  generalize some (toString client) = maxAge at hmax ⊢
  generalize some (toString shared) = sMaxage at hsmax ⊢
  cases mustRevalidate with
  | _ =>
    simp [clientLifetime, sharedLifetime, GlyphPart.control, parseValues, Styles.mergeConservative,
      Styles.readDirective_fields, Directive.nameEq, eqIgnoreAsciiCase, hmax, hsmax]

theorem CachedGlyphComposite.resource_ageAt : composite.resource.ageAt now = (now - composite.storedAt) / second :=
  Nat.zero_add _

theorem buildGlyphComposite_spec (h : buildGlyphComposite resources merged = .ok composite) :
    composite.storedAt = merged ∧
      ((resources.any bypassesCache = true ∧ composite.policy = .noStore ∧ composite.freshFor = 0) ∨
        (resources.any bypassesCache = false ∧ composite.freshFor = composite.resource.sharedLifetime ∧
          composite.resource.clientLifetime = leastFresh clientLifetime resources ∧
          composite.resource.sharedLifetime = leastFresh sharedLifetime resources)) := by
  unfold buildGlyphComposite compositeCachePolicy at h
  split_ifs at h with htransform hbypass
  · cases h
  · cases h
    exact ⟨rfl, .inl ⟨hbypass, rfl, rfl⟩⟩
  · cases h
    have hbound := fun lifetime => (@le_leastFresh resources lifetime _).mp le_rfl
    obtain ⟨hclient, hshared⟩ := lifetimes_shared (hbound clientLifetime).1 (hbound sharedLifetime).1 _
      merged
    exact ⟨rfl, .inr ⟨eq_false_of_ne_true hbypass, hshared.symm, hclient, hshared⟩⟩

theorem left_le {fresh lifetime age elapsed elapsed' : ℕ} (hfresh : fresh ≤ lifetime - age)
    (helapsed : elapsed' ≤ elapsed + 1) : fresh - elapsed ≤ lifetime - (age + elapsed') + 1 := by
  omega

theorem bounded_of_prompt (h : buildGlyphComposite resources merged = .ok composite) (hpart : part ∈ resources)
    (hprompt : merged ≤ part.arrivedAt + second) (hnow : merged ≤ now) : composite.Bounded part now := by
  have hages : (now - part.arrivedAt) / second ≤ (now - merged) / second + 1 := by
    rw [← Nat.add_div_right _ (by decide)]
    exact Nat.div_le_div_right (by omega)
  have hclient := leastFresh_le clientLifetime hpart
  have hshared := leastFresh_le sharedLifetime hpart
  obtain ⟨rfl, ⟨hbypass, hpol, hfresh⟩ | ⟨hbypass, hfresh, hmaxAge, hsMaxage⟩⟩ := buildGlyphComposite_spec h
  · have hexp : ¬ composite.CachedAt now := by
      unfold CachedGlyphComposite.CachedAt
      rw [hfresh]
      omega
    have hclient : composite.resource.clientLifetime = 0 := by rw [CachedGlyphComposite.resource, hpol]; rfl
    have hshared : composite.resource.sharedLifetime = 0 := by rw [CachedGlyphComposite.resource, hpol]; rfl
    exact ⟨by omega, by omega, fun hcached => absurd hcached hexp, fun _ => ⟨hexp, by rw [hpol]; rfl⟩⟩
  · refine ⟨?_, ?_, fun hcached => ?_, fun hpasses => ?_⟩
    · rw [composite.resource_ageAt]
      exact left_le (hmaxAge.trans_le hclient) hages
    · rw [composite.resource_ageAt]
      exact left_le (hsMaxage.trans_le hshared) hages
    · unfold CachedGlyphComposite.CachedAt at hcached
      rw [hfresh, hsMaxage] at hcached
      have hspan := Nat.mul_le_mul_right second hshared
      omega
    · exact absurd (List.any_eq_true.mpr ⟨part, hpart, hpasses⟩) (by simp [hbypass])

/-- A part that is fresh for ninety-nine seconds more. -/
def lastingPart (arrivedAt : ℕ) : GlyphPart := ⟨[⟨"max-age", some "99"⟩], 0, arrivedAt⟩

/-- A composite never outlives its parts, whatever their policies, exactly if it is stored within a second after each
of them arrived. -/
theorem composite_bounded_iff (arrivals : List ℕ) (merged : ℕ) :
    (∀ resources composite, resources.map GlyphPart.arrivedAt = arrivals →
      buildGlyphComposite resources merged = .ok composite →
        ∀ part ∈ resources, ∀ now, merged ≤ now → composite.Bounded part now) ↔
      ∀ arrivedAt ∈ arrivals, merged ≤ arrivedAt + second := by
  constructor
  · intro hbounded arrivedAt harrived
    by_contra hlate
    have harrivals : (arrivals.map lastingPart).map GlyphPart.arrivedAt = arrivals := by
      rw [List.map_map]
      exact List.map_id arrivals
    have hplain : ∀ test : GlyphPart → Bool, (∀ arrivedAt, test (lastingPart arrivedAt) = false) →
        (arrivals.map lastingPart).any test = false := by
      intro test htest
      simp [htest]
    have hbypass := hplain bypassesCache fun _ => rfl
    obtain ⟨composite, hbuild⟩ : ∃ composite, buildGlyphComposite (arrivals.map lastingPart) merged = .ok composite := by
      simp [buildGlyphComposite, compositeCachePolicy, hplain noTransform fun _ => rfl, hbypass, Except.map]
    have hclient : 99 ≤ leastFresh clientLifetime (arrivals.map lastingPart) := by
      refine le_leastFresh.mpr ⟨by decide, fun part hpart => ?_⟩
      obtain ⟨arrivedAt, -, rfl⟩ := List.mem_map.mp hpart
      exact (show 99 = (lastingPart arrivedAt).clientLifetime from rfl).le
    obtain ⟨rfl, ⟨hbypassed, -⟩ | ⟨-, -, hmaxAge, -⟩⟩ := buildGlyphComposite_spec hbuild
    · exact Bool.noConfusion (hbypass.symm.trans hbypassed)
    -- just before the composite is a second old, the part is at least two seconds old
    have hleft := (hbounded _ composite harrivals hbuild (lastingPart arrivedAt) (List.mem_map_of_mem harrived)
      (composite.storedAt + (second - 1)) (Nat.le_add_right _ _)).client
    have hyoung : composite.resource.ageAt (composite.storedAt + (second - 1)) = 0 := by
      rw [composite.resource_ageAt, Nat.add_sub_cancel_left]
      decide
    have hold : 2 ≤ (lastingPart arrivedAt).ageAt (composite.storedAt + (second - 1)) := by
      refine le_trans ?_ (Nat.le_add_left _ _)
      rw [Nat.le_div_iff_mul_le (by decide)]
      simp only [lastingPart]
      omega
    have hlasts : (lastingPart arrivedAt).clientLifetime = 99 := rfl
    omega
  · intro hprompt resources composite harrivals hbuild part hpart now hnow
    refine bounded_of_prompt hbuild hpart (hprompt _ ?_) hnow
    rw [← harrivals]
    exact List.mem_map_of_mem hpart

/-- Both parts ran out while the merge waited. -/
theorem lastingPart_outlived : ∃ composite, buildGlyphComposite [lastingPart 0, lastingPart 0] (200 * second) =
    .ok composite ∧ composite.CachedAt (200 * second) ∧ ¬ composite.Bounded (lastingPart 0) (200 * second) := by
  refine ⟨⟨.shared 99 99 false, 200 * second, 99⟩, by rfl, ?_, fun hbounded => ?_⟩
  · unfold CachedGlyphComposite.CachedAt
    decide
  · exact absurd hbounded.client (by decide)

end Mappf.Ishikari
