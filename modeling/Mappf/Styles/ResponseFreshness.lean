import Mappf.FileSource.Response
import Mappf.Lib.Text
import Mappf.Styles.CatalogSpec

/-! # How long a style response keeps a style from being fetched again

`mmpf-http`'s `cache_control.rs` and `profile_fetch.rs`: the lifetime that the provider declares, less the age of the
response, is handed to the catalog, which adds it to the clock. Digits beyond a `u64` saturate, so the sum may leave
the clock's range. A `Cache-Control` field is given by its directives, a date field by the date that is read from it;
`systemNow` is the wall clock. -/
namespace Mappf.Styles
open FileSource (ParsedCacheControl second)

structure Directive where
  name : String
  value : Option String

def u64Max : ℕ := 2 ^ 64 - 1
def durationMax : Duration := 2 ^ 64 * second - 1

def parseDeltaSeconds (value : String) : Option ℕ :=
  if value.isEmpty || !value.toList.all Char.isDigit then none
  else some (value.toList.foldl (fun seconds digit => min (min (seconds * 10) u64Max + (digit.toNat - 48)) u64Max) 0)

namespace Directive

def nameEq (directive : Directive) (expected : String) : Bool := eqIgnoreAsciiCase directive.name expected

def deltaSeconds (directive : Directive) : Option ℕ := directive.value.bind parseDeltaSeconds

end Directive

/-- A directive without a well-formed value counts as zero. -/
def mergeConservative (target parsed : Option ℕ) : Option ℕ :=
  some (target.elim (parsed.getD 0) (fun current => min current (parsed.getD 0)))

def readDirective (control : ParsedCacheControl) (directive : Directive) : ParsedCacheControl :=
  if directive.nameEq "no-store" then { control with noStore := true }
  else if directive.nameEq "no-cache" then { control with noCache := true }
  else if directive.nameEq "private" then { control with isPrivate := true }
  else if directive.nameEq "must-revalidate" then { control with mustRevalidate := true }
  else if directive.nameEq "proxy-revalidate" then { control with proxyRevalidate := true }
  else if directive.nameEq "max-age" then
    { control with maxAge := mergeConservative control.maxAge directive.deltaSeconds }
  else if directive.nameEq "s-maxage" then
    { control with sMaxage := mergeConservative control.sMaxage directive.deltaSeconds }
  else if directive.nameEq "stale-while-revalidate" then
    { control with
      staleWhileRevalidate := mergeConservative control.staleWhileRevalidate directive.deltaSeconds }
  else control

def parseValues (values : List (List Directive)) : Option ParsedCacheControl :=
  if values.isEmpty then none else some (values.flatten.foldl readDirective {})

structure StyleHeaders where
  /-- One entry for each field, `none` for a value that is not text. -/
  cacheControl : List (Option (List Directive)) := []
  /-- `some none` is a field that is not a date. -/
  expires : Option (Option ℕ) := none
  age : Option String := none
  date : Option ℕ := none

def trim (value : String) : String :=
  String.ofList ((value.toList.dropWhile isWhitespace).reverse.dropWhile isWhitespace).reverse

variable (headers : StyleHeaders) (responseDelay systemNow : ℕ)

def responseCurrentAge : Duration :=
  let age := ((headers.age.bind (fun age => parseUnsigned (2 ^ 64) (trim age))).map (· * second)).getD 0
  max (min (age + responseDelay) durationMax) ((headers.date.map (systemNow - ·)).getD 0)

def styleResponseFreshness : Duration :=
  let control := parseValues headers.cacheControl.reduceOption
  if control.any (fun control => control.noStore || control.noCache || control.isPrivate) then 0
  else
    match control.bind (fun control => control.sMaxage.or control.maxAge) with
    | some seconds => seconds * second - responseCurrentAge headers responseDelay systemNow
    | none => (headers.expires.join.map (· - systemNow)).getD 0

def styleResponseFreshnessUpdate : Option Duration :=
  if !headers.cacheControl.isEmpty || headers.expires.isSome then
    some (styleResponseFreshness headers responseDelay systemNow)
  else none

inductive StyleResponse
  | fetched
  /-- A `304` for a document that is kept with the freshness it had. -/
  | notModified (stale : Duration)

def StyleResponse.servedFreshness : StyleResponse → Duration
  | .fetched => styleResponseFreshness headers responseDelay systemNow
  | .notModified stale => (styleResponseFreshnessUpdate headers responseDelay systemNow).getD stale

/-! ## What the headers declare -/

def decimal (digits : List Char) : ℕ := digits.foldl (fun n digit => n * 10 + (digit.toNat - 48)) 0

namespace Directive

/-- The number that stands in a directive, at most a `u64`; zero if there is none. -/
def seconds (directive : Directive) : ℕ :=
  match directive.value with
  | some value =>
    if value.isEmpty || !value.toList.all Char.isDigit then 0 else min (decimal value.toList) u64Max
  | none => 0

def forbids (directive : Directive) : Bool :=
  directive.nameEq "no-store" || directive.nameEq "no-cache" || directive.nameEq "private"

end Directive

namespace StyleHeaders

variable (headers : StyleHeaders)

def directives : List Directive := headers.cacheControl.reduceOption.flatten

/-- The response is `span` old, by its `Age` and the time it took to arrive or by its `Date`. -/
def AgedBy (responseDelay systemNow span : ℕ) : Prop :=
  span ≤ min (((headers.age.bind (fun age => parseUnsigned (2 ^ 64) (trim age))).map (· * second)).getD 0 + responseDelay)
      durationMax ∨ ∃ date, headers.date = some date ∧ span ≤ systemNow - date

/-- Some directive of this name leaves at most `room` at the age of the response. -/
def Bounded (responseDelay systemNow room : ℕ) (name : String) : Prop :=
  ∃ directive ∈ headers.directives, directive.nameEq name = true ∧
    headers.AgedBy responseDelay systemNow (directive.seconds * second - room)

/-- The headers declare that at most `room` of the response's lifetime remains: a directive forbids to keep it, or one
of its `s-maxage`, or without any of its `max-age`, or without either its `Expires`, says so. -/
def LastsAtMost (responseDelay systemNow room : ℕ) : Prop :=
  (∃ directive ∈ headers.directives, directive.forbids = true) ∨
    headers.Bounded responseDelay systemNow room "s-maxage" ∨
    (∀ directive ∈ headers.directives, directive.nameEq "s-maxage" = false) ∧
      (headers.Bounded responseDelay systemNow room "max-age" ∨
        (∀ directive ∈ headers.directives, directive.nameEq "max-age" = false) ∧
          ∀ date, headers.expires = some (some date) → date ≤ systemNow + room)

end StyleHeaders

/-- A sparse `304` leaves the lifetime as it was. -/
def StyleResponse.LastsAtMost (headers : StyleHeaders) (responseDelay systemNow room : ℕ) : StyleResponse → Prop
  | .fetched => headers.LastsAtMost responseDelay systemNow room
  | .notModified stale =>
    if headers.cacheControl = [] ∧ headers.expires = none then stale ≤ room
    else headers.LastsAtMost responseDelay systemNow room

theorem saturating_decimal (digits : List Char) (n : ℕ) :
    digits.foldl (fun seconds digit => min (min (seconds * 10) u64Max + (digit.toNat - 48)) u64Max) (min n u64Max) =
      min (digits.foldl (fun n digit => n * 10 + (digit.toNat - 48)) n) u64Max := by
  induction digits generalizing n with
  | nil => rfl
  | cons digit digits ih =>
    have hstep : min (min (min n u64Max * 10) u64Max + (digit.toNat - 48)) u64Max =
        min (n * 10 + (digit.toNat - 48)) u64Max := by
      omega
    rw [List.foldl_cons, List.foldl_cons, hstep, ih]

theorem Directive.getD_deltaSeconds (directive : Directive) : directive.deltaSeconds.getD 0 = directive.seconds := by
  unfold deltaSeconds seconds
  cases directive.value with
  | none => rfl
  | some value =>
    rw [Option.bind_some, parseDeltaSeconds]
    dsimp only
    split_ifs
    · rfl
    · exact saturating_decimal value.toList 0

section directives
variable (control : ParsedCacheControl) (directive : Directive)

/-- No directive has two names, so the order in which they are tried does not matter. -/
theorem readDirective_fields :
    ((readDirective control directive).noStore || (readDirective control directive).noCache ||
        (readDirective control directive).isPrivate) =
      (control.noStore || control.noCache || control.isPrivate || directive.forbids) ∧
    (readDirective control directive).sMaxage =
      (if directive.nameEq "s-maxage" then mergeConservative control.sMaxage directive.deltaSeconds else control.sMaxage) ∧
    (readDirective control directive).maxAge =
      if directive.nameEq "max-age" then mergeConservative control.maxAge directive.deltaSeconds else control.maxAge := by
  unfold readDirective Directive.forbids Directive.nameEq eqIgnoreAsciiCase
  generalize directive.name.toList.map Char.toLower = name
  simp only [beq_iff_eq]
  split_ifs <;> subst_vars <;> simp_all

variable {control directive} {p : ℕ → Prop} (hp : ∀ a b, a ≤ b → p b → p a)
include hp

theorem mergeConservative_iff (target parsed : Option ℕ) :
    (∃ s, mergeConservative target parsed = some s ∧ p s) ↔ (∃ s, target = some s ∧ p s) ∨ p (parsed.getD 0) := by
  cases target with
  | none => simp [mergeConservative]
  | some current =>
    simp only [mergeConservative, Option.elim_some, Option.some.injEq, exists_eq_left']
    constructor
    · intro h
      rcases min_choice current (parsed.getD 0) with hmin | hmin <;> rw [hmin] at h
      · exact .inl h
      · exact .inr h
    · rintro (h | h)
      · exact hp _ _ (min_le_left _ _) h
      · exact hp _ _ (min_le_right _ _) h

/-- What one kind of directive comes to is bounded by each directive of the kind. -/
theorem foldl_readDirective_iff {field : ParsedCacheControl → Option ℕ} {name : String}
    (hfield : ∀ control directive, field (readDirective control directive) =
      if directive.nameEq name then mergeConservative (field control) directive.deltaSeconds else field control)
    (directives : List Directive) :
    (∃ s, field (directives.foldl readDirective control) = some s ∧ p s) ↔
      (∃ s, field control = some s ∧ p s) ∨ ∃ d ∈ directives, d.nameEq name = true ∧ p d.seconds := by
  induction directives generalizing control with
  | nil => simp
  | cons d directives ih =>
    rw [List.foldl_cons, ih, hfield, List.exists_mem_cons_iff, ← or_assoc]
    refine or_congr ?_ Iff.rfl
    cases hname : d.nameEq name with
    | true => simp [mergeConservative_iff hp, d.getD_deltaSeconds]
    | false => simp

end directives

section headers
variable (headers : StyleHeaders) (responseDelay systemNow room : ℕ)

theorem StyleHeaders.agedBy_iff (span : ℕ) :
    headers.AgedBy responseDelay systemNow span ↔ span ≤ responseCurrentAge headers responseDelay systemNow := by
  rw [AgedBy, responseCurrentAge, le_max_iff]
  refine or_congr_right' fun hage => ?_
  cases headers.date with
  | none => exact iff_of_false (by simp) (by dsimp only [Option.map_none, Option.getD_none]; omega)
  | some date => simp

def StyleHeaders.control : ParsedCacheControl := headers.directives.foldl readDirective {}

theorem styleResponseFreshness_eq : styleResponseFreshness headers responseDelay systemNow =
    if headers.control.noStore || headers.control.noCache || headers.control.isPrivate then 0
    else
      match headers.control.sMaxage.or headers.control.maxAge with
      | some seconds => seconds * second - responseCurrentAge headers responseDelay systemNow
      | none => (headers.expires.join.map (· - systemNow)).getD 0 := by
  unfold styleResponseFreshness parseValues StyleHeaders.control StyleHeaders.directives
  cases headers.cacheControl.reduceOption with
  | nil => rfl
  | cons values rest => rfl

theorem StyleHeaders.control_forbids :
    (headers.control.noStore || headers.control.noCache || headers.control.isPrivate) = true ↔
      ∃ directive ∈ headers.directives, directive.forbids = true := by
  have hfold : ∀ (directives : List Directive) (control : ParsedCacheControl),
      ((directives.foldl readDirective control).noStore || (directives.foldl readDirective control).noCache ||
          (directives.foldl readDirective control).isPrivate) =
        (control.noStore || control.noCache || control.isPrivate || directives.any Directive.forbids) := by
    intro directives
    induction directives with
    | nil => simp
    | cons d directives ih =>
      intro control
      rw [List.foldl_cons, ih, (readDirective_fields control d).1, List.any_cons, Bool.or_assoc _ d.forbids]
  rw [control, hfold, ← List.any_eq_true]
  simp

/-- The code's merged lifetime leaves `room` just if some directive of its name does. -/
theorem StyleHeaders.bounded_iff {field : ParsedCacheControl → Option ℕ} {name : String}
    (hfield : ∀ control directive, field (readDirective control directive) =
      if directive.nameEq name then mergeConservative (field control) directive.deltaSeconds else field control)
    (hnone : field {} = none) :
    match field headers.control with
    | some seconds => (headers.Bounded responseDelay systemNow room name ↔
          seconds * second - responseCurrentAge headers responseDelay systemNow ≤ room) ∧
        ¬ ∀ directive ∈ headers.directives, directive.nameEq name = false
    | none => ∀ directive ∈ headers.directives, directive.nameEq name = false := by
  have hfold {p : ℕ → Prop} (hp : ∀ a b, a ≤ b → p b → p a) :
      (∃ s, field headers.control = some s ∧ p s) ↔ ∃ d ∈ headers.directives, d.nameEq name = true ∧ p d.seconds := by
    rw [control, foldl_readDirective_iff hp hfield, hnone]
    simp
  have hbounded := hfold (p := fun s => headers.AgedBy responseDelay systemNow (s * second - room)) (by
    intro a b hab haged
    rw [agedBy_iff] at haged ⊢
    have hmul := Nat.mul_le_mul_right second hab
    omega)
  have hany := hfold (p := fun _ => True) (fun _ _ _ _ => trivial)
  cases hcontrol : field headers.control with
  | some seconds =>
    refine ⟨?_, fun hfree => ?_⟩
    · rw [Bounded, ← hbounded, hcontrol]
      simp only [Option.some.injEq, exists_eq_left', agedBy_iff]
      omega
    · obtain ⟨d, hd, hname, -⟩ := hany.mp ⟨seconds, hcontrol, trivial⟩
      rw [hfree d hd] at hname
      cases hname
  | none =>
    intro d hd
    by_contra hname
    obtain ⟨s, hs, -⟩ := hany.mpr ⟨d, hd, by simpa using hname, trivial⟩
    rw [hcontrol] at hs
    cases hs

theorem StyleHeaders.not_bounded {name : String} (h : ∀ directive ∈ headers.directives, directive.nameEq name = false) :
    ¬ headers.Bounded responseDelay systemNow room name := by
  rintro ⟨d, hd, hname, -⟩
  rw [h d hd] at hname
  cases hname

theorem styleResponseFreshness_le_iff :
    styleResponseFreshness headers responseDelay systemNow ≤ room ↔ headers.LastsAtMost responseDelay systemNow room := by
  have hshared := headers.bounded_iff responseDelay systemNow room (fun c d => (readDirective_fields c d).2.1) rfl
  have hown := headers.bounded_iff responseDelay systemNow room (fun c d => (readDirective_fields c d).2.2) rfl
  rw [styleResponseFreshness_eq, StyleHeaders.LastsAtMost, ← headers.control_forbids]
  split_ifs with hforbids
  · simp [hforbids]
  rw [or_iff_right hforbids]
  cases hs : headers.control.sMaxage with
  | some seconds =>
    rw [hs] at hshared
    simp only [Option.some_or, hshared.1, hshared.2, false_and, or_false]
  | none =>
    rw [hs] at hshared
    rw [or_iff_right (headers.not_bounded _ _ _ hshared), and_iff_right hshared, Option.none_or]
    cases hm : headers.control.maxAge with
    | some seconds =>
      rw [hm] at hown
      simp only [hown.1, hown.2, false_and, or_false]
    | none =>
      rw [hm] at hown
      rw [or_iff_right (headers.not_bounded _ _ _ hown), and_iff_right hown]
      rcases headers.expires with _ | _ | date <;> simp [Nat.add_comm]

theorem StyleResponse.servedFreshness_le_iff (response : StyleResponse) :
    response.servedFreshness headers responseDelay systemNow ≤ room ↔
      response.LastsAtMost headers responseDelay systemNow room := by
  have hle := styleResponseFreshness_le_iff headers responseDelay systemNow room
  cases response with
  | fetched => exact hle
  | notModified stale =>
    unfold servedFreshness LastsAtMost styleResponseFreshnessUpdate
    cases hcontrol : headers.cacheControl <;> cases hexpires : headers.expires <;> simp [hle]

end headers

/-! ## Recording the response -/

theorem StyleCatalogInner.settleHint_ok_iff (inner : StyleCatalogInner) (styleId : StyleId) (wire : Wire)
    (version : UInt64) :
    (inner.settleHint styleId wire version).2 = .ok () ↔ inner.Announceable styleId wire.json version := by
  unfold settleHint Announceable
  cases inner.pendingHints.lookup styleId with
  | none =>
    split_ifs <;> simp
  | some hintId =>
    cases henc : (StyleRevisionObservation.new hintId styleId version).encode wire.json <;> simp [henc]

variable (catalog : StyleCatalog) (styleId : StyleId) (wire : Wire) (now : Instant) (version : UInt64)
  (fence : RevalidationFence)

theorem recordObserved_ok_iff (fresh : Duration) :
    (∃ changed, (catalog.recordObservedForGeneration wire now styleId version fresh fence).2 = .ok changed) ↔
      now + max fresh catalog.minimumRevalidationInterval < 2 ^ 63 * 10 ^ 9 ∧
        (catalog.inner.fetchIsCurrent styleId fence = true →
          catalog.inner.Announceable styleId wire.json version) := by
  by_cases hfits : now + max fresh catalog.minimumRevalidationInterval < 2 ^ 63 * 10 ^ 9
  · have hdue := lt_of_le_of_lt (Nat.add_le_add_left (le_max_right fresh _) now) hfits
    unfold StyleCatalog.recordObservedForGeneration
    rw [Instant.add_eq_some.mpr ⟨hfits, rfl⟩, Instant.add_eq_some.mpr ⟨hdue, rfl⟩, and_iff_right hfits]
    cases hcur : catalog.inner.fetchIsCurrent styleId fence with
    | false => simp
    | true =>
      simp only [if_true, forall_const]
      -- the hint is settled in the state that already has the new local entry
      refine Iff.trans ?_ (StyleCatalogInner.settleHint_ok_iff
        { catalog.inner with
          observed := catalog.inner.observed.insert styleId (catalog.inner.observe styleId version now
              (now + max fresh catalog.minimumRevalidationInterval) true).1 } styleId wire version)
      generalize (StyleCatalogInner.settleHint _ styleId wire version).2 = settled
      cases settled <;> simp [Except.map]
  · rw [catalog.recordObserved_overflow styleId wire now version fresh fence (Nat.not_lt.mp hfits)]
    exact iff_of_false nofun (fun h => hfits h.1)

theorem clock_fits_iff (now served floor : ℕ) : now + max served floor < 2 ^ 63 * 10 ^ 9 ↔
    now + floor < 2 ^ 63 * 10 ^ 9 ∧ served ≤ 2 ^ 63 * 10 ^ 9 - 1 - now := by
  omega

/-- A response is recorded without a panic exactly when its headers do not declare more lifetime than the clock has
left, the floor fits the clock too, and the hint it answers can be announced; the deadline is then no sooner than the
floor and no later than any lifetime that covers what the headers declare. -/
theorem response_recorded_iff (response : StyleResponse) (headers : StyleHeaders) (responseDelay systemNow : ℕ) :
    let result := catalog.recordObservedForGeneration wire now styleId version
      (response.servedFreshness headers responseDelay systemNow) fence
    ((∃ changed, result.2 = .ok changed) ↔
        (now + catalog.minimumRevalidationInterval < 2 ^ 63 * 10 ^ 9 ∧
          response.LastsAtMost headers responseDelay systemNow (2 ^ 63 * 10 ^ 9 - 1 - now)) ∧
        (catalog.inner.fetchIsCurrent styleId fence = true →
          catalog.inner.Announceable styleId wire.json version)) ∧
      ∀ changed, result.2 = .ok changed → ∃ observed, result.1.inner.observed.lookup styleId = some observed ∧
        now + catalog.minimumRevalidationInterval ≤ observed.revalidateAfter ∧
        ∀ declared, response.LastsAtMost headers responseDelay systemNow declared →
          observed.revalidateAfter ≤ now + max catalog.minimumRevalidationInterval declared := by
  have hserved := response.servedFreshness_le_iff headers responseDelay systemNow
  generalize response.servedFreshness headers responseDelay systemNow = served at hserved ⊢
  intro result
  have hok := recordObserved_ok_iff catalog styleId wire now version fence served
  refine ⟨?_, ?_⟩
  · rw [hok, ← hserved]
    exact and_congr_left' (clock_fits_iff ..)
  intro changed hchanged
  obtain ⟨hints, announcements, cluster, hstate, -⟩ :=
    catalog.recordObserved_spec styleId wire now version served fence (hok.mp ⟨changed, hchanged⟩).1
  refine ⟨catalog.recordedStyle styleId now version served fence, ?_, ?_⟩
  · simp only [result, hstate]
    exact AList.lookup_insert _
  · unfold StyleCatalog.recordedStyle
    rw [(catalog.inner.observe_fields styleId version now _ _).2.1]
    refine ⟨?_, fun declared hdeclared => ?_⟩
    · split_ifs
      · exact Nat.add_le_add_left (le_max_right _ _) _
      · exact le_rfl
    · have hlater := (hserved declared).mpr hdeclared
      split_ifs
      · exact Nat.add_le_add_left (max_le (hlater.trans (le_max_right _ _)) (le_max_left _ _)) _
      · exact Nat.add_le_add_left (le_max_left _ _) _

/-- More seconds than a `u64` holds. -/
def endlessStyle : StyleHeaders := { cacheControl := [some [⟨"max-age", some "18446744073709551616"⟩]] }

theorem endlessStyle_panics :
    (({} : StyleCatalog).recordObservedForGeneration demoWire 0 demoStyle (contentVersion 1)
      (StyleResponse.fetched.servedFreshness endlessStyle 0 0) (StyleCatalog.revalidationFence {} demoStyle)).2 =
      .error .instantOverflow := by
  decide +kernel

end Mappf.Styles
