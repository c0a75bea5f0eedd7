import Mappf.Abashiri.Style
import Mappf.Lib.CasLog
import Mappf.Lib.HashMap
import Mappf.Lib.Machine

/-! # Publishing styles through the journal

`StylePublisher::publish` and `reconcile_unfinished`, with `MutationJournal::execute` and what it calls, cut at
every operation on a store. Both stores create an object only where there is none, and replace one only while it
has the version that the update names; a successful write gets a version that its object has never had. Any
operation may fail, or take place while its caller sees an error; a call that is never moved again has crashed.
A state reference is 128 random bits, taken to be unlike every other one. The stores also keep the log of all
successful writes of style objects. -/
namespace Mappf.Abashiri

variable {sha256 : Bytes → Bytes}

structure StyleLibraries where
  decodeJson : Bytes → Option JsonSummary
  /-- `object_store::path::Path::parse` -/
  parsePath : String → Fallible String

/-! ## Stores -/

/-- A successful write of a style object: the version it replaced, if any, and the one it was given. -/
structure Write (sha256 : Bytes → Bytes) where
  request : PublishStyleRequest sha256
  reference : String
  replaced : Option UpdateVersion
  version : UpdateVersion

def Write.path (write : Write sha256) : String := write.request.location.path

/-- Objects by their paths; the two kinds of journal objects have different file names. -/
structure Stores (sha256 : Bytes → Bytes) where
  state : HashMap String StyleObject
  intents : HashMap String MutationIntent
  completions : HashMap String MutationCompletion
  /-- Every state reference drawn or stored so far. -/
  references : List String
  writes : List (Write sha256)

/-- How an operation ends for its caller. -/
inductive Delivery
  | served
  /-- An error, and nothing happened. -/
  | failed
  /-- An error, though the operation took place. -/
  | lost
  deriving DecidableEq

structure Answer where
  delivery : Delivery := .served
  version : UpdateVersion := ⟨none, none⟩
  /-- `unix_time_ms`, which fails when the clock is out of range. -/
  clock : Option ℕ := some 0
  /-- The next location that a listing of the journal yields. -/
  listed : Option String := none

inductive Effect (sha256 : Bytes → Bytes)
  | quiet
  | createIntent (intent : MutationIntent)
  | writeStyle (write : Write sha256)
  | createCompletion (intent : MutationIntent) (completion : MutationCompletion)

namespace Stores

def initialVersion (initial : HashMap String StyleObject) (path : String) : Option UpdateVersion :=
  (initial.lookup path).map StyleObject.version

def new (initial : HashMap String StyleObject) : Stores sha256 where
  state := initial
  intents := ∅
  completions := ∅
  references := initial.entries.filterMap (fun entry => entry.2.mutation)
  writes := []

def apply (stores : Stores sha256) : Effect sha256 → Stores sha256
  | .quiet => stores
  | .createIntent intent => { stores with intents := stores.intents.insert intent.paths.intent intent }
  | .writeStyle write =>
    { stores with
      state := stores.state.insert write.path (.written write.reference write.request.body write.version)
      writes := stores.writes ++ [write] }
  | .createCompletion intent completion =>
    { stores with completions := stores.completions.insert intent.paths.completion completion }

end Stores

def failure {α : Type} (messages : List String) : Fallible α := .error (.bail messages)

def readOptional {α : Type} (objects : HashMap String α) (path : String) (answer : Answer) : Fallible (Option α) :=
  match answer.delivery with
  | .served => .ok (objects.lookup path)
  | _ => failure ["read mutation journal object"]

def readRequired {α : Type} (objects : HashMap String α) (path : String) (answer : Answer) : Fallible α := do
  match ← readOptional objects path answer with
  | some object => return object
  | none => bail "mutation journal object disappeared"

def readStateObject (stores : Stores sha256) (location : StyleObjectPath) (noun : String) (answer : Answer) :
    Fallible (Option StyleObject) :=
  match answer.delivery with
  | .served => .ok (stores.state.lookup location.path)
  | _ => failure ["read " ++ noun]

/-! ## Recording a completion -/

def MutationCompletion.of (intent : MutationIntent) (committed : StateCommit) (completedAtUnixMs : ℕ) :
    MutationCompletion where
  schemaVersion := Abashiri.schemaVersion
  keySha256 := intent.keySha256
  stateVersion := committed.version
  stateSha256 := committed.stateSha256
  completedAtUnixMs := completedAtUnixMs

def MutationCompletion.isOf (completion : MutationCompletion) (intent : MutationIntent) : Bool :=
  completion.schemaVersion == Abashiri.schemaVersion && completion.keySha256 == intent.keySha256

/-- What `record_completion` finds when it tries to create the completion. -/
inductive Recorded
  | created
  | exists (completion : MutationCompletion)
  | failed (failure : Failure)

def recordCompletion (stores : Stores sha256) (intent : MutationIntent) (committed : StateCommit) (answer : Answer) :
    Recorded × Effect sha256 :=
  match answer.clock with
  | none => (.failed (.bail ["system clock is before Unix epoch"]), .quiet)
  | some completedAtUnixMs =>
    let completion := MutationCompletion.of intent committed completedAtUnixMs
    match answer.delivery, stores.completions.lookup intent.paths.completion with
    | .served, some _ => (.exists completion, .quiet)
    | .served, none => (.created, .createCompletion intent completion)
    | .lost, none => (.failed (.bail ["create mutation completion"]), .createCompletion intent completion)
    | _, _ => (.failed (.bail ["create mutation completion"]), .quiet)

/-- The rest of `record_completion` when there is a completion already. -/
def compareCompletion (stores : Stores sha256) (intent : MutationIntent) (completion : MutationCompletion)
    (answer : Answer) : Fallible CompletedMutation := do
  let existing ← readRequired stores.completions intent.paths.completion answer
  if existing.sameResult completion then return existing.completed
  else bail "concurrent mutation completion disagrees with committed result"

/-! ## Publication calls -/

inductive PublishError
  | identity (error : IdentityError)
  | idempotencyConflict
  | conflict (reason : StylePublishConflict)
  | failed (failure : Failure)

abbrev PublishResult := Except PublishError (Execution PublishedStyle)

inductive Phase
  /-- `ensure_intent`: about to create the intent. -/
  | ensuring (mutation : MutationRequest) (intent : MutationIntent)
  | rereading (mutation : MutationRequest)
  /-- `execute`: about to read the completion. -/
  | checking (intent : MutationIntent)
  /-- `commit_style`: about to read the current object. -/
  | reading (intent : MutationIntent)
  | writing (intent : MutationIntent)
  /-- `resolve_write_race`: about to read the object that won. -/
  | resolving (intent : MutationIntent)
  | completing (intent : MutationIntent) (committed : StateCommit)
  | comparing (intent : MutationIntent) (completion : MutationCompletion)
  | returned (result : PublishResult)

structure Call (sha256 : Bytes → Bytes) where
  request : PublishStyleRequest sha256
  phase : Phase

def StylePrecondition.expected : StylePrecondition → Option UpdateVersion
  | .mustNotExist => none
  | .mustMatch version => some version.asUpdateVersion

namespace Phase

def fail (chain : List String) : Phase := .returned (.error (.failed (.bail chain)))

def conflict (reason : StylePublishConflict) : Phase := .returned (.error (.conflict reason))

/-- The committed state, or the error that `commit` returned under its context. -/
def ofCommit (intent : MutationIntent) (committed : Fallible StateCommit) : Phase :=
  match context "commit mutation state" committed with
  | .ok committed => .completing intent committed
  | .error failure => .returned (.error (.failed failure))

end Phase

namespace Call

/-- `publish` up to the creation of the intent. -/
def publish (request : PublishStyleRequest sha256) (reference : String) (clock : Option ℕ) : Call sha256 where
  request := request
  phase :=
    match request.mutation, clock with
    | .error error, _ => .returned (.error (.identity error))
    | .ok _, none => .fail ["system clock is before Unix epoch"]
    | .ok mutation, some createdAtUnixMs => .ensuring mutation (.ofRequest mutation reference createdAtUnixMs)

section sections

variable (libs : StyleLibraries) (stores : Stores sha256)

def ensureIntent (mutation : MutationRequest) (intent : MutationIntent) (answer : Answer) : Phase × Effect sha256 :=
  match answer.delivery, stores.intents.lookup intent.paths.intent with
  | .served, some _ => (.rereading mutation, .quiet)
  | .served, none => (.checking intent, .createIntent intent)
  | .lost, none => (.fail ["create mutation intent"], .createIntent intent)
  | _, _ => (.fail ["create mutation intent"], .quiet)

def rereadIntent (mutation : MutationRequest) (answer : Answer) : Phase :=
  match readRequired stores.intents mutation.paths.intent answer with
  | .error failure => .returned (.error (.failed failure))
  | .ok existing =>
    if existing.matchesRequest mutation then .checking existing else .returned (.error .idempotencyConflict)

def checkCompletion (intent : MutationIntent) (answer : Answer) : Phase :=
  match readOptional stores.completions intent.paths.completion answer with
  | .error failure => .returned (.error (.failed failure))
  | .ok none => .reading intent
  | .ok (some completion) =>
    if completion.isOf intent then .returned (.ok (.alreadyCompleted completion.completed))
    else .fail ["stored mutation completion does not match its intent"]

/-- `commit_style` up to the write. -/
def commitStyle (request : PublishStyleRequest sha256) (intent : MutationIntent) (answer : Answer) : Phase :=
  match readStateObject stores request.location "current style object" answer with
  | .error failure => .ofCommit intent (.error failure)
  | .ok (some current) =>
    match context "read current style version" (VersionEvidence.fromMeta current.version) with
    | .error failure => .ofCommit intent (.error failure)
    | .ok version =>
      if current.mutation = some intent.stateReference then
        .ofCommit intent (existingStyleCommit sha256 libs.decodeJson current request.location request.contentSha256 version)
      else
        match request.precondition with
        | .mustNotExist => .conflict .alreadyExists
        | .mustMatch expected => if version = expected then .writing intent else .conflict .preconditionFailed
  | .ok none =>
    match request.precondition with
    | .mustNotExist => .writing intent
    | .mustMatch _ => .conflict .notFound

/-- The conditional write: a create or an update, by the precondition. -/
def writeStyle (stores : Stores sha256) (request : PublishStyleRequest sha256) (intent : MutationIntent)
    (answer : Answer) : Phase × Effect sha256 :=
  let replaced := (stores.state.lookup request.location.path).map StyleObject.version
  let write : Write sha256 := { request, reference := intent.stateReference, replaced, version := answer.version }
  let refused := Phase.fail ["commit mutation state",
    match request.precondition with
    | .mustNotExist => "create style object"
    | .mustMatch _ => "conditionally replace style object"]
  if answer.delivery = .failed then (refused, .quiet)
  else if replaced = request.precondition.expected then
    if answer.delivery = .served then
      (.ofCommit intent (styleCommitFromPut sha256 request.location request.contentSha256 answer.version), .writeStyle write)
    else (refused, .writeStyle write)
  else if answer.delivery = .served then (.resolving intent, .quiet)
  else (refused, .quiet)

def resolveWriteRace (request : PublishStyleRequest sha256) (intent : MutationIntent) (answer : Answer) : Phase :=
  match readStateObject stores request.location "style after conditional write conflict" answer with
  | .error failure => .ofCommit intent (.error failure)
  | .ok none =>
    match request.precondition with
    | .mustNotExist => .conflict .alreadyExists
    | .mustMatch _ => .conflict .notFound
  | .ok (some current) =>
    match context "read style version after conditional write conflict" (VersionEvidence.fromMeta current.version) with
    | .error failure => .ofCommit intent (.error failure)
    | .ok version =>
      if current.mutation = some intent.stateReference then
        .ofCommit intent (existingStyleCommit sha256 libs.decodeJson current request.location request.contentSha256 version)
      else
        match request.precondition with
        | .mustNotExist => .conflict .alreadyExists
        | .mustMatch _ => .conflict .preconditionFailed

def complete (intent : MutationIntent) (committed : StateCommit) (answer : Answer) : Phase × Effect sha256 :=
  match recordCompletion stores intent committed answer with
  | (.created, effect) => (.returned (.ok (.committed committed.response)), effect)
  | (.exists completion, effect) => (.comparing intent completion, effect)
  | (.failed failure, effect) => (.returned (.error (.failed failure)), effect)

def compare (intent : MutationIntent) (completion : MutationCompletion) (answer : Answer) : Phase :=
  match compareCompletion stores intent completion answer with
  | .ok completed => .returned (.ok (.alreadyCompleted completed))
  | .error failure => .returned (.error (.failed failure))

/-- One store operation of a call and what follows it up to the next one. -/
def next (call : Call sha256) (answer : Answer) : Phase × Effect sha256 :=
  match call.phase with
  | .ensuring mutation intent => ensureIntent stores mutation intent answer
  | .rereading mutation => (rereadIntent stores mutation answer, .quiet)
  | .checking intent => (checkCompletion stores intent answer, .quiet)
  | .reading intent => (commitStyle libs stores call.request intent answer, .quiet)
  | .writing intent => writeStyle stores call.request intent answer
  | .resolving intent => (resolveWriteRace libs stores call.request intent answer, .quiet)
  | .completing intent committed => complete stores intent committed answer
  | .comparing intent completion => (compare stores intent completion answer, .quiet)
  | .returned result => (.returned result, .quiet)

end sections

end Call

/-! ## Reconciliation scans -/

structure StyleReconciliationReport where
  scannedIntents : ℕ := 0
  unfinishedIntents : ℕ := 0
  completed : ℕ := 0
  alreadyCompleted : ℕ := 0
  notCommitted : ℕ := 0
  superseded : ℕ := 0
  unsupported : ℕ := 0

inductive ScanPhase
  | listing
  /-- `unfinished_intent`: about to read the intent. -/
  | opening (location : String)
  | checking (intent : MutationIntent)
  /-- `reconcile_style_intent`: about to read the style object. -/
  | reading (intent : MutationIntent) (location : StyleObjectPath)
  | completing (intent : MutationIntent) (committed : StateCommit)
  | comparing (intent : MutationIntent) (completion : MutationCompletion)
  | returned (result : Fallible StyleReconciliationReport)

structure Scan where
  layout : StyleObjectLayout
  report : StyleReconciliationReport := {}
  phase : ScanPhase := .listing

namespace Scan

def fail (scan : Scan) (failure : Failure) : Scan := { scan with phase := .returned (.error failure) }

section sections

variable (libs : StyleLibraries) (stores : Stores sha256) (scan : Scan)

def openIntent (location : String) (answer : Answer) : Scan :=
  match readRequired stores.intents location answer with
  | .error failure => scan.fail failure
  | .ok intent =>
    if intent.schemaVersion ≠ schemaVersion then
      scan.fail (.bail ["stored mutation intent has an unsupported schema version"])
    else if intent.paths.intent ≠ location then
      scan.fail (.bail ["stored mutation intent does not match its journal location"])
    else { scan with phase := .checking intent }

/-- The object that an unfinished intent is about. -/
def locate (parsePath : String → Fallible String) (layout : StyleObjectLayout) (intent : MutationIntent) :
    Fallible StyleObjectPath :=
  match intent.stateLocator with
  | some locator => context "decode reconciled style state locator" (StyleObjectPath.tryNew parsePath locator)
  | none => StyleObjectPath.forResource parsePath intent.target.accountId intent.target.localId layout

variable (intent : MutationIntent)

def checkCompletion (answer : Answer) : Scan :=
  match readOptional stores.completions intent.paths.completion answer with
  | .error failure => scan.fail failure
  | .ok (some completion) =>
    if completion.isOf intent then { scan with phase := .listing }
    else scan.fail (.bail ["stored mutation completion does not match its intent"])
  | .ok none =>
    let report := { scan.report with unfinishedIntents := scan.report.unfinishedIntents + 1 }
    if intent.action ≠ .publish ∨ intent.target.kind ≠ .style then
      { scan with phase := .listing, report := { report with unsupported := report.unsupported + 1 } }
    else
      match locate libs.parsePath scan.layout intent with
      | .error failure => { scan with report }.fail failure
      | .ok location => { scan with report, phase := .reading intent location }

def readState (location : StyleObjectPath) (answer : Answer) : Scan :=
  match readStateObject stores location "style state during reconciliation" answer with
  | .error failure => scan.fail failure
  | .ok none =>
    { scan with phase := .listing, report := { scan.report with notCommitted := scan.report.notCommitted + 1 } }
  | .ok (some current) =>
    if current.mutation ≠ some intent.stateReference then
      { scan with phase := .listing, report := { scan.report with superseded := scan.report.superseded + 1 } }
    else
      let committed : Fallible (StateCommit × String) := do
        let version ← context "read style version during reconciliation" (VersionEvidence.fromMeta current.version)
        styleCommitFromCurrent sha256 libs.decodeJson current location version
      match committed with
      | .error failure => scan.fail failure
      | .ok (committed, _) => { scan with phase := .completing intent committed }

def complete (committed : StateCommit) (answer : Answer) : Scan × Effect sha256 :=
  match recordCompletion stores intent committed answer with
  | (.created, effect) =>
    ({ scan with phase := .listing, report := { scan.report with completed := scan.report.completed + 1 } }, effect)
  | (.exists completion, effect) => ({ scan with phase := .comparing intent completion }, effect)
  | (.failed failure, effect) => (scan.fail failure, effect)

def compare (completion : MutationCompletion) (answer : Answer) : Scan :=
  match compareCompletion stores intent completion answer with
  | .ok _ =>
    { scan with
      phase := .listing
      report := { scan.report with alreadyCompleted := scan.report.alreadyCompleted + 1 } }
  | .error failure => scan.fail failure

def next (answer : Answer) : Scan × Effect sha256 :=
  match scan.phase with
  | .listing =>
    match answer.delivery, answer.listed with
    | .served, some location =>
      ({ scan with
          phase := .opening location
          report := { scan.report with scannedIntents := scan.report.scannedIntents + 1 } }, .quiet)
    | .served, none => ({ scan with phase := .returned (.ok scan.report) }, .quiet)
    | _, _ => (scan.fail (.bail ["list mutation journal intents"]), .quiet)
  | .opening location => (scan.openIntent stores location answer, .quiet)
  | .checking intent => (scan.checkCompletion libs stores intent answer, .quiet)
  | .reading intent location => (scan.readState libs stores intent location answer, .quiet)
  | .completing intent committed => scan.complete stores intent committed answer
  | .comparing intent completion => (scan.compare stores intent completion answer, .quiet)
  | .returned _ => (scan, .quiet)

end sections

end Scan

/-! ## Runs -/

structure System (sha256 : Bytes → Bytes) where
  stores : Stores sha256
  calls : List (Call sha256)
  scans : List Scan

namespace System

inductive Action (sha256 : Bytes → Bytes)
  | publish (request : PublishStyleRequest sha256) (reference : String) (clock : Option ℕ)
  | move (call : ℕ) (answer : Answer)
  | reconcile (layout : StyleObjectLayout)
  | scan (scan : ℕ) (answer : Answer)

def new (initial : HashMap String StyleObject) : System sha256 where
  stores := .new initial
  calls := []
  scans := []

/-- The store gives no object a version that the object has had before. -/
def fresh (initial : HashMap String StyleObject) (system : System sha256) (path : String) (version : UpdateVersion) : Bool :=
  version ∉ CasLog.versions Write.path Write.version (Stores.initialVersion initial) system.stores.writes path

def step (libs : StyleLibraries) (initial : HashMap String StyleObject) (system : System sha256) :
    Action sha256 → System sha256
  | .publish request reference clock =>
    if reference ∈ system.stores.references then system
    else
      { system with
        stores := { system.stores with references := reference :: system.stores.references }
        calls := system.calls ++ [.publish request reference clock] }
  | .move i answer =>
    match system.calls[i]? with
    | some call =>
      if system.fresh initial call.request.location.path answer.version then
        let (phase, effect) := call.next libs system.stores answer
        { system with stores := system.stores.apply effect, calls := system.calls.set i { call with phase } }
      else system
    | none => system
  | .reconcile layout => { system with scans := system.scans ++ [{ layout }] }
  | .scan i answer =>
    match system.scans[i]? with
    | some scan =>
      let (scan', effect) := scan.next libs system.stores answer
      { system with stores := system.stores.apply effect, scans := system.scans.set i scan' }
    | none => system

end System

def systems (sha256 : Bytes → Bytes) (libs : StyleLibraries) (initial : HashMap String StyleObject) :
    Machine (System sha256) where
  init := .new initial
  step := fun system system' => ∃ action, system' = system.step libs initial action

end Mappf.Abashiri
