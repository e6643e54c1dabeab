import Mathlib.Util.Superscript
import Std.Data.ExtHashMap.Lemmas
import Std.Data.ExtTreeMap.Lemmas
import Uniterm.Model.Text

/-! # The artifact ledger

Typed artifact ownership and lifecycle, bounded, with its ownership and path indexes. `apply` leaves
the ledger as it was when it refuses an event.
-/

namespace Uniterm.Model.Work

open Std

abbrev ArtifactId := ℕ

def artifactLedgerCap : ℕ := 4096
def artifactPathMaxBytes : ℕ := 4096

inductive ArtifactKind where
  | file | plan | patch | report | testEvidence | findings
deriving DecidableEq, Repr

inductive ArtifactStatus where
  | available | missing | superseded
deriving DecidableEq, Repr

/-- One immutable producer observation and its latest filesystem facts. -/
structure ArtifactRecord where
  id : ArtifactId
  project : ℕ
  producerRun : ℕ
  producerRole : ℕ
  kind : ArtifactKind
  path : Text
  digest : Text
  size : ℕ
  status : ArtifactStatus
  supersedes : Option ArtifactId
deriving DecidableEq, Repr

inductive ArtifactEvent where
  | observed (artifact : ArtifactId) (project producerRun producerRole : ℕ) (kind : ArtifactKind)
      (path digest : Text) (size : ℕ)
  | refreshed (artifact : ArtifactId) (digest : Text) (size : ℕ)
  | missing (artifact : ArtifactId)
deriving DecidableEq, Repr

/-- The identity an event is about. -/
def ArtifactEvent.artifact : ArtifactEvent → ArtifactId
  | .observed artifact .. | .refreshed artifact .. | .missing artifact => artifact

structure ArtifactError where
  message : String
deriving DecidableEq, Repr

structure ArtifactLedger where
  records : ExtTreeMap ArtifactId ArtifactRecord := ∅
  byProject : ExtTreeMap ℕ (List ArtifactId) := ∅
  byRun : ExtTreeMap ℕ (List ArtifactId) := ∅
  byRole : ExtTreeMap ℕ (List ArtifactId) := ∅
  currentPath : ExtHashMap (ℕ × Text) ArtifactId := ∅
  nextArtifact : ℕ := 1

/-- `path.split('/')`. -/
def components (path : Text) : List Text :=
  path.foldr (fun c parts => match parts with
    | [] => [[c]]
    | part :: rest => if c = '/' then [] :: part :: rest else (c :: part) :: rest) [[]]

def validateDigest (digest : Text) : Except ArtifactError Unit :=
  if digest.len ≠ 64 ∨ ¬ digest.all fun c => c.isDigit || ('a' ≤ c && c ≤ 'f') then
    .error ⟨"Artifact digest must be lowercase SHA-256 hex"⟩
  else .ok ()

def validateObservation (artifact project run role : ℕ) (path digest : Text) (size : ℕ) :
    Except ArtifactError Unit := do
  if artifact = 0 ∨ artifact = u64Max ∨ project = 0 ∨ run = 0 ∨ role = 0 then
    throw ⟨"Artifact ownership identities must be nonzero"⟩
  if path = [] ∨ path.len > artifactPathMaxBytes then
    throw ⟨s!"Artifact path must contain between 1 and {artifactPathMaxBytes} bytes"⟩
  if path.head? = some '/' ∨
      (components path).any (fun part => part == [] || part == ['.'] || part == ['.', '.']) ∨
      path.any isControl then
    throw ⟨"Artifact path must be a normalized Project-relative path"⟩
  validateDigest digest
  if size = 0 then throw ⟨"available Artifact size must be nonzero"⟩

namespace ArtifactLedger

def removeId (index : ExtTreeMap ℕ (List ArtifactId)) (owner : ℕ) (id : ArtifactId) :
    ExtTreeMap ℕ (List ArtifactId) :=
  match index[owner]? with
  | some ids => index.insert owner (ids.filter (· != id))
  | none => index

def pushId (index : ExtTreeMap ℕ (List ArtifactId)) (owner : ℕ) (id : ArtifactId) :
    ExtTreeMap ℕ (List ArtifactId) :=
  index.insert owner (index.getD owner [] ++ [id])

def removeFromProjection (ledger : ArtifactLedger) (id : ArtifactId) : ArtifactLedger :=
  match ledger.records[id]? with
  | none => ledger
  | some record =>
    { ledger with
      records := ledger.records.erase id
      byProject := removeId ledger.byProject record.project id
      byRun := removeId ledger.byRun record.producerRun id
      byRole := removeId ledger.byRole record.producerRole id
      currentPath :=
        if ledger.currentPath[(record.project, record.path)]? = some id then
          ledger.currentPath.erase (record.project, record.path)
        else ledger.currentPath }

/-- Drop the oldest record that is not available, or the one about to be replaced. -/
def makeRoom (ledger : ArtifactLedger) (replacement : Option ArtifactId) :
    Except ArtifactError ArtifactLedger :=
  if ledger.records.size < artifactLedgerCap then .ok ledger
  else
    let unavailable := ledger.records.toList.find? fun entry => entry.2.status != .available
    match (unavailable.map (·.1)).or replacement with
    | none => .error ⟨s!"Artifact ledger reached its {artifactLedgerCap} available-record cap"⟩
    | some id => .ok (ledger.removeFromProjection id)

/-- Mark the record at a path that a new observation replaces. -/
def supersede (ledger : ArtifactLedger) (previous : Option ArtifactId) : ArtifactLedger :=
  match previous with
  | none => ledger
  | some id =>
    match ledger.records[id]? with
    | none => ledger
    | some record =>
      { ledger with
        records := ledger.records.insert id { record with status := .superseded } }

/-- Change a record that is current at its path. -/
def amend (ledger : ArtifactLedger) (artifact : ArtifactId) (refusal : String)
    (change : ArtifactRecord → ArtifactRecord) : Except ArtifactError ArtifactLedger :=
  match ledger.records[artifact]? with
  | none => .error ⟨s!"unknown Artifact {artifact}"⟩
  | some record =>
    if record.status = .superseded then .error ⟨refusal⟩
    else .ok { ledger with records := ledger.records.insert artifact (change record) }

/-- Apply one append-only fact across every ownership index. -/
def apply (ledger : ArtifactLedger) : ArtifactEvent → Except ArtifactError ArtifactLedger
  | .observed artifact project producerRun producerRole kind path digest size => do
    validateObservation artifact project producerRun producerRole path digest size
    if ledger.records.contains artifact then throw ⟨s!"duplicate Artifact {artifact}"⟩
    if artifact < ledger.nextArtifact then
      throw ⟨s!"Artifact {artifact} is older than the next identity {ledger.nextArtifact}"⟩
    let supersedes := ledger.currentPath[(project, path)]?
    let ledger ← ledger.makeRoom supersedes
    let ledger := ledger.supersede supersedes
    return { ledger with
      currentPath := ledger.currentPath.insert (project, path) artifact
      records := ledger.records.insert artifact
        { id := artifact, project := project, producerRun := producerRun
          producerRole := producerRole, kind := kind, path := path, digest := digest, size := size
          status := .available, supersedes := supersedes }
      byProject := pushId ledger.byProject project artifact
      byRun := pushId ledger.byRun producerRun artifact
      byRole := pushId ledger.byRole producerRole artifact
      nextArtifact := saturatingAdd64 artifact 1 }
  | .refreshed artifact digest size => do
    validateDigest digest
    if size = 0 then throw ⟨"available Artifact size must be nonzero"⟩
    ledger.amend artifact "cannot refresh a superseded Artifact" fun record =>
      { record with digest := digest, size := size, status := .available }
  | .missing artifact =>
    ledger.amend artifact "cannot mark a superseded Artifact missing" fun record =>
      { record with status := .missing }

section InPlace

/-- A command on the ledger in place: what an early return leaves behind is seen. -/
abbrev InPlace := ExceptT ArtifactError (StateM ArtifactLedger)

def makeRoomInPlace (replacement : Option ArtifactId) : InPlace Unit := do
  let ledger ← get
  if ledger.records.size < artifactLedgerCap then return
  let unavailable := ledger.records.toList.find? fun entry => entry.2.status != .available
  match (unavailable.map (·.1)).or replacement with
  | none => throw ⟨s!"Artifact ledger reached its {artifactLedgerCap} available-record cap"⟩
  | some id => modify (·.removeFromProjection id)

/-- `apply`, statement by statement. -/
def applyInPlace : ArtifactEvent → InPlace Unit
  | .observed artifact project producerRun producerRole kind path digest size => do
    liftExcept (validateObservation artifact project producerRun producerRole path digest size)
    if (← get).records.contains artifact then throw ⟨s!"duplicate Artifact {artifact}"⟩
    let nextArtifact := (← get).nextArtifact
    if artifact < nextArtifact then
      throw ⟨s!"Artifact {artifact} is older than the next identity {nextArtifact}"⟩
    let supersedes := (← get).currentPath[(project, path)]?
    makeRoomInPlace supersedes
    modify (·.supersede supersedes)
    modify fun ledger =>
      { ledger with currentPath := ledger.currentPath.insert (project, path) artifact }
    let record : ArtifactRecord :=
      { id := artifact, project := project, producerRun := producerRun, producerRole := producerRole
        kind := kind, path := path, digest := digest, size := size, status := .available
        supersedes := supersedes }
    modify fun ledger => { ledger with records := ledger.records.insert artifact record }
    modify fun ledger => { ledger with byProject := pushId ledger.byProject project artifact }
    modify fun ledger => { ledger with byRun := pushId ledger.byRun producerRun artifact }
    modify fun ledger => { ledger with byRole := pushId ledger.byRole producerRole artifact }
    modify fun ledger => { ledger with nextArtifact := saturatingAdd64 artifact 1 }
  | .refreshed artifact digest size => do
    liftExcept (validateDigest digest)
    if size = 0 then throw ⟨"available Artifact size must be nonzero"⟩
    amendInPlace artifact "cannot refresh a superseded Artifact" fun record =>
      { record with digest := digest, size := size, status := .available }
  | .missing artifact =>
    amendInPlace artifact "cannot mark a superseded Artifact missing" fun record =>
      { record with status := .missing }
where
  liftExcept (checked : Except ArtifactError Unit) : InPlace Unit :=
    match checked with
    | .ok _ => return
    | .error error => throw error
  amendInPlace (artifact : ArtifactId) (refusal : String)
      (change : ArtifactRecord → ArtifactRecord) : InPlace Unit := do
    match (← get).records[artifact]? with
    | none => throw ⟨s!"unknown Artifact {artifact}"⟩
    | some record =>
      if record.status = .superseded then throw ⟨refusal⟩
      modify fun ledger => { ledger with records := ledger.records.insert artifact (change record) }

/-- The ledger after a sequence of events, some of which it may refuse. -/
def after (ledger : ArtifactLedger) (events : List ArtifactEvent) : ArtifactLedger :=
  events.foldl (fun ledger event => ((applyInPlace event).run ledger).2) ledger

/-- The identities under which the ledger has accepted observations. -/
def issued (ledger : ArtifactLedger) : List ArtifactEvent → List ArtifactId
  | [] => []
  | event :: rest =>
    match (applyInPlace event).run ledger, event with
    | (.ok _, next), .observed artifact .. => artifact :: issued next rest
    | (_, next), _ => issued next rest

end InPlace

end ArtifactLedger

end Uniterm.Model.Work
