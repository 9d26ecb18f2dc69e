/-
  Plugins.Store
  **THE PLUGIN STORE AND ITS LOCK DOCUMENT.**

  Every operation reads the lock, rebuilds one record by hand and writes the
  whole document; the next operation has only what it reads back.  What the
  environment gives (the materialized package, the prefix in its manifest, a
  failing disk) comes with each operation; sources are canonicalized and paths
  resolved by functions that stand for the outside.
-/
import DeterminFlow.Library.Dict
import DeterminFlow.Library.PyText
import Mathlib.Data.Char
import Mathlib.Data.List.Lex
import Mathlib.Data.List.Sort

namespace DeterminFlow.Plugins.Store

open Library PyText

/-! ## Texts -/

abbrev Text : Type := List Char

/-- `^[a-z0-9]+(?:-[a-z0-9]+)*$`, on the whole text. -/
def isSlug (text : Text) : Bool :=
  (splitAt '-' text).all
    (fun part => !part.isEmpty && part.all (fun c => ('a' ≤ c && c ≤ 'z') || ('0' ≤ c && c ≤ '9')))

def validatePluginId (pluginId : Text) : Except String Text :=
  let normalized := strip pluginId
  if 128 < normalized.length ∨ isSlug normalized = false then
    .error ("invalid plugin id: " ++ String.ofList pluginId)
  else .ok normalized

def validateResourcePrefix (resourcePrefix : Text) (allowEmpty : Bool) : Except String Text :=
  let normalized := strip resourcePrefix
  if normalized = [] ∧ allowEmpty = true then .ok []
  else if 128 < normalized.length ∨ isSlug normalized = false then
    .error ("invalid resource prefix: " ++ String.ofList resourcePrefix)
  else .ok normalized

/-- The parts of a `PurePosixPath`. -/
def pathParts (raw : Text) : List Text :=
  (splitAt '/' raw).filter (fun part => decide (part ≠ [] ∧ part ≠ ['.']))

def asPosix : List Text → Text
  | [] => ['.']
  | parts => List.intercalate ['/'] parts

/-- `validate_plugin_subdirectory`. -/
def validateSubdirectory (subdirectory : Text) : Except String Text :=
  let raw := (strip subdirectory).map (fun c => if c = '\\' then '/' else c)
  if raw = [] ∨ raw = ['.'] then .ok []
  else if raw.head? = some '/' ∨ ['.', '.'] ∈ pathParts raw then
    .error ("plugin subdirectory must be a safe relative path: " ++ String.ofList subdirectory)
  else .ok (asPosix (pathParts raw))

/-- `[0-9a-fA-F]{40,64}`. -/
def isCommit (text : String) : Bool :=
  decide (40 ≤ text.toList.length ∧ text.toList.length ≤ 64)
    && text.toList.all (fun c =>
      ('0' ≤ c && c ≤ '9') || ('a' ≤ c && c ≤ 'f') || ('A' ≤ c && c ≤ 'F'))

/-- `[0-9a-f]{64}`. -/
def isDigest (text : String) : Bool :=
  decide (text.toList.length = 64)
    && text.toList.all (fun c => ('0' ≤ c && c ≤ '9') || ('a' ≤ c && c ≤ 'f'))

/-! ## Records -/

abbrev Place : Type := List String

/-- `PluginRevision`. -/
structure Revision where
  commit : String
  contentSha256 : String
  checkoutPath : Place
  requestedRef : String
  deriving DecidableEq

def Revision.key (revision : Revision) : String × String :=
  (revision.commit, revision.contentSha256)

inductive SourceKind where
  | local
  | git
  deriving DecidableEq

inductive Trust where
  | official
  | thirdParty
  deriving DecidableEq

inductive Action where
  | install
  | update
  | rollback
  | remove
  deriving DecidableEq

/-- `PluginLockRecord`. -/
structure Record where
  pluginId : Text
  source : String
  sourceKind : SourceKind
  trust : Trust
  subdirectory : Text
  activeRevision : Revision
  resourcePrefix : Text := []
  resourcePrefixOverride : Option Text := none
  history : List Revision := []
  pendingAction : Option Action := none
  deriving DecidableEq

def Record.pendingRemove (record : Record) : Bool := decide (record.pendingAction = some .remove)

abbrev Records : Type := Dict Text Record

/-! ## The document -/

/-- A path in the document. -/
structure Location where
  isAbsolute : Bool
  parts : List String
  deriving DecidableEq

structure RevisionPayload where
  commit : String
  contentSha256 : String
  checkout : Location
  requestedRef : String
  deriving DecidableEq

/-- The entry of a plugin; the keys that may be missing are optional, and the
override may be null, too. -/
structure RecordPayload where
  source : String
  sourceKind : String
  trust : String
  subdirectory : Option Text
  resourcePrefix : Option Text
  resourcePrefixOverride : Option (Option Text)
  activeRevision : RevisionPayload
  history : Option (List RevisionPayload)
  pendingAction : Option String
  deriving DecidableEq

structure Document where
  schemaVersion : Nat
  plugins : List (Text × RecordPayload)
  deriving DecidableEq

def lockSchemaVersion : Nat := 1

def SourceKind.text : SourceKind → String
  | .local => "local"
  | .git => "git"

def SourceKind.ofText? (text : String) : Option SourceKind :=
  if text = "local" then some .local else if text = "git" then some .git else none

def Trust.text : Trust → String
  | .official => "official"
  | .thirdParty => "third_party"

def Trust.ofText? (text : String) : Option Trust :=
  if text = "official" then some .official
  else if text = "third_party" then some .thirdParty
  else none

def Action.text : Action → String
  | .install => "install"
  | .update => "update"
  | .rollback => "rollback"
  | .remove => "remove"

def Action.ofText? (text : String) : Option Action :=
  if text = "install" then some .install
  else if text = "update" then some .update
  else if text = "rollback" then some .rollback
  else if text = "remove" then some .remove
  else none

/-- `error` where there is no value. -/
def orError {α : Type} (value : Option α) (error : String) : Except String α :=
  match value with
  | none => .error error
  | some value => .ok value

/-- The outside: where the store is, how paths resolve, how a source is
canonicalized, and which sources are official. -/
structure Outside where
  root : Place
  resolve : Place → Place
  canonicalize : String → Except String (String × SourceKind)
  isOfficial : String → Bool

abbrev Manifests : Type := Revision → Except String Text

section
variable (o : Outside)

/-- `path.relative_to(base)`. -/
def relativeTo? (path base : Place) : Option Place :=
  if base <+: path then some (path.drop base.length) else none

def Outside.checkoutsDir : Place := o.root ++ ["checkouts"]

def safeLockedCheckout (value : Location) : Except String Place :=
  let raw := if value.isAbsolute then value.parts else o.root ++ value.parts
  let checkout := o.resolve raw
  if o.resolve o.checkoutsDir <+: checkout then .ok checkout
  else .error ("plugin checkout escapes store: " ++ "/".intercalate value.parts)

def revisionToPayload (revision : Revision) : Except String RevisionPayload := do
  let checkout ← safeLockedCheckout o { isAbsolute := true, parts := revision.checkoutPath }
  let relative ← orError (relativeTo? checkout o.root) "checkout is not in the subpath of root"
  return {
    commit := revision.commit
    contentSha256 := revision.contentSha256
    checkout := { isAbsolute := false, parts := relative }
    requestedRef := revision.requestedRef }

def revisionFromPayload (payload : RevisionPayload) : Except String Revision :=
  if isCommit payload.commit = false then .error "invalid revision commit"
  else if isDigest payload.contentSha256 = false then .error "invalid revision content_sha256"
  else (safeLockedCheckout o payload.checkout).map (fun checkout =>
    { commit := payload.commit
      contentSha256 := payload.contentSha256
      checkoutPath := checkout
      requestedRef := payload.requestedRef })

def manifestResourcePrefix (manifests : Manifests) (revision : Revision) : Except String Text :=
  (manifests revision).bind (fun raw => validateResourcePrefix raw true)

/-- `_resource_prefix_override_from_payload`, with the migration of older
documents. -/
def overrideFromPayload (manifests : Manifests) (payload : RecordPayload) (resourcePrefix : Text)
    (revisions : List Revision) : Except String (Option Text) :=
  match payload.resourcePrefixOverride with
  | some none => .ok none
  | some (some raw) => (validateResourcePrefix raw false).map some
  | none =>
    if payload.resourcePrefix = none then .ok none
    else (revisions.mapM (manifestResourcePrefix manifests)).map
      (fun declared => if resourcePrefix ∈ declared then none else some resourcePrefix)

/-- The check of `pending_action`. -/
def actionFromPayload (pendingAction : Option String) : Except String (Option Action) :=
  match pendingAction with
  | none => .ok none
  | some text => (orError (Action.ofText? text) "invalid pending_action").map some

def recordFromPayload (manifests : Manifests) (pluginId : Text) (payload : RecordPayload) :
    Except String Record := do
  let subdirectory ← validateSubdirectory (payload.subdirectory.getD [])
  let resourcePrefix ← validateResourcePrefix (payload.resourcePrefix.getD []) true
  let active ← revisionFromPayload o payload.activeRevision
  let history ← (payload.history.getD []).mapM (revisionFromPayload o)
  let pendingAction ← actionFromPayload payload.pendingAction
  let sourceKind ← orError (SourceKind.ofText? payload.sourceKind) "invalid source_kind"
  let trust ← orError (Trust.ofText? payload.trust) "invalid trust"
  let override ← overrideFromPayload manifests payload resourcePrefix (active :: history)
  return {
    pluginId := pluginId
    source := payload.source
    sourceKind := sourceKind
    trust := trust
    subdirectory := subdirectory
    activeRevision := active
    resourcePrefix := resourcePrefix
    resourcePrefixOverride := override
    history := history
    pendingAction := pendingAction }

/-- The entry of `_document_from_records`. -/
def recordToPayload (record : Record) : Except String RecordPayload := do
  let active ← revisionToPayload o record.activeRevision
  let history ← record.history.mapM (revisionToPayload o)
  return {
    source := record.source
    sourceKind := record.sourceKind.text
    trust := record.trust.text
    subdirectory := some record.subdirectory
    resourcePrefix := some record.resourcePrefix
    resourcePrefixOverride := some record.resourcePrefixOverride
    activeRevision := active
    history := some history
    pendingAction := record.pendingAction.map Action.text }

def ensureResourcePrefixAvailable (records : Records) (pluginId resourcePrefix : Text) :
    Except String Unit :=
  if resourcePrefix = [] then .ok ()
  else
    match records.find? (fun e => decide (e.1 ≠ pluginId ∧ e.2.resourcePrefix = resourcePrefix)) with
    | none => .ok ()
    | some e =>
      .error ("resource prefix " ++ String.ofList resourcePrefix
        ++ " is already used by plugin " ++ String.ofList e.1)

/-- `_validate_resource_prefixes`, from the entries already accepted. -/
def validateResourcePrefixes (accepted : Records) : Records → Except String Unit
  | [] => .ok ()
  | (pluginId, record) :: rest =>
    match ensureResourcePrefixAvailable accepted pluginId record.resourcePrefix with
    | .error e => .error e
    | .ok _ => validateResourcePrefixes (accepted ++ [(pluginId, record)]) rest

/-- The loop of `read_lock`, from the records read so far. -/
def readPlugins (manifests : Manifests) (records : Records) :
    List (Text × RecordPayload) → Except String Records
  | [] => .ok records
  | (rawId, payload) :: rest => do
      let pluginId ← validatePluginId rawId
      let record ← recordFromPayload o manifests pluginId payload
      readPlugins manifests (records.set pluginId record) rest

/-- `read_lock`; a missing file has no records. -/
def readLock (manifests : Manifests) (lock : Option Document) : Except String Records :=
  match lock with
  | none => .ok []
  | some document =>
    if document.schemaVersion ≠ lockSchemaVersion then .error "invalid plugin lock schema"
    else
      match readPlugins o manifests [] document.plugins with
      | .error e => .error e
      | .ok records => (validateResourcePrefixes [] records).map (fun _ => records)

/-- The records in the order of their ids, as `sorted` has them. -/
def sortedRecords (records : Records) : Records :=
  records.insertionSort (fun a b => a.1 ≤ b.1)

def documentFromRecords (records : Records) : Except String Document :=
  ((sortedRecords records).mapM (fun e => (recordToPayload o e.2).map (fun p => (e.1, p)))).map
    (fun plugins => { schemaVersion := lockSchemaVersion, plugins := plugins })

end

/-! ## The operations -/

/-- What `_materialize` gives: a commit, the digest of the content, and the ref
that was asked for. -/
structure Package where
  commit : String
  digest : String
  requestedRef : String
  commit_ok : isCommit commit = true
  digest_ok : isDigest digest = true

/-- What an operation meets of the world. -/
structure Env where
  readable : Bool := true
  writable : Bool := true
  /-- The package; an error stands for the failure of any step up to the
  preflight check. -/
  package : Except String Package
  manifests : Manifests
  /-- The checkout of a rollback is there, and passes the preflight check. -/
  checkoutExists : Bool := true
  preflight : Bool := true

inductive Op where
  | install (pluginId : Text) (source : String) (subdirectory : Text)
      (resourcePrefix : Option Text) (acknowledgeRisk : Bool)
  | update (pluginId : Text) (source : Option String) (subdirectory : Option Text)
      (acknowledgeRisk : Bool)
  | rollback (pluginId : Text) (commit : Option String)
  | markUninstall (pluginId : Text)
  | cancelUninstall (pluginId : Text)
  | clearPendingAction (pluginId : Text)
  | applyPending

/-- The loop of `_prepend_unique_revision`. -/
def uniqueRevisions (excluded : String × String) (seen : List (String × String)) :
    List Revision → List Revision
  | [] => []
  | item :: rest =>
    if item.key = excluded ∨ item.key ∈ seen then uniqueRevisions excluded seen rest
    else item :: uniqueRevisions excluded (item.key :: seen) rest

def prependUniqueRevision (revision : Revision) (history : List Revision) (exclude : Revision) :
    List Revision :=
  uniqueRevisions exclude.key [] (revision :: history)

section
variable (o : Outside)

/-- `_place_checkout`, the revision it gives. -/
def placeCheckout (pluginId : Text) (package : Package) : Revision where
  commit := package.commit
  contentSha256 := package.digest
  checkoutPath := o.resolve (o.checkoutsDir ++ [String.ofList pluginId,
      package.commit ++ "-" ++ String.ofList (package.digest.toList.take 16)])
  requestedRef := package.requestedRef

def requireSourceTrust (source : String) (acknowledgeRisk : Bool) : Except String Trust :=
  if o.isOfficial source then .ok .official
  else if acknowledgeRisk then .ok .thirdParty
  else .error "third-party plugin source requires acknowledge_risk=true"

def requireRecord (records : Records) (pluginId : Text) : Except String Record :=
  orError (records.get? pluginId) ("plugin is not installed: " ++ String.ofList pluginId)

/-- `_normalize_resource_prefix_override`. -/
def normalizeOverride (resourcePrefix : Option Text) : Except String (Option Text) :=
  match resourcePrefix with
  | none => .ok none
  | some raw => (validateResourcePrefix raw false).map some

/-- `install`: the new record. -/
def install (env : Env) (records : Records) (pluginId : Text) (source : String)
    (subdirectory : Text) (resourcePrefix : Option Text) (acknowledgeRisk : Bool) :
    Except String Record := do
  let override ← normalizeOverride resourcePrefix
  if records.has pluginId then .error ("plugin already installed: " ++ String.ofList pluginId)
  else
    let (canonical, kind) ← o.canonicalize source
    let trust ← requireSourceTrust o canonical acknowledgeRisk
    let normalized ← validateSubdirectory subdirectory
    let package ← env.package
    let revision := placeCheckout o pluginId package
    let declared ← manifestResourcePrefix env.manifests revision
    let effective := override.getD declared
    let _ ← ensureResourcePrefixAvailable records pluginId effective
    return {
      pluginId := pluginId
      source := canonical
      sourceKind := kind
      trust := trust
      subdirectory := normalized
      activeRevision := revision
      resourcePrefix := effective
      resourcePrefixOverride := override
      pendingAction := some .install }

def updatedSubdirectory (current : Record) (subdirectory : Option Text) : Except String Text :=
  match subdirectory with
  | none => .ok current.subdirectory
  | some raw => validateSubdirectory raw

/-- `update`: the new record. -/
def update (env : Env) (records : Records) (pluginId : Text) (source : Option String)
    (subdirectory : Option Text) (acknowledgeRisk : Bool) : Except String Record := do
  let current ← requireRecord records pluginId
  let (canonical, kind) ← o.canonicalize (source.getD current.source)
  if canonical ≠ current.source then
    .error "plugin source cannot change during update; install it as a new package"
  else
    let trust ← requireSourceTrust o canonical acknowledgeRisk
    let normalized ← updatedSubdirectory current subdirectory
    if normalized ≠ current.subdirectory then
      .error "plugin subdirectory cannot change during update"
    else
      let package ← env.package
      let revision := placeCheckout o pluginId package
      let declared ← manifestResourcePrefix env.manifests revision
      let effective := current.resourcePrefixOverride.getD declared
      let _ ← ensureResourcePrefixAvailable records pluginId effective
      return {
        pluginId := pluginId
        source := canonical
        sourceKind := kind
        trust := trust
        subdirectory := normalized
        activeRevision := revision
        resourcePrefix := effective
        resourcePrefixOverride := current.resourcePrefixOverride
        history := prependUniqueRevision current.activeRevision current.history revision
        pendingAction := some .update }

/-- `rollback`: the new record. -/
def rollback (env : Env) (records : Records) (pluginId : Text) (commit : Option String) :
    Except String Record := do
  let current ← requireRecord records pluginId
  if current.history = [] then
    .error ("plugin has no rollback revision: " ++ String.ofList pluginId)
  else
    let target ← orError (current.history.find? (fun r => commit.all (fun c => r.commit = c)))
      ("plugin rollback revision not found: " ++ String.ofList pluginId)
    if env.checkoutExists = false then
      .error ("plugin rollback checkout is missing: " ++ "/".intercalate target.checkoutPath)
    else if env.preflight = false then .error "preflight"
    else
      let declared ← manifestResourcePrefix env.manifests target
      let effective := current.resourcePrefixOverride.getD declared
      let _ ← ensureResourcePrefixAvailable records pluginId effective
      let remaining := current.history.filter (fun item => item ≠ target)
      return { current with
        activeRevision := target
        resourcePrefix := effective
        history := prependUniqueRevision current.activeRevision remaining target
        pendingAction := some .rollback }

/-- `_set_pending_action`: the new record. -/
def setPendingAction (records : Records) (pluginId : Text) (action : Option Action) :
    Except String Record := do
  let current ← requireRecord records pluginId
  return { current with pendingAction := action }

/-- The records of `apply_pending`. -/
def applyPending (records : Records) : Records :=
  (records.filter (fun e => !e.2.pendingRemove)).map
    (fun e => (e.1, { e.2 with pendingAction := none }))

/-- An operation on the records it has read; `none` when it writes nothing. -/
def perform (env : Env) (records : Records) : Op → Except String (Option Records)
  | .install pluginId source subdirectory resourcePrefix acknowledgeRisk => do
      let pluginId ← validatePluginId pluginId
      let record ← install o env records pluginId source subdirectory resourcePrefix
        acknowledgeRisk
      return some (records.set pluginId record)
  | .update pluginId source subdirectory acknowledgeRisk => do
      let pluginId ← validatePluginId pluginId
      let record ← update o env records pluginId source subdirectory acknowledgeRisk
      return some (records.set pluginId record)
  | .rollback pluginId commit => do
      let pluginId ← validatePluginId pluginId
      let record ← rollback env records pluginId commit
      return some (records.set pluginId record)
  | .markUninstall pluginId => do
      let pluginId ← validatePluginId pluginId
      let record ← setPendingAction records pluginId (some .remove)
      return some (records.set pluginId record)
  | .cancelUninstall pluginId => do
      let pluginId ← validatePluginId pluginId
      let record ← setPendingAction records pluginId none
      return some (records.set pluginId record)
  | .clearPendingAction pluginId => do
      let pluginId ← validatePluginId pluginId
      let record ← setPendingAction records pluginId none
      return some (records.set pluginId record)
  | .applyPending =>
    .ok (if records.any (fun e => e.2.pendingAction.isSome) then some (applyPending records)
      else none)

def attempt (env : Env) (lock : Option Document) (op : Op) :
    Except String (Option Document × Records) :=
  if env.readable = false then .error "invalid plugin lock"
  else
    match readLock o env.manifests lock with
    | .error e => .error e
    | .ok records =>
      match perform o env records op with
      | .error e => .error e
      | .ok none => .ok (lock, records)
      | .ok (some records) =>
        match documentFromRecords o records with
        | .error e => .error e
        | .ok document =>
          if env.writable then .ok (some document, records)
          else .error "failed to write plugin lock"

end
end DeterminFlow.Plugins.Store
