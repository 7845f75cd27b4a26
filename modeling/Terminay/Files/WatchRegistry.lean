import Mathlib.Data.Nat.Digits.Defs
import Terminay.Files.FileSession
import Terminay.Lib.Effects
import Terminay.Lib.Journal
import Terminay.Lib.OrderedMap
import Terminay.Lib.Outcome

/-!
# The registry of file watches

A registry numbers the changes it accepts and keeps the last of them. A subscription
queues those that concern its resource; one that falls behind is given a single event
that tells it to start over. A fact remembered in the current turn of the event loop is
not accepted again. The fields that no method reads are ghosts: what was accepted, what
publishing answered for, the ended subscriptions, and what each was given.
-/

namespace Terminay.Files
open Script Outcome

deriving instance DecidableEq for FileMetadata

inductive FileWatchEventKind where
  | created | changed | deleted | renamed | unavailable | resync
  deriving DecidableEq

structure FileWatchKey where
  serverId : Str
  projectId : Str
  folderId : Option Str
  resource : Str
  deriving DecidableEq

/-- Once checked, this is also the fact that its fingerprint stands for. -/
structure FileWatchEventInput where
  projectId : Str
  folderId : Option Str
  resource : Str
  kind : FileWatchEventKind
  relatedResource : Option Str
  revision : Option ℤ
  metadata : Option FileMetadata
  deriving DecidableEq

structure FileWatchEvent where
  serverId : Str
  fact : FileWatchEventInput
  sequence : ℕ
  deriving DecidableEq

structure FileWatchSubscriptionOptions where
  clientId : Str
  projectId : Str
  folderId : Option Str
  resource : Str
  aborted : Bool
  afterSequence : Option ℤ

structure FileWatchSubscription where
  subscriptionId : Str
  key : FileWatchKey
  clientId : Str
  deriving DecidableEq

structure FileWatchBatch where
  subscriptionId : Str
  cursor : ℕ
  events : List FileWatchEvent
  resyncRequired : Bool
  deriving DecidableEq

structure FileWatchPublishResult where
  accepted : Bool
  deduplicated : Bool
  sequence : Option ℕ
  subscriptions : List FileWatchSubscription
  deriving DecidableEq

structure FileWatchRegistryOptions where
  serverId : Str
  maxSubscriptions : ℕ
  maxQueueEvents : ℕ
  maxBatchEvents : ℕ
  maxResourceLength : ℕ
  batchPositive : 0 < maxBatchEvents
  batchBound : maxBatchEvents ≤ maxQueueEvents

structure Heard where
  event : FileWatchEvent
  accepted : ℕ
  deriving DecidableEq

structure SubscriptionState where
  subscription : FileWatchSubscription
  cursor : ℕ
  queue : List FileWatchEvent
  resyncRequired : Bool
  start : ℕ
  returned : List Heard

structure FileWatchRegistry where
  subscriptions : OrderedMap Str SubscriptionState
  subscriptionsByKey : OrderedMap Str Str
  eventHistory : List FileWatchEvent
  recentFingerprints : List FileWatchEventInput
  fingerprintClearScheduled : Bool
  sequenceValue : ℕ
  subscriptionSequence : ℕ
  accepted : List FileWatchEvent
  answered : List FileWatchEventInput
  turn : List FileWatchEventInput
  /-- With the number of events that were accepted by then. -/
  ended : List (SubscriptionState × ℕ)

def maxSafeNumber : ℕ := 2 ^ 53 - 1

def isIdentityUnit (u : UInt16) : Bool :=
  isLetter u || isDigit u || u == unit '.' || u == unit '_' || u == unit ':' || u == unit '-'

def identityPattern : Str → Bool
  | [] => false
  | u :: rest => (isLetter u || isDigit u) && rest.length ≤ 127 && rest.all isIdentityUnit

def validIdentity (value : Str) (name : String) : Except Str Str :=
  if identityPattern value then .ok value else .error (js name ++ js " is invalid")

def optionalIdentity (value : Option Str) (name : String) : Except Str (Option Str) :=
  match value with
  | none => .ok none
  | some value => do
    let value ← validIdentity value name
    .ok (some value)

def validResource (value : Str) (maxLength : ℕ) : Except Str Str :=
  if maxLength < value.length || hasNul value || value.head? == some (unit '/') ||
      value.contains (unit '\\') then
    .error (js "watch resource must be project-relative")
  else if value.isEmpty || value == js "." then .ok []
  else if (value.splitOn (unit '/')).any fun part =>
      part.isEmpty || part == js "." || part == js ".." then
    .error (js "watch resource is not canonical")
  else .ok value

def optionalResource (value : Option Str) (maxLength : ℕ) : Except Str (Option Str) :=
  match value with
  | none => .ok none
  | some value => do
    let value ← validResource value maxLength
    .ok (some value)

def isCountNumber (n : ℤ) : Bool := 0 ≤ n && n ≤ (maxSafeNumber : ℤ)

def normalizeMetadata : Option FileMetadata → Except Str (Option FileMetadata)
  | none => .ok none
  | some metadata => do
    refuseIf (isCountNumber metadata.size = false) (js "watch metadata size is invalid")
    refuseIf (metadata.mtimeMs.any (· < 0)) (js "watch metadata mtime is invalid")
    refuseIf (metadata.mode.any fun n => !isCountNumber n) (js "watch metadata mode is invalid")
    refuseIf (metadata.identity.any fun s => 256 < s.length || hasNul s)
      (js "watch metadata identity is invalid")
    .ok (some metadata)

def checkInput (o : FileWatchRegistryOptions) (input : FileWatchEventInput) :
    Except Str FileWatchEventInput := do
  let projectId ← validIdentity input.projectId "projectId"
  let folderId ← optionalIdentity input.folderId "folderId"
  let resource ← validResource input.resource o.maxResourceLength
  refuseIf (input.kind = .resync) (js "file watch event kind is invalid")
  let relatedResource ← optionalResource input.relatedResource o.maxResourceLength
  refuseIf (input.revision.any fun n => !isCountNumber n) (js "file watch revision is invalid")
  let metadata ← normalizeMetadata input.metadata
  .ok ⟨projectId, folderId, resource, input.kind, relatedResource, input.revision, metadata⟩

def throwIfAborted (aborted : Bool) : Except Str Unit :=
  refuseIf (aborted = true) (js "The operation was aborted")

def subscriptionKey (key : FileWatchKey) (clientId : Str) : Str :=
  let text := key.serverId ++ [0] ++ key.projectId ++ [0] ++ key.resource ++ [0] ++ clientId
  match key.folderId with
  | none => text
  | some folderId => text ++ [0] ++ folderId

def digit36 (n : ℕ) : UInt16 := if n < 10 then UInt16.ofNat (48 + n) else UInt16.ofNat (87 + n)

def base36 (n : ℕ) : Str := if n = 0 then js "0" else ((Nat.digits 36 n).map digit36).reverse

def watchId (n : ℕ) : Str := js "watch-" ++ base36 n

def resourceMatches (subscriptionResource changedResource : Str) : Bool :=
  subscriptionResource.isEmpty || subscriptionResource == changedResource ||
    (subscriptionResource ++ js "/").isPrefixOf changedResource

/-- The filter of `publish` and `replay`: the event concerns the resource of the key. -/
def FileWatchKey.concerns (key : FileWatchKey) (event : FileWatchEvent) : Bool :=
  event.fact.projectId == key.projectId && event.fact.folderId == key.folderId &&
    resourceMatches key.resource event.fact.resource

def resyncEvent (key : FileWatchKey) (sequence : ℕ) : FileWatchEvent :=
  ⟨key.serverId, ⟨key.projectId, key.folderId, key.resource, .resync, none, none, none⟩, sequence⟩

section Queues
variable (o : FileWatchRegistryOptions)

def enqueue (s : SubscriptionState) (event : FileWatchEvent) : SubscriptionState :=
  if s.resyncRequired then s
  else if o.maxQueueEvents ≤ s.queue.length then
    { s with
      queue := [resyncEvent s.subscription.key event.sequence]
      resyncRequired := true }
  else { s with queue := s.queue ++ [event] }

def replay (r : FileWatchRegistry) (afterSequence : ℕ) (key : FileWatchKey) :
    List FileWatchEvent × Bool :=
  if afterSequence = r.sequenceValue ∨ r.eventHistory = [] then ([], false)
  else
    match Journal.replay FileWatchEvent.sequence r.eventHistory afterSequence with
    | .resync => ([resyncEvent key r.sequenceValue], true)
    | .events later =>
      let events := later.filter key.concerns
      if o.maxQueueEvents < events.length then ([resyncEvent key r.sequenceValue], true)
      else (events, false)

def SubscriptionState.take (s : SubscriptionState) (limit accepted : ℕ) :
    SubscriptionState × FileWatchBatch :=
  let events := s.queue.take limit
  let cursor := (events.getLast?.map FileWatchEvent.sequence).getD s.cursor
  ({ s with
      cursor := cursor
      queue := s.queue.drop limit
      resyncRequired := s.resyncRequired && !events.any fun event => event.fact.kind == .resync
      returned := s.returned ++ events.map fun event => ⟨event, accepted⟩ },
    ⟨s.subscription.subscriptionId, cursor, events, s.resyncRequired⟩)

end Queues

section Methods
variable (o : FileWatchRegistryOptions)

abbrev WatchAction := Fallible FileWatchRegistry Str

def startingPoint (afterSequence : Option ℤ) (sequenceValue : ℕ) : Except Str ℕ :=
  match afterSequence with
  | none => .ok sequenceValue
  | some n =>
    if isCountNumber n && n ≤ (sequenceValue : ℤ) then .ok n.toNat
    else .error (js "afterSequence is invalid")

def FileWatchRegistry.existing (r : FileWatchRegistry) (key : Str) :
    Option FileWatchSubscription :=
  ((r.subscriptionsByKey.get key).bind r.subscriptions.get).map SubscriptionState.subscription

def FileWatchRegistry.enter (r : FileWatchRegistry) (key : FileWatchKey) (clientId : Str)
    (afterSequence : ℕ) : FileWatchRegistry × FileWatchSubscription :=
  let subscriptionId := watchId (r.subscriptionSequence + 1)
  let subscription : FileWatchSubscription := ⟨subscriptionId, key, clientId⟩
  let replayed := replay o r afterSequence key
  ({ r with
      subscriptionSequence := r.subscriptionSequence + 1
      subscriptions := r.subscriptions.set subscriptionId
        ⟨subscription, afterSequence, replayed.1, replayed.2, afterSequence, []⟩
      subscriptionsByKey := r.subscriptionsByKey.set (subscriptionKey key clientId) subscriptionId },
    subscription)

def subscribe (options : FileWatchSubscriptionOptions) : WatchAction FileWatchSubscription := do
  let clientId ← .check (validIdentity options.clientId "clientId")
  let projectId ← .check (validIdentity options.projectId "projectId")
  let folderId ← .check (optionalIdentity options.folderId "folderId")
  let resource ← .check (validResource options.resource o.maxResourceLength)
  let r ← .get
  let afterSequence ← .check (startingPoint options.afterSequence r.sequenceValue)
  .check (throwIfAborted options.aborted)
  let key : FileWatchKey := ⟨o.serverId, projectId, folderId, resource⟩
  match r.existing (subscriptionKey key clientId) with
  | some subscription => pure subscription
  | none =>
    .modify fun r =>
      { r with
        subscriptionsByKey := r.subscriptionsByKey.delete (subscriptionKey key clientId) }
    .check (refuseIf (o.maxSubscriptions ≤ r.subscriptions.size)
      (js "file watch subscription limit reached"))
    .check (refuseIf (maxSafeNumber ≤ r.subscriptionSequence)
      (js "file watch subscription sequence exhausted"))
    let r ← .get
    .modify fun r => (r.enter o key clientId afterSequence).1
    pure (r.enter o key clientId afterSequence).2

def unsubscribe (subscriptionId : Str) : WatchAction Bool := do
  let r ← .get
  match r.subscriptions.get subscriptionId with
  | none => pure false
  | some s =>
    .modify fun r =>
      { r with
        subscriptions := r.subscriptions.delete subscriptionId
        subscriptionsByKey :=
          r.subscriptionsByKey.delete (subscriptionKey s.subscription.key s.subscription.clientId)
        ended := r.ended ++ [(s, r.sequenceValue)] }
    pure true

def rememberFingerprint (r : FileWatchRegistry) (fact : FileWatchEventInput) : FileWatchRegistry :=
  { r with
    recentFingerprints := r.recentFingerprints ++ [fact]
    fingerprintClearScheduled := true }

def FileWatchRegistry.accept (r : FileWatchRegistry) (fact : FileWatchEventInput) :
    FileWatchRegistry × FileWatchPublishResult :=
  let event : FileWatchEvent := ⟨o.serverId, fact, r.sequenceValue + 1⟩
  let offer := fun s : SubscriptionState =>
    if s.subscription.key.concerns event then enqueue o s event else s
  ({ r with
      sequenceValue := r.sequenceValue + 1
      eventHistory := Journal.record (o.maxQueueEvents * 2) r.eventHistory event
      subscriptions := r.subscriptions.map offer
      accepted := r.accepted ++ [event]
      answered := r.answered ++ [fact]
      turn := r.turn ++ [fact] },
    ⟨true, false, some event.sequence,
      (r.subscriptions.values.filter fun s => s.subscription.key.concerns event).map
        SubscriptionState.subscription⟩)

def publish (input : FileWatchEventInput) : WatchAction FileWatchPublishResult := do
  let fact ← .check (checkInput o input)
  let r ← .get
  if r.recentFingerprints.contains fact then
    .modify fun r =>
      { r with
        answered := r.answered ++ [fact]
        turn := r.turn ++ [fact] }
    pure ⟨false, true, none, []⟩
  else
    .modify (rememberFingerprint · fact)
    .check (refuseIf (maxSafeNumber ≤ r.sequenceValue) (js "file watch sequence exhausted"))
    let r ← .get
    .modify fun r => (r.accept o fact).1
    pure (r.accept o fact).2

def read (subscriptionId : Str) (limit : Option ℤ) (aborted : Bool) :
    WatchAction FileWatchBatch := do
  .check (throwIfAborted aborted)
  let r ← .get
  let s ← .check (demand (r.subscriptions.get subscriptionId)
    (js "file watch subscription is unknown"))
  let limit := limit.getD o.maxBatchEvents
  .check (refuseIf (limit ≤ 0 ∨ (o.maxBatchEvents : ℤ) < limit) (js "watch batch limit is invalid"))
  .modify fun r =>
    { r with
      subscriptions := r.subscriptions.set subscriptionId (s.take limit.toNat r.sequenceValue).1 }
  pure (s.take limit.toNat r.sequenceValue).2

def endTurn : WatchAction Unit :=
  .modify fun r =>
    if r.fingerprintClearScheduled then
      { r with
        recentFingerprints := []
        fingerprintClearScheduled := false
        turn := [] }
    else r

inductive WatchInput where
  | subscribe (options : FileWatchSubscriptionOptions)
  | unsubscribe (subscriptionId : Str)
  | publish (input : FileWatchEventInput)
  | read (subscriptionId : Str) (limit : Option ℤ) (aborted : Bool)
  | endTurn

def watchStep (r : FileWatchRegistry) : WatchInput → FileWatchRegistry
  | .subscribe options => (subscribe o options r).2
  | .unsubscribe subscriptionId => (unsubscribe subscriptionId r).2
  | .publish input => (publish o input r).2
  | .read subscriptionId limit aborted => (read o subscriptionId limit aborted r).2
  | .endTurn => (endTurn r).2

def FileWatchRegistry.initial : FileWatchRegistry :=
  ⟨.empty, .empty, [], [], false, 0, 0, [], [], [], []⟩

end Methods

end Terminay.Files
