import Terminay.Protocol.EventJournal
import Terminay.Protocol.Frame
import Terminay.Protocol.Payload

/-!
# Event subscriptions of a connection

A subscription names an event and a selector. An event is projected for the
client, matched against what it is addressed to, and framed: terminal output
goes out with its bytes in the body, or in base64 to a client that cannot read
a body.
-/

namespace Terminay.Protocol
open Script Workspace Outcome

variable {ν : Type} [Engine ν]

def payloadFields (value : Json ν) : Fields ν := value.object?.getD ∅

def Fields.text? (payload : Fields ν) (key : String) : Option Str :=
  (payload.at key).bind Json.str?

def matchesEvent (event : OrderedEvent ν) (clientId name : Option Str) (connectionId : Str) :
    Bool :=
  let payload := payloadFields event.payload
  name.all (· == event.event) &&
    (Fields.text? payload "clientId").all (fun addressed => clientId == some addressed) &&
    (Fields.text? payload "toConnectionId").all (· == connectionId)

def isScalar : Json ν → Bool
  | .arr _ | .obj _ => false
  | _ => true

def matchesEventSelector (payload : Json ν) (selector : Option (Json ν)) : Bool :=
  match selector with
  | none => true
  | some (.obj entries) =>
    match payload.object? with
    | some candidate => entries.all fun e =>
        isScalar e.2 && candidate[e.1]?.any fun found => sameJson found e.2
    | none => false
  | some _ => false

structure TerminalOutputMetadata where
  attachmentId : Str
  clientId : Str
  serverId : Str
  projectId : Str
  sessionId : Str
  position : ℕ
  nextPosition : ℕ

def terminalOutputMetadata (event : OrderedEvent ν) : Option TerminalOutputMetadata :=
  if event.event ≠ js "terminal" then none else do
    let payload := payloadFields event.payload
    let type ← Fields.text? payload "type"
    guard (type = js "output")
    let attachmentId ← Fields.text? payload "attachmentId"
    guard (idPattern attachmentId = true)
    let clientId ← Fields.text? payload "clientId"
    let serverId ← Fields.text? payload "serverId"
    let projectId ← Fields.text? payload "projectId"
    let sessionId ← Fields.text? payload "sessionId"
    let position ← (payload.at "position").bind Json.uint?
    let nextPosition ← (payload.at "nextPosition").bind Json.uint?
    guard (position < nextPosition)
    pure ⟨attachmentId, clientId, serverId, projectId, sessionId, position, nextPosition⟩

def isTerminalOutput (event : OrderedEvent ν) : Bool := (terminalOutputMetadata event).isSome

def base64Unit (n : ℕ) : UInt16 :=
  (js "ABCDEFGHIJKLMNOPQRSTUVWXYZabcdefghijklmnopqrstuvwxyz0123456789+/").getD n (unit '=')

def encodeBase64 : Bytes → Str
  | a :: b :: c :: rest =>
    let n := a.toNat * 65536 + b.toNat * 256 + c.toNat
    base64Unit (n / 262144) :: base64Unit (n / 4096 % 64) :: base64Unit (n / 64 % 64) ::
      base64Unit (n % 64) :: encodeBase64 rest
  | [a, b] =>
    let n := a.toNat * 1024 + b.toNat * 4
    [base64Unit (n / 4096), base64Unit (n / 64 % 64), base64Unit (n % 64), unit '=']
  | [a] => [base64Unit (a.toNat / 4), base64Unit (a.toNat % 4 * 16), unit '=', unit '=']
  | [] => []

def numberJson (n : ℕ) : Json ν := .num (Engine.literal n)

def eventEnvelope (subscriptionId : Str) (event : OrderedEvent ν) : Json ν :=
  .obj [(js "type", .str (js "event")), (js "subscriptionId", .str subscriptionId),
    (js "revision", numberJson event.revision), (js "cursor", .str event.cursor),
    (js "event", .str event.event), (js "payload", event.payload)]

def eventResyncEnvelope (subscriptionId : Str) (revision : ℤ) (cursor : Str) : Json ν :=
  .obj [(js "type", .str (js "event_resync")), (js "subscriptionId", .str subscriptionId),
    (js "revision", .num (Engine.literal revision)), (js "cursor", .str cursor)]

def withBytes (payload : Json ν) (bytes : Str) : Json ν :=
  match payload with
  | .obj fields => .obj (fields.filter (fun e => e.1 != js "bytes") ++ [(js "bytes", .str bytes)])
  | other => other

def terminalOutputEnvelope (subscriptionId : Str) (event : OrderedEvent ν) (body : Option Bytes)
    (useBinaryBody : Bool) : Checked (Json ν) :=
  if useBinaryBody then .ok (eventEnvelope subscriptionId event)
  else do
    let bytes ← demand
      ((Fields.text? (payloadFields event.payload) "bytes").or (body.map encodeBase64))
      (js "legacy terminal output bytes are unavailable")
    pure (eventEnvelope subscriptionId { event with payload := withBytes event.payload bytes })

/-- An open connection. The host's projection of events keeps their revisions. -/
structure Connection (ν : Type) where
  limits : ProtocolLimits ν
  connectionId : Str
  clientId : Option Str
  readsNothing : Bool
  canReadBotEvents : Bool
  clientCapabilities : List Str
  projectEvent : OrderedEvent ν → Option (OrderedEvent ν)
  keepsRevision : ∀ e p, projectEvent e = some p → p.revision = e.revision

structure Subscription (ν : Type) where
  subscriptionId : Str
  event : Option Str
  selector : Option (Json ν)
  fromRevision : ℕ

namespace Connection

variable (c : Connection ν)

def has (capability : String) : Bool := c.clientCapabilities.contains (js capability)

def isBotEvent (event : Str) : Bool := (js "bots.").isPrefixOf event

def present : Option (Json ν) → Option (Json ν)
  | some .null => none
  | other => other

def subscribedEvent (payload : Fields ν) : Answered (Option Str) :=
  match present (payload.at "event") with
  | none => pure none
  | some value => do
    refuseIf (value.str?.any isBotEvent = true ∧ c.canReadBotEvents = false)
      (refusal .forbidden (js "bots require terminal-create authority"))
    let event ← demand value.str? (refusal .validation (js "event name is invalid"))
    refuseIf (event = [] ∨ 256 < event.length) (refusal .validation (js "event name is invalid"))
    pure (some event)

def validateEventSubscription (command : Json ν) : Answered (Subscription ν) := do
  refuseIf (c.readsNothing = true)
    (refusal .forbidden (js "event subscription requires read access"))
  refuseIf (c.has "events.resync" = false)
    (refusal .validation (js "event subscription requires events.resync capability"))
  let payload := payloadFields command
  let subscriptionId ← demand ((Fields.text? payload "subscriptionId").filter idPattern)
    (refusal .validation (js "event subscription id is invalid"))
  let event ← c.subscribedEvent payload
  refuseIf ((payload.at "payload").any (fun selector => selector.object?.isNone) = true)
    (refusal .validation (js "event subscription selector is invalid"))
  let fromRevision ← match payload.at "fromRevision" with
    | none => pure 0
    | some value => demand value.uint? (refusal .validation (js "event revision is invalid"))
  pure ⟨subscriptionId, event, payload.at "payload", fromRevision⟩

def projected (event : OrderedEvent ν) : Option (OrderedEvent ν) :=
  if isBotEvent event.event = true ∧ c.canReadBotEvents = false then none
  else c.projectEvent event

/-- What the replay sends of an event; it does not ask the selector. -/
def replayed (s : Subscription ν) (event : OrderedEvent ν) : Option (OrderedEvent ν) :=
  (c.projected event).filter fun p => matchesEvent p c.clientId s.event c.connectionId

def heard (s : Subscription ν) (event : OrderedEvent ν) : Option (OrderedEvent ν) :=
  (c.replayed s event).filter fun p => matchesEventSelector p.payload s.selector

def eventFrame (s : Subscription ν) (event : OrderedEvent ν) : Checked Bytes :=
  match terminalOutputMetadata event with
  | none => encodeFrame c.limits (eventEnvelope s.subscriptionId event) (event.body.getD [])
  | some output => do
    refuseIf (event.body.any (fun body => body.length != output.nextPosition - output.position) = true)
      (js "terminal output body does not match its byte range")
    let useBinaryBody := event.body.isSome && c.has "terminal.binary-output"
    let envelope ← terminalOutputEnvelope s.subscriptionId event event.body useBinaryBody
    encodeFrame c.limits envelope (if useBinaryBody then event.body.getD [] else [])

def resyncFrame (s : Subscription ν) (snapshot : Option ResyncSnapshot) : Checked Bytes :=
  encodeFrame c.limits
    (eventResyncEnvelope s.subscriptionId
      ((snapshot.map ResyncSnapshot.revision).getD s.fromRevision)
      ((snapshot.map ResyncSnapshot.cursor).getD (natText s.fromRevision))) []

variable {c} {s : Subscription ν} {e p : OrderedEvent ν}

omit [Engine ν] in
theorem projected_revision (h : c.projected e = some p) : p.revision = e.revision := by
  rw [projected] at h
  split_ifs at h
  exact c.keepsRevision e p h

omit [Engine ν] in
theorem replayed_revision (h : c.replayed s e = some p) : p.revision = e.revision := by
  rw [replayed, Option.filter_eq_some_iff] at h
  exact projected_revision h.1

theorem heard_replayed (h : c.heard s e = some p) : c.replayed s e = some p := by
  rw [heard, Option.filter_eq_some_iff] at h
  exact h.1

theorem subscribed_has {command : Json ν} (h : c.validateEventSubscription command = .ok s) :
    c.has "events.resync" = true := by
  simp only [validateEventSubscription, bind_ok, refuseIf_ok] at h
  obtain ⟨-, -, -, hhas, -⟩ := h
  exact Bool.of_not_eq_false hhas

end Connection

end Terminay.Protocol
