import Terminay.Lib.Runs
import Terminay.Script.Unicode
import Terminay.Terminal.InputSources

/-!
# The input queue of a session

A write that passes its checks joins the queue of its session. A pump hands the
queued writes to the terminal service one by one: it waits for the service, then
for the observer of accepted input, and settles the write before it takes the
next. The lists of accepted, handed and settled writes are kept beside the queues.
-/

namespace Terminay.Terminal
open Script Outcome

inductive InputData where
  | bytes (value : Bytes)
  | text (value : Str)

structure TerminalInputSourceRequest where
  identity : TerminalIdentity
  clientId : Str
  source : TerminalInputSource
  data : InputData
  authorization : Option TerminalAuthorization
  sequence : Option ℚ

structure TerminalInputSourceResult where
  identity : TerminalIdentity
  clientId : Str
  source : TerminalInputSource
  bytes : ℕ
  sequence : Option ℕ
  queuedBytes : ℕ
  deriving DecidableEq

structure QueuedWrite where
  promise : ℕ
  identity : TerminalIdentity
  authorization : Option TerminalAuthorization
  clientId : Str
  source : TerminalInputSource
  bytes : Bytes
  sequence : Option ℕ

def QueuedWrite.key (item : QueuedWrite) : Str := sessionKey item.identity

/-- What an active pump waits for: the service, which may have refused the write
before it reached the process, or the observer. -/
inductive PumpPhase where
  | writing (item : QueuedWrite) (refused : Option Thrown)
  | observing (item : QueuedWrite)

structure InputQueue where
  items : List QueuedWrite
  pendingBytes : ℕ
  phase : Option PumpPhase

def InputQueue.created : InputQueue := ⟨[], 0, none⟩

def TerminalInputSource.text : TerminalInputSource → Str
  | .keyboard => js "keyboard"
  | .paste => js "paste"
  | .macros => js "macro"
  | .dictation => js "dictation"
  | .mcp => js "mcp"
  | .remote => js "remote"
  | .automation => js "automation"
  | .windowMessage => js "window_message"
  | .workflow => js "workflow"
  | .launcher => js "launcher"

def QueuedWrite.sequenceKey (item : QueuedWrite) : Str :=
  item.key ++ 0 :: (item.clientId ++ 0 :: item.source.text)

def toBytes (data : InputData) : Except Thrown Bytes :=
  let bytes := match data with
    | .bytes value => value
    | .text value => textEncode value
  if bytes = [] then .error (refusal .invalidBytes "terminal input bytes are invalid" [])
  else .ok bytes

def inputSequence (sequence : Option ℚ) : Except Thrown (Option ℕ) :=
  match sequence with
  | none => .ok none
  | some value =>
    if isSafeInteger value ∧ 0 ≤ value then .ok (some value.num.toNat)
    else .error (refusal .invalidPosition "terminal input sequence is invalid" [])

def normalizeInputRequest (request : TerminalInputSourceRequest) : Except Thrown (Option ℕ) := do
  validateIdentity request.identity
  validateClientId request.clientId
  refuseIf ((request.authorization.bind TerminalAuthorization.clientId).any fun c =>
      c ≠ request.clientId)
    (forbidden "terminal authorization client does not match input source"
      [("reason", .text (js "client"))])
  inputSequence request.sequence

def queueOverflow (max actual : ℕ) : Thrown :=
  refusal .queueOverflow "terminal input queue is full"
    [("max", .number max), ("actual", .number actual)]

def staleSequence (previous actual : ℕ) : Thrown :=
  refusal .invalidPosition "terminal input sequence is stale"
    [("expected", .number (previous + 1)), ("actual", .number actual)]

structure InputAdapter where
  queues : Table.Of Str InputQueue
  lastSequences : Table.Of Str ℕ
  accepted : List QueuedWrite
  handed : List (QueuedWrite × Option Thrown)
  settled : List (QueuedWrite × Except Thrown TerminalInputSourceResult)

/-- A call of `write`, or the completion a session's pump waits for. `refused` is the
answer of the service's own checks should the call or completion hand it a write. -/
inductive InputStep where
  | write (request : TerminalInputSourceRequest) (snapshot : Option TerminalSessionSnapshot)
    (refused : Option Thrown)
  | completed (key : Str) (outcome : Except Thrown Unit) (refused : Option Thrown)

namespace InputAdapter

def initial : InputAdapter := ⟨∅, ∅, [], [], []⟩

def queue (a : InputAdapter) (key : Str) : InputQueue := a.queues[key]?.getD .created

def pump (a : InputAdapter) (key : Str) (queue : InputQueue) (refused : Option Thrown) :
    InputAdapter :=
  match queue.items with
  | [] =>
    { a with
      queues :=
        if queue.pendingBytes = 0 then a.queues.erase key
        else a.queues.insert key { queue with phase := none } }
  | item :: items =>
    { a with
      queues := a.queues.insert key ⟨items, queue.pendingBytes, some (.writing item refused)⟩
      handed := a.handed ++ [(item, refused)] }

def settle (a : InputAdapter) (key : Str) (queue : InputQueue) (item : QueuedWrite)
    (outcome : Except Thrown TerminalInputSourceResult) (refused : Option Thrown) : InputAdapter :=
  { a with settled := a.settled ++ [(item, outcome)] }.pump key
    ⟨queue.items, queue.pendingBytes - item.bytes.length, none⟩ refused

def completed (a : InputAdapter) (key : Str) (outcome : Except Thrown Unit)
    (refused : Option Thrown) : InputAdapter :=
  let queue := a.queue key
  match queue.phase with
  | none => a
  | some (.writing item (some error)) => a.settle key queue item (.error error) refused
  | some (.writing item none) =>
    match outcome with
    | .error error => a.settle key queue item (.error error) refused
    | .ok () =>
      { a with queues := a.queues.insert key { queue with phase := some (.observing item) } }
  | some (.observing item) =>
    a.settle key queue item
      (.ok ⟨item.identity, item.clientId, item.source, item.bytes.length, item.sequence,
        queue.pendingBytes - item.bytes.length⟩) refused

/-- The marks to keep once the sequence of a write is checked. -/
def checkSequence (a : InputAdapter) (key : Str) (sequence : Option ℕ) :
    Except Thrown (Table.Of Str ℕ) :=
  match sequence with
  | none => .ok a.lastSequences
  | some sequence =>
    match a.lastSequences[key]? with
    | none => .ok (a.lastSequences.insert key sequence)
    | some previous =>
      if sequence ≤ previous then .error (staleSequence previous sequence)
      else .ok (a.lastSequences.insert key sequence)

def join (a : InputAdapter) (item : QueuedWrite) (lastSequences : Table.Of Str ℕ) : InputAdapter :=
  let queue := a.queue item.key
  { a with
    queues := a.queues.insert item.key
      ⟨queue.items ++ [item], queue.pendingBytes + item.bytes.length, queue.phase⟩
    lastSequences
    accepted := a.accepted ++ [item] }

/-- `write` once the request and its session passed their checks. -/
def enqueue (maxQueuedInputBytes : ℕ) (a : InputAdapter) (item : QueuedWrite)
    (refused : Option Thrown) : Except Thrown Unit × InputAdapter :=
  let queue := a.queue item.key
  let actual := queue.pendingBytes + item.bytes.length
  let created := { a with queues := a.queues.insert item.key queue }
  if maxQueuedInputBytes < actual then (.error (queueOverflow maxQueuedInputBytes actual), created)
  else
    match a.checkSequence item.sequenceKey item.sequence with
    | .error error => (.error error, created)
    | .ok lastSequences =>
      let joined := a.join item lastSequences
      (.ok (), if queue.phase.isSome then joined
        else joined.pump item.key (joined.queue item.key) refused)

def write (maxQueuedInputBytes : ℕ) (a : InputAdapter) (request : TerminalInputSourceRequest)
    (snapshot : Option TerminalSessionSnapshot) (refused : Option Thrown) :
    Except Thrown Unit × InputAdapter :=
  match (do
    let sequence ← normalizeInputRequest request
    assertWritable request.identity snapshot request.authorization request.clientId
    .ok (sequence, ← toBytes request.data)) with
  | .error error => (.error error, a)
  | .ok (sequence, bytes) =>
    a.enqueue maxQueuedInputBytes
      ⟨a.accepted.length, request.identity, request.authorization, request.clientId,
        request.source, bytes, sequence⟩ refused

def step (maxQueuedInputBytes : ℕ) (a : InputAdapter) : InputStep → InputAdapter
  | .write request snapshot refused =>
    (a.write maxQueuedInputBytes request snapshot refused).2
  | .completed key outcome refused => a.completed key outcome refused

end InputAdapter

end Terminay.Terminal
