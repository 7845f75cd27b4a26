import Terminay.Lib.Lists
import Terminay.Terminal.InputQueue

/-!
# Runs of the input queues

The writes accepted for a session are those settled, then the one in flight, then those queued, in
that order; the queue counts the bytes of the last two.
-/

namespace Terminay.Terminal
open Script

def ofKey (key : Str) (writes : List QueuedWrite) : List QueuedWrite :=
  writes.filter fun w => w.key = key

def InputQueue.inFlight (queue : InputQueue) : List QueuedWrite :=
  match queue.phase with
  | none => []
  | some (.writing item _) => [item]
  | some (.observing item) => [item]

def totalBytes (writes : List QueuedWrite) : ℕ := (writes.map fun w => w.bytes.length).sum

namespace InputAdapter

def acceptedOf (a : InputAdapter) (key : Str) : List QueuedWrite := ofKey key a.accepted
def handedOf (a : InputAdapter) (key : Str) : List QueuedWrite := ofKey key (a.handed.map Prod.fst)
def settledOf (a : InputAdapter) (key : Str) : List QueuedWrite := ofKey key (a.settled.map Prod.fst)

/-- The writes that reached the process: the service's checks did not refuse them. -/
def receivedOf (a : InputAdapter) (key : Str) : List QueuedWrite :=
  ofKey key ((a.handed.filter fun h => h.2.isNone).map Prod.fst)

end InputAdapter

structure Ledger (max : ℕ) (accepted handed settled : List QueuedWrite) (queue : InputQueue) :
    Prop where
  order : accepted = handed ++ queue.items
  whole : handed = settled ++ queue.inFlight
  bytes : queue.pendingBytes = totalBytes (queue.inFlight ++ queue.items)
  bounded : queue.pendingBytes ≤ max

theorem ofKey_append (key : Str) (xs ys : List QueuedWrite) :
    ofKey key (xs ++ ys) = ofKey key xs ++ ofKey key ys :=
  List.filter_append xs ys

theorem ofKey_own {key : Str} {item : QueuedWrite} (h : item.key = key) :
    ofKey key [item] = [item] := by
  simp [ofKey, h]

theorem ofKey_other {key : Str} {item : QueuedWrite} (h : item.key ≠ key) :
    ofKey key [item] = [] := by
  simp [ofKey, h]

theorem totalBytes_append (xs ys : List QueuedWrite) :
    totalBytes (xs ++ ys) = totalBytes xs + totalBytes ys := by
  simp only [totalBytes, List.map_append, List.sum_append]

theorem totalBytes_singleton (item : QueuedWrite) : totalBytes [item] = item.bytes.length := by
  simp [totalBytes]

namespace Ledger

variable {max : ℕ} {accepted handed settled : List QueuedWrite} {queue : InputQueue}

theorem empty (max : ℕ) : Ledger max [] [] [] .created := ⟨rfl, rfl, rfl, Nat.zero_le _⟩

theorem settle (h : Ledger max accepted handed settled queue) {item : QueuedWrite}
    (hitem : queue.inFlight = [item]) :
    Ledger max accepted handed (settled ++ [item])
      ⟨queue.items, queue.pendingBytes - item.bytes.length, none⟩ where
  order := h.order
  whole := by
    rw [h.whole, hitem]
    exact (List.append_nil _).symm
  bytes := by
    have hbytes := h.bytes
    rw [hitem, totalBytes_append, totalBytes_singleton] at hbytes
    simp only [InputQueue.inFlight, List.nil_append]
    omega
  bounded := by
    have hbounded := h.bounded
    simp only
    omega

theorem next (h : Ledger max accepted handed settled queue) (hidle : queue.phase = none)
    {item : QueuedWrite} {items : List QueuedWrite} (hitems : queue.items = item :: items)
    (refused : Option Thrown) :
    Ledger max accepted (handed ++ [item]) settled
      ⟨items, queue.pendingBytes, some (.writing item refused)⟩ where
  order := by
    rw [h.order, hitems, List.append_assoc, List.singleton_append]
  whole := by
    have hflight : queue.inFlight = [] := by rw [InputQueue.inFlight, hidle]
    rw [h.whole, hflight, List.append_nil]
    rfl
  bytes := by
    have hflight : queue.inFlight = [] := by rw [InputQueue.inFlight, hidle]
    rw [h.bytes, hflight, hitems]
    rfl
  bounded := h.bounded

theorem join (h : Ledger max accepted handed settled queue) {item : QueuedWrite}
    (hfits : queue.pendingBytes + item.bytes.length ≤ max) :
    Ledger max (accepted ++ [item]) handed settled
      ⟨queue.items ++ [item], queue.pendingBytes + item.bytes.length, queue.phase⟩ where
  order := by
    rw [h.order]
    exact List.append_assoc _ _ _
  whole := h.whole
  bytes := by
    have hflight : (⟨queue.items ++ [item], queue.pendingBytes + item.bytes.length,
        queue.phase⟩ : InputQueue).inFlight = queue.inFlight := rfl
    rw [hflight, ← List.append_assoc, totalBytes_append, ← h.bytes, totalBytes_singleton]
  bounded := hfits

end Ledger

namespace InputAdapter

def pumped (queue : InputQueue) (refused : Option Thrown) : InputQueue :=
  match queue.items with
  | [] => ⟨[], queue.pendingBytes, none⟩
  | item :: items => ⟨items, queue.pendingBytes, some (.writing item refused)⟩

theorem pumped_empty {queue : InputQueue} (hitems : queue.items = []) (hphase : queue.phase = none)
    (refused : Option Thrown) : pumped queue refused = queue := by
  obtain ⟨items, bytes, phase⟩ := queue
  obtain rfl : items = [] := hitems
  obtain rfl : phase = none := hphase
  rfl

theorem queue_insert (a : InputAdapter) (key other : Str) (queue : InputQueue) :
    ((a.queues.insert key queue)[other]?.getD .created) =
      if key = other then queue else a.queue other := by
  rw [Table.get_insert]
  split_ifs <;> rfl

theorem queue_replaced (a : InputAdapter) (key other : Str) (queue : InputQueue) :
    InputAdapter.queue { a with queues := a.queues.insert key queue } other =
      if key = other then queue else a.queue other :=
  a.queue_insert key other queue

theorem queue_pump (a : InputAdapter) (key other : Str) (queue : InputQueue)
    (refused : Option Thrown) :
    (a.pump key queue refused).queue other =
      if key = other then pumped queue refused else a.queue other := by
  rw [pump, pumped]
  rcases hitems : queue.items with _ | ⟨item, items⟩
  · simp only [InputAdapter.queue]
    by_cases hzero : queue.pendingBytes = 0
    · rw [if_pos hzero, Table.get_erase]
      split_ifs
      · rw [hzero]
        rfl
      · rfl
    · rw [if_neg hzero, queue_insert]
      rfl
  · exact queue_insert a key other _

theorem queue_join (a : InputAdapter) (item : QueuedWrite) (marks : Table.Of Str ℕ) (key : Str) :
    (a.join item marks).queue key =
      if item.key = key then ⟨(a.queue item.key).items ++ [item],
        (a.queue item.key).pendingBytes + item.bytes.length, (a.queue item.key).phase⟩
      else a.queue key :=
  a.queue_insert item.key key _

theorem enqueue_cases (a : InputAdapter) (max : ℕ) (item : QueuedWrite) (refused : Option Thrown) :
    (a.enqueue max item refused).2 =
        { a with queues := a.queues.insert item.key (a.queue item.key) } ∨
    ∃ marks, a.checkSequence item.sequenceKey item.sequence = .ok marks ∧
      (a.queue item.key).pendingBytes + item.bytes.length ≤ max ∧
      ((a.queue item.key).phase.isSome = true ∧
          (a.enqueue max item refused).2 = a.join item marks ∨
        (a.queue item.key).phase = none ∧ (a.enqueue max item refused).2 =
          (a.join item marks).pump item.key ((a.join item marks).queue item.key) refused) := by
  simp only [enqueue]
  split_ifs with hfull hactive
  · exact .inl rfl
  · cases hsequence : a.checkSequence item.sequenceKey item.sequence with
    | error error => exact .inl rfl
    | ok marks => exact .inr ⟨marks, rfl, not_lt.mp hfull, .inl ⟨hactive, rfl⟩⟩
  · cases hsequence : a.checkSequence item.sequenceKey item.sequence with
    | error error => exact .inl rfl
    | ok marks =>
      have hidle := Option.not_isSome_iff_eq_none.mp hactive
      exact .inr ⟨marks, rfl, not_lt.mp hfull, .inr ⟨hidle, rfl⟩⟩

theorem write_cases (a : InputAdapter) (max : ℕ) (request : TerminalInputSourceRequest)
    (snapshot : Option TerminalSessionSnapshot) (refused : Option Thrown) :
    (a.write max request snapshot refused).2 = a ∨ ∃ item : QueuedWrite,
      item.promise = a.accepted.length ∧
        (a.write max request snapshot refused).2 = (a.enqueue max item refused).2 := by
  simp only [write]
  split
  · exact .inl rfl
  · exact .inr ⟨_, rfl, rfl⟩

end InputAdapter

structure Accounted (max : ℕ) (a : InputAdapter) : Prop where
  ledger : ∀ key, Ledger max (a.acceptedOf key) (a.handedOf key) (a.settledOf key) (a.queue key)
  idle : ∀ key, (a.queue key).phase = none → (a.queue key).items = []

namespace Accounted

variable {max : ℕ} {a : InputAdapter}

theorem initial (max : ℕ) : Accounted max .initial where
  ledger key := Ledger.empty max
  idle key h := rfl

theorem inFlight_own (h : Accounted max a) {key : Str} {item : QueuedWrite}
    (hitem : (a.queue key).inFlight = [item]) : item.key = key := by
  have hmem : item ∈ a.handedOf key := by
    rw [(h.ledger key).whole, hitem]
    exact List.mem_append_right _ (List.mem_singleton_self item)
  exact of_decide_eq_true (List.mem_filter.mp hmem).2

theorem pump {key : Str} {queue : InputQueue} (hphase : queue.phase = none)
    (hledger : ∀ k, Ledger max (a.acceptedOf k) (a.handedOf k) (a.settledOf k)
      (if key = k then queue else a.queue k))
    (hidle : ∀ k, key ≠ k → (a.queue k).phase = none → (a.queue k).items = [])
    (refused : Option Thrown) : Accounted max (a.pump key queue refused) := by
  have hqueue := fun k => a.queue_pump key k queue refused
  have hown := hledger key
  rw [if_pos rfl] at hown
  constructor
  case idle =>
    intro k hnone
    rw [hqueue] at hnone ⊢
    split_ifs at hnone ⊢ with hk
    · rw [InputAdapter.pumped] at hnone ⊢
      rcases hitems : queue.items with _ | ⟨item, items⟩
      · rfl
      · rw [hitems] at hnone
        cases hnone
    · exact hidle k hk hnone
  case ledger =>
    intro k
    rw [hqueue]
    rcases hitems : queue.items with _ | ⟨item, items⟩
    · have hsame : a.pump key queue refused = { a with queues := (a.pump key queue refused).queues } := by
        rw [InputAdapter.pump, hitems]
      rw [hsame, InputAdapter.pumped_empty hitems hphase]
      exact hledger k
    · have hhanded : (a.pump key queue refused).handedOf k =
          a.handedOf k ++ ofKey k [item] := by
        rw [InputAdapter.pump, hitems, InputAdapter.handedOf, List.map_append, ofKey_append]
        rfl
      have haccepted : (a.pump key queue refused).acceptedOf k = a.acceptedOf k := by
        rw [InputAdapter.pump, hitems]
        rfl
      have hsettled : (a.pump key queue refused).settledOf k = a.settledOf k := by
        rw [InputAdapter.pump, hitems]
        rfl
      have hitem : item.key = key := by
        have hmem : item ∈ a.acceptedOf key := by
          rw [hown.order, hitems]
          exact List.mem_append_right _ List.mem_cons_self
        exact of_decide_eq_true (List.mem_filter.mp hmem).2
      rw [hhanded, haccepted, hsettled]
      split_ifs with hk
      · subst hk
        rw [ofKey_own hitem, InputAdapter.pumped, hitems]
        exact hown.next hphase hitems refused
      · have hkeep := hledger k
        rw [if_neg hk] at hkeep
        rw [ofKey_other (fun heq => hk (hitem.symm.trans heq)), List.append_nil]
        exact hkeep

theorem settle (h : Accounted max a) {key : Str} {item : QueuedWrite}
    (hitem : (a.queue key).inFlight = [item])
    (outcome : Except Thrown TerminalInputSourceResult) (refused : Option Thrown) :
    Accounted max (a.settle key (a.queue key) item outcome refused) := by
  have hown := h.inFlight_own hitem
  let queue : InputQueue :=
    ⟨(a.queue key).items, (a.queue key).pendingBytes - item.bytes.length, none⟩
  let after : InputAdapter := { a with settled := a.settled ++ [(item, outcome)] }
  have hsettled : ∀ k, after.settledOf k = a.settledOf k ++ ofKey k [item] := by
    intro k
    rw [InputAdapter.settledOf, List.map_append, ofKey_append]
    rfl
  have hledger : ∀ k, Ledger max (after.acceptedOf k) (after.handedOf k) (after.settledOf k)
      (if key = k then queue else after.queue k) := by
    intro k
    rw [hsettled]
    split_ifs with hk
    · subst hk
      rw [ofKey_own hown]
      exact (h.ledger key).settle hitem
    · rw [ofKey_other (fun heq => hk (hown.symm.trans heq)), List.append_nil]
      exact h.ledger k
  have hidle : ∀ k, key ≠ k → (after.queue k).phase = none → (after.queue k).items = [] :=
    fun k _ => h.idle k
  have hphase : queue.phase = none := rfl
  exact pump hphase hledger hidle refused

theorem observe (h : Accounted max a) {key : Str} {item : QueuedWrite}
    (hitem : (a.queue key).inFlight = [item]) :
    Accounted max { a with
      queues := a.queues.insert key { a.queue key with phase := some (.observing item) } } := by
  let after : InputAdapter := { a with
    queues := a.queues.insert key { a.queue key with phase := some (.observing item) } }
  have hqueue : ∀ k, after.queue k =
      if key = k then { a.queue key with phase := some (.observing item) } else a.queue k :=
    fun k => a.queue_replaced key k _
  constructor
  case ledger =>
    intro k
    have hkeep := h.ledger k
    rw [hqueue]
    split_ifs with hk
    · subst hk
      have hflight : (⟨(a.queue key).items, (a.queue key).pendingBytes,
          some (.observing item)⟩ : InputQueue).inFlight = (a.queue key).inFlight := hitem.symm
      refine ⟨hkeep.order, ?_, ?_, hkeep.bounded⟩
      · rw [hflight]
        exact hkeep.whole
      · rw [hflight]
        exact hkeep.bytes
    · exact hkeep
  case idle =>
    intro k hnone
    rw [hqueue] at hnone ⊢
    split_ifs at hnone ⊢
    exact h.idle k hnone

theorem completed (h : Accounted max a) (key : Str) (outcome : Except Thrown Unit)
    (refused : Option Thrown) : Accounted max (a.completed key outcome refused) := by
  rw [InputAdapter.completed]
  rcases hphase : (a.queue key).phase with _ | ⟨item, failure⟩ | item
  · exact h
  · have hitem : (a.queue key).inFlight = [item] := by rw [InputQueue.inFlight, hphase]
    rcases failure with _ | error
    · cases outcome with
      | error error => exact h.settle hitem _ refused
      | ok => exact h.observe hitem
    · exact h.settle hitem _ refused
  · have hitem : (a.queue key).inFlight = [item] := by rw [InputQueue.inFlight, hphase]
    exact h.settle hitem _ refused

theorem create (h : Accounted max a) (key : Str) :
    Accounted max { a with queues := a.queues.insert key (a.queue key) } := by
  have hqueue : ∀ k, InputAdapter.queue { a with queues := a.queues.insert key (a.queue key) } k =
      a.queue k := by
    intro k
    rw [a.queue_replaced]
    split_ifs with hk
    · rw [hk]
    · rfl
  constructor
  case ledger =>
    intro k
    rw [hqueue]
    exact h.ledger k
  case idle =>
    intro k
    rw [hqueue]
    exact h.idle k

theorem join (h : Accounted max a) {item : QueuedWrite}
    (hfits : (a.queue item.key).pendingBytes + item.bytes.length ≤ max)
    (marks : Table.Of Str ℕ) (k : Str) :
    Ledger max ((a.join item marks).acceptedOf k) ((a.join item marks).handedOf k)
      ((a.join item marks).settledOf k) ((a.join item marks).queue k) := by
  have haccepted : (a.join item marks).acceptedOf k = a.acceptedOf k ++ ofKey k [item] :=
    ofKey_append k _ _
  have hkeep := h.ledger k
  rw [haccepted, a.queue_join]
  split_ifs with hk
  · rw [ofKey_own hk]
    subst hk
    exact hkeep.join hfits
  · rw [ofKey_other hk, List.append_nil]
    exact hkeep

theorem enqueue (h : Accounted max a) (item : QueuedWrite) (refused : Option Thrown) :
    Accounted max (a.enqueue max item refused).2 := by
  rcases a.enqueue_cases max item refused with
    heq | ⟨marks, -, hfits, ⟨hactive, heq⟩ | ⟨hidle, heq⟩⟩
  · rw [heq]
    exact h.create item.key
  · rw [heq]
    refine ⟨h.join hfits marks, ?_⟩
    intro k hnone
    rw [a.queue_join] at hnone ⊢
    split_ifs at hnone ⊢
    · rw [hnone] at hactive
      cases hactive
    · exact h.idle k hnone
  · rw [heq]
    have hledger := h.join hfits marks
    have hphase : ((a.join item marks).queue item.key).phase = none := by
      rw [a.queue_join, if_pos rfl]
      exact hidle
    refine pump hphase (fun k => ?_) (fun k hk hnone => ?_) refused
    · split_ifs with hk
      · rw [hk]
        exact hledger k
      · exact hledger k
    · rw [a.queue_join, if_neg hk] at hnone ⊢
      exact h.idle k hnone

theorem step (h : Accounted max a) (input : InputStep) : Accounted max (a.step max input) := by
  cases input with
  | write request snapshot refused =>
    rcases a.write_cases max request snapshot refused with heq | ⟨item, -, heq⟩
    · rw [InputAdapter.step, heq]
      exact h
    · rw [InputAdapter.step, heq]
      exact h.enqueue item refused
  | completed key outcome refused => exact h.completed key outcome refused

end Accounted

structure Marked (accepted : List QueuedWrite) (marks : Table.Of Str ℕ) : Prop where
  promises : accepted.map QueuedWrite.promise = List.range accepted.length
  marked : ∀ w ∈ accepted, ∀ s ∈ w.sequence, ∃ mark, marks[w.sequenceKey]? = some mark ∧ s ≤ mark
  increasing : accepted.Pairwise fun v w => v.sequenceKey = w.sequenceKey →
    ∀ s ∈ v.sequence, ∀ t ∈ w.sequence, s < t

theorem checkSequence_ok {a : InputAdapter} {key : Str} {sequence : Option ℕ}
    {marks : Table.Of Str ℕ} (h : a.checkSequence key sequence = .ok marks) :
    sequence = none ∧ marks = a.lastSequences ∨ ∃ s, sequence = some s ∧
      marks = a.lastSequences.insert key s ∧ ∀ mark ∈ a.lastSequences[key]?, mark < s := by
  rw [InputAdapter.checkSequence.eq_def] at h
  rcases sequence with _ | s
  · cases h
    exact .inl ⟨rfl, rfl⟩
  · rcases hmark : a.lastSequences[key]? with _ | mark
    · simp only [hmark] at h
      cases h
      exact .inr ⟨s, rfl, rfl, fun mark hm => by cases hm⟩
    · simp only [hmark] at h
      split_ifs at h with hstale
      cases h
      refine .inr ⟨s, rfl, rfl, ?_⟩
      intro mark' hm
      cases hm
      exact not_le.mp hstale

namespace Marked

theorem initial : Marked [] ∅ where
  promises := rfl
  marked w hw := by cases hw
  increasing := List.Pairwise.nil

theorem append {a : InputAdapter} (h : Marked a.accepted a.lastSequences) {item : QueuedWrite}
    (hpromise : item.promise = a.accepted.length) {marks : Table.Of Str ℕ}
    (hmarks : a.checkSequence item.sequenceKey item.sequence = .ok marks) :
    Marked (a.accepted ++ [item]) marks := by
  have hcheck := checkSequence_ok hmarks
  constructor
  case promises =>
    rw [List.map_append, h.promises, List.length_append, List.map_singleton, hpromise]
    exact List.range_succ.symm
  case marked =>
    intro w hw s hs
    rcases List.mem_append.mp hw with hw | hw
    · obtain ⟨mark, hmark, hle⟩ := h.marked w hw s hs
      rcases hcheck with ⟨-, rfl⟩ | ⟨t, -, rfl, hless⟩
      · exact ⟨mark, hmark, hle⟩
      · rw [Table.get_insert]
        by_cases hsame : item.sequenceKey = w.sequenceKey
        · have hlt := hless mark (by rw [hsame]; exact hmark)
          exact ⟨t, if_pos hsame, by omega⟩
        · exact ⟨mark, (if_neg hsame).trans hmark, hle⟩
    · rw [List.mem_singleton.mp hw] at hs ⊢
      rcases hcheck with ⟨hnone, -⟩ | ⟨t, hsome, rfl, -⟩
      · rw [hnone] at hs
        cases hs
      · rw [hsome] at hs
        cases hs
        exact ⟨s, Std.ExtTreeMap.getElem?_insert_self, le_refl s⟩
  case increasing =>
    refine List.pairwise_append.mpr ⟨h.increasing, List.pairwise_singleton _ _, ?_⟩
    intro v hv w hw hsame s hs t ht
    rw [List.mem_singleton.mp hw] at hsame ht
    rcases hcheck with ⟨hnone, -⟩ | ⟨u, hsome, -, hless⟩
    · rw [hnone] at ht
      cases ht
    · rw [hsome] at ht
      cases ht
      obtain ⟨mark, hmark, hle⟩ := h.marked v hv s hs
      rw [hsame] at hmark
      have hlt := hless mark hmark
      omega

end Marked

theorem pump_kept (a : InputAdapter) (key : Str) (queue : InputQueue) (refused : Option Thrown) :
    (a.pump key queue refused).accepted = a.accepted ∧
      (a.pump key queue refused).lastSequences = a.lastSequences ∧
      (a.pump key queue refused).settled = a.settled := by
  rw [InputAdapter.pump]
  rcases queue.items with _ | ⟨item, items⟩
  · exact ⟨rfl, rfl, rfl⟩
  · exact ⟨rfl, rfl, rfl⟩

theorem completed_kept (a : InputAdapter) (key : Str) (outcome : Except Thrown Unit)
    (refused : Option Thrown) : (a.completed key outcome refused).accepted = a.accepted ∧
      (a.completed key outcome refused).lastSequences = a.lastSequences := by
  have hsettle : ∀ item result,
      (a.settle key (a.queue key) item result refused).accepted = a.accepted ∧
        (a.settle key (a.queue key) item result refused).lastSequences = a.lastSequences := by
    intro item result
    obtain ⟨haccepted, hmarks, -⟩ := pump_kept { a with settled := a.settled ++ [(item, result)] }
      key ⟨(a.queue key).items, (a.queue key).pendingBytes - item.bytes.length, none⟩ refused
    exact ⟨haccepted, hmarks⟩
  rw [InputAdapter.completed]
  rcases (a.queue key).phase with _ | ⟨item, failure⟩ | item
  · exact ⟨rfl, rfl⟩
  · rcases failure with _ | error
    · cases outcome with
      | error error => exact hsettle item _
      | ok => exact ⟨rfl, rfl⟩
    · exact hsettle item _
  · exact hsettle item _

theorem step_accepts (max : ℕ) (a : InputAdapter) (input : InputStep) :
    (a.step max input).accepted = a.accepted ∧
        (a.step max input).lastSequences = a.lastSequences ∨
    ∃ item : QueuedWrite, item.promise = a.accepted.length ∧
      (a.step max input).accepted = a.accepted ++ [item] ∧
      a.checkSequence item.sequenceKey item.sequence = .ok (a.step max input).lastSequences := by
  cases input with
  | write request snapshot refused =>
    rw [InputAdapter.step]
    rcases a.write_cases max request snapshot refused with heq | ⟨item, hpromise, heq⟩
    · rw [heq]
      exact .inl ⟨rfl, rfl⟩
    · rw [heq]
      rcases a.enqueue_cases max item refused with
        heq | ⟨marks, hmarks, -, ⟨-, heq⟩ | ⟨-, heq⟩⟩
      · rw [heq]
        exact .inl ⟨rfl, rfl⟩
      · rw [heq]
        exact .inr ⟨item, hpromise, rfl, hmarks⟩
      · rw [heq]
        obtain ⟨haccepted, hlast, -⟩ := pump_kept (a.join item marks) item.key
          ((a.join item marks).queue item.key) refused
        rw [haccepted, hlast]
        exact .inr ⟨item, hpromise, rfl, hmarks⟩
  | completed key outcome refused => exact .inl (completed_kept a key outcome refused)

theorem marked_step {a : InputAdapter} (h : Marked a.accepted a.lastSequences) (max : ℕ)
    (input : InputStep) :
    Marked (a.step max input).accepted (a.step max input).lastSequences := by
  rcases step_accepts max a input with ⟨haccepted, hlast⟩ | ⟨item, hpromise, haccepted, hmarks⟩
  · rw [haccepted, hlast]
    exact h
  · rw [haccepted]
    exact h.append hpromise hmarks

theorem acceptedOf_step (max : ℕ) (a : InputAdapter) (input : InputStep) (key : Str) :
    a.acceptedOf key <+: (a.step max input).acceptedOf key := by
  rw [InputAdapter.acceptedOf, InputAdapter.acceptedOf]
  rcases step_accepts max a input with ⟨haccepted, -⟩ | ⟨item, -, haccepted, -⟩
  · rw [haccepted]
  · rw [haccepted, ofKey_append]
    exact List.prefix_append _ _

def InputQueue.observing (queue : InputQueue) : ℕ :=
  match queue.phase with
  | some (.observing _) => 1
  | _ => 0

/-- Two for a settled write of the session, one for a write that reached the observer. -/
def InputAdapter.progress (a : InputAdapter) (key : Str) : ℕ :=
  2 * (a.settledOf key).length + (a.queue key).observing

def completes (key : Str) : InputStep → Bool
  | .completed k _ _ => k = key
  | .write .. => false

theorem observing_pumped (queue : InputQueue) (refused : Option Thrown) :
    (InputAdapter.pumped queue refused).observing = 0 := by
  rw [InputAdapter.pumped]
  rcases queue.items with _ | ⟨item, items⟩
  · rfl
  · rfl

theorem observing_le (queue : InputQueue) : queue.observing ≤ 1 := by
  rw [InputQueue.observing]
  split
  · exact le_refl 1
  · exact Nat.zero_le 1

theorem progress_pump (a : InputAdapter) (key other : Str) (queue : InputQueue)
    (refused : Option Thrown) : (a.pump key queue refused).progress other =
      if key = other then 2 * (a.settledOf other).length else a.progress other := by
  obtain ⟨-, -, hsettled⟩ := pump_kept a key queue refused
  rw [InputAdapter.progress, a.queue_pump, InputAdapter.settledOf, hsettled]
  split_ifs
  · rw [observing_pumped]
    rfl
  · rfl

theorem progress_settle {max : ℕ} {a : InputAdapter} (h : Accounted max a) {key : Str}
    {item : QueuedWrite} (hitem : (a.queue key).inFlight = [item])
    (outcome : Except Thrown TerminalInputSourceResult) (refused : Option Thrown) (other : Str) :
    (a.settle key (a.queue key) item outcome refused).progress other =
      if key = other then 2 * ((a.settledOf key).length + 1) else a.progress other := by
  have hown := h.inFlight_own hitem
  rw [InputAdapter.settle, progress_pump]
  have hsettled : InputAdapter.settledOf { a with settled := a.settled ++ [(item, outcome)] } other =
      a.settledOf other ++ ofKey other [item] := by
    rw [InputAdapter.settledOf, List.map_append, ofKey_append]
    rfl
  split_ifs with hk
  · subst hk
    rw [hsettled, ofKey_own hown, List.length_append, List.length_singleton]
  · rw [InputAdapter.progress, hsettled, ofKey_other (fun heq => hk (hown.symm.trans heq)),
      List.append_nil]
    rfl

theorem progress_observe (a : InputAdapter) {key : Str} {item : QueuedWrite}
    (hphase : (a.queue key).phase = some (.writing item none)) (other : Str) :
    InputAdapter.progress { a with
      queues := a.queues.insert key { a.queue key with phase := some (.observing item) } } other =
      a.progress other + if key = other then 1 else 0 := by
  rw [InputAdapter.progress, InputAdapter.queue_replaced]
  split_ifs with hk
  · subst hk
    rw [InputAdapter.progress, InputQueue.observing, InputQueue.observing, hphase]
    rfl
  · rfl

theorem progress_completed {max : ℕ} {a : InputAdapter} (h : Accounted max a) (key : Str)
    (outcome : Except Thrown Unit) (refused : Option Thrown) (other : Str) :
    a.progress other ≤ (a.completed key outcome refused).progress other ∧
      (key = other → a.progress other + 1 ≤ (a.completed key outcome refused).progress other ∨
        a.settledOf key = a.acceptedOf key) := by
  have hsettle : ∀ item result, (a.queue key).inFlight = [item] → a.progress other + (if key = other then 1 else 0) ≤
      (a.settle key (a.queue key) item result refused).progress other := by
    intro item result hitem
    rw [progress_settle h hitem]
    have hle := observing_le (a.queue other)
    split_ifs with hk
    · subst hk
      rw [InputAdapter.progress]
      omega
    · exact le_refl _
  have hforward : ∀ item result, (a.queue key).inFlight = [item] →
      a.progress other ≤ (a.settle key (a.queue key) item result refused).progress other ∧
      (key = other → a.progress other + 1 ≤
          (a.settle key (a.queue key) item result refused).progress other ∨
        a.settledOf key = a.acceptedOf key) := by
    intro item result hitem
    have hmoved := hsettle item result hitem
    refine ⟨by omega, ?_⟩
    intro hk
    rw [if_pos hk] at hmoved
    exact .inl hmoved
  rw [InputAdapter.completed]
  rcases hphase : (a.queue key).phase with _ | ⟨item, failure⟩ | item
  · refine ⟨le_refl _, fun _ => .inr ?_⟩
    have hflight : (a.queue key).inFlight = [] := by rw [InputQueue.inFlight, hphase]
    rw [(h.ledger key).order, (h.ledger key).whole, h.idle key hphase, hflight, List.append_nil,
      List.append_nil]
  · have hitem : (a.queue key).inFlight = [item] := by rw [InputQueue.inFlight, hphase]
    rcases failure with _ | error
    · cases outcome with
      | error error => exact hforward item _ hitem
      | ok =>
        have hobserved := progress_observe a hphase other
        dsimp only
        rw [hobserved]
        refine ⟨Nat.le_add_right _ _, ?_⟩
        intro hk
        rw [if_pos hk]
        exact .inl (le_refl _)
    · exact hforward item _ hitem
  · have hitem : (a.queue key).inFlight = [item] := by rw [InputQueue.inFlight, hphase]
    exact hforward item _ hitem

theorem progress_enqueue (max : ℕ) (a : InputAdapter) (item : QueuedWrite)
    (refused : Option Thrown) (key : Str) :
    a.progress key ≤ (a.enqueue max item refused).2.progress key := by
  have hjoin : ∀ marks, (a.join item marks).progress key = a.progress key := by
    intro marks
    rw [InputAdapter.progress, InputAdapter.queue_join]
    split_ifs with hk
    · subst hk
      rfl
    · rfl
  rcases a.enqueue_cases max item refused with
    heq | ⟨marks, -, -, ⟨-, heq⟩ | ⟨hidle, heq⟩⟩
  · have hcreated : InputAdapter.progress
        { a with queues := a.queues.insert item.key (a.queue item.key) } key = a.progress key := by
      rw [InputAdapter.progress, InputAdapter.queue_replaced]
      split_ifs with hk
      · rw [← hk]
        rfl
      · rfl
    rw [heq, hcreated]
  · rw [heq, hjoin]
  · rw [heq, progress_pump]
    split_ifs with hk
    · subst hk
      rw [InputAdapter.progress, InputQueue.observing, hidle]
      exact le_refl _
    · rw [hjoin]

theorem progress_step {max : ℕ} {a : InputAdapter} (h : Accounted max a) (input : InputStep)
    (key : Str) : a.progress key ≤ (a.step max input).progress key := by
  cases input with
  | write request snapshot refused =>
    rw [InputAdapter.step]
    rcases a.write_cases max request snapshot refused with heq | ⟨item, -, heq⟩
    · rw [heq]
    · rw [heq]
      exact progress_enqueue max a item refused key
  | completed k outcome refused => exact (progress_completed h k outcome refused key).1

theorem progress_runs {max : ℕ} {a : InputAdapter} (h : Accounted max a) (inputs : List InputStep)
    {key : Str} {n : ℕ} (hn : n ≤ (a.acceptedOf key).length) :
    2 * n ≤ (Runs.after (InputAdapter.step max) a inputs).progress key ∨
      a.progress key + (inputs.filter (completes key)).length ≤
        (Runs.after (InputAdapter.step max) a inputs).progress key := by
  induction inputs generalizing a with
  | nil => exact .inr (le_refl _)
  | cons input inputs ih =>
    have hstep := progress_step h input key
    have hlonger := (acceptedOf_step max a input key).length_le
    have hafter : Runs.after (InputAdapter.step max) a (input :: inputs) =
        Runs.after (InputAdapter.step max) (a.step max input) inputs := rfl
    rw [hafter]
    rcases ih (h.step input) (hn.trans hlonger) with hdone | hmoved
    · exact .inl hdone
    · rw [List.filter_cons]
      split_ifs with hcompletes
      · cases input with
        | write request snapshot refused => cases hcompletes
        | completed k outcome refused =>
          have hk : k = key := of_decide_eq_true hcompletes
          rcases (progress_completed h k outcome refused key).2 hk with hforward | hall
          · rw [List.length_cons]
            have hstep' : a.progress key + 1 ≤
                (a.step max (.completed k outcome refused)).progress key := hforward
            omega
          · rw [hk] at hall
            have hprogress : 2 * (a.acceptedOf key).length ≤ a.progress key := by
              rw [InputAdapter.progress, hall]
              omega
            omega
      · omega

/-- Enough completions settle every write of the session that was accepted before them. -/
theorem settled_after {max : ℕ} {a : InputAdapter} (h : Accounted max a) {inputs : List InputStep}
    {key : Str} (henough : 2 * ((a.acceptedOf key).length - (a.settledOf key).length) ≤
      (inputs.filter (completes key)).length) :
    a.acceptedOf key <+: (Runs.after (InputAdapter.step max) a inputs).settledOf key := by
  have hafter : Accounted max (Runs.after (InputAdapter.step max) a inputs) :=
    Runs.invariant (fun _ input hs => hs.step input) h inputs
  have hgrown : a.acceptedOf key <+: (Runs.after (InputAdapter.step max) a inputs).acceptedOf key :=
    Runs.invariant (I := fun b : InputAdapter => a.acceptedOf key <+: b.acceptedOf key)
      (fun b input hb => hb.trans (acceptedOf_step max b input key)) (List.prefix_refl _) inputs
  have hsettled : (Runs.after (InputAdapter.step max) a inputs).settledOf key <+:
      (Runs.after (InputAdapter.step max) a inputs).acceptedOf key := by
    rw [(hafter.ledger key).order, (hafter.ledger key).whole, List.append_assoc]
    exact List.prefix_append _ _
  refine List.prefix_of_prefix_length_le hgrown hsettled ?_
  have hcount := progress_runs h inputs (le_refl (a.acceptedOf key).length)
  have hobserving := observing_le ((Runs.after (InputAdapter.step max) a inputs).queue key)
  simp only [InputAdapter.progress] at hcount
  omega

theorem received_handed (a : InputAdapter) (key : Str) : (a.receivedOf key).Sublist (a.handedOf key) :=
  ((List.filter_sublist).map Prod.fst).filter _

theorem inFlight_le_one (queue : InputQueue) : queue.inFlight.length ≤ 1 := by
  rw [InputQueue.inFlight]
  split
  · exact Nat.zero_le 1
  · exact le_refl 1
  · exact le_refl 1

def console : TerminalIdentity := ⟨js "srv", js "p", js "s1"⟩

def typed (text : String) (sequence : ℚ) : InputStep :=
  .write ⟨console, js "x", .keyboard, .text (js text), none, some sequence⟩
    (some ⟨console, .running, ⟨80, 24⟩⟩) none

def completion (outcome : Except Thrown Unit) : InputStep :=
  .completed (sessionKey console) outcome none

def twoWrites : List InputStep := [typed "ls" 1, typed "cd" 2]

def bothSettle : List InputStep :=
  [completion (.error (sessionNotFound console)), completion (.ok ()), completion (.ok ()),
    completion (.ok ())]

end Terminay.Terminal
