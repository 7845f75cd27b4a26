import Mathlib.Data.List.Sort
import Terminay.Lib.Entries
import Terminay.Lib.Runs
import Terminay.Workspace.State

/-!
# Event subscriptions of a client

A frame for a subscription goes to its listeners, or waits for the first of them
within a bounded buffer. A resync notice empties the buffer and is kept for
listeners that come later.
-/

namespace Terminay.Client
open Script Workspace

def maxPreListenerEvents : ℕ := 1024

structure ClientEvent (ν : Type) where
  revision : ℕ
  cursor : Str
  event : Str
  payload : Json ν
  body : List UInt8

structure ClientSubscriptionResync (ν : Type) where
  revision : ℕ
  cursor : Str
  snapshot : Option (Json ν)

structure Arrival (ν : Type) where
  number : ℕ
  event : ClientEvent ν

/-- `arrivals` keeps the event frames; `sinceResync` counts those before the last notice and
`unheard` those that found no listener. `heard` and `noticed` are the calls of the listeners. -/
structure EventSubscription (ν : Type) where
  subscriptionId : ProtocolId
  returned : Bool
  listeners : List ℕ
  resyncListeners : List ℕ
  buffered : List (Arrival ν)
  overflow : Bool
  resync : Option (ClientSubscriptionResync ν)
  arrivals : List (Arrival ν)
  sinceResync : ℕ
  unheard : ℕ
  heard : List (ℕ × Arrival ν)
  noticed : List (ℕ × ClientSubscriptionResync ν)

variable {ν : Type}

namespace EventSubscription

def opened (subscriptionId : ProtocolId) : EventSubscription ν :=
  ⟨subscriptionId, false, [], [], [], false, none, [], 0, 0, [], []⟩

def event (s : EventSubscription ν) (e : ClientEvent ν) : EventSubscription ν :=
  let arrival : Arrival ν := ⟨s.arrivals.length, e⟩
  let counted := { s with arrivals := s.arrivals ++ [arrival] }
  if s.listeners = [] then
    if maxPreListenerEvents ≤ s.buffered.length then
      { counted with unheard := s.unheard + 1, overflow := true, buffered := [] }
    else { counted with unheard := s.unheard + 1, buffered := s.buffered ++ [arrival] }
  else { counted with heard := s.heard ++ s.listeners.map fun listener => (listener, arrival) }

def resynced (s : EventSubscription ν) (r : ClientSubscriptionResync ν) : EventSubscription ν :=
  { s with
    resync := some r
    buffered := []
    sinceResync := s.arrivals.length
    noticed := s.noticed ++ s.resyncListeners.map fun listener => (listener, r) }

def addListener (listeners : List ℕ) (listener : ℕ) : List ℕ :=
  if listener ∈ listeners then listeners else listeners ++ [listener]

def byRevision (arrivals : List (Arrival ν)) : List (Arrival ν) :=
  arrivals.insertionSort fun a b => a.event.revision ≤ b.event.revision

def onEvent (s : EventSubscription ν) (listener : ℕ) : EventSubscription ν :=
  if s.overflow = true then s
  else
    let added := { s with listeners := addListener s.listeners listener, buffered := [] }
    if s.resync.isNone then
      { added with heard := s.heard ++ (byRevision s.buffered).map fun a => (listener, a) }
    else added

def onResync (s : EventSubscription ν) (listener : ℕ) : EventSubscription ν :=
  { s with
    resyncListeners := addListener s.resyncListeners listener
    noticed := s.noticed ++ s.resync.toList.map fun r => (listener, r) }

end EventSubscription

structure Subscriptions (ν : Type) where
  routes : List (ProtocolId × ℕ)
  all : List (EventSubscription ν)

namespace Subscriptions

def modify (s : Subscriptions ν) (n : ℕ) (f : EventSubscription ν → EventSubscription ν) :
    Subscriptions ν :=
  { s with all := s.all.modify n f }

def subscribe (s : Subscriptions ν) (subscriptionId : ProtocolId) : Subscriptions ν :=
  ⟨Entries.set s.routes subscriptionId s.all.length, s.all ++ [.opened subscriptionId]⟩

def failed (s : Subscriptions ν) (n : ℕ) : Subscriptions ν :=
  match s.all[n]? with
  | some subscription => { s with routes := Entries.delete s.routes subscription.subscriptionId }
  | none => s

def deliver (s : Subscriptions ν) (subscriptionId : ProtocolId)
    (f : EventSubscription ν → EventSubscription ν) : Subscriptions ν :=
  match Entries.get s.routes subscriptionId with
  | some n => s.modify n f
  | none => s

def register (s : Subscriptions ν) (n : ℕ) (f : EventSubscription ν → EventSubscription ν) :
    Subscriptions ν :=
  s.modify n fun subscription => if subscription.returned then f subscription else subscription

end Subscriptions

inductive SubscriptionInput (ν : Type) where
  | subscribe (subscriptionId : ProtocolId)
  | subscribed (n : ℕ)
  | failed (n : ℕ)
  | event (subscriptionId : ProtocolId) (e : ClientEvent ν)
  | resync (subscriptionId : ProtocolId) (r : ClientSubscriptionResync ν)
  | onEvent (n listener : ℕ)
  | onResync (n listener : ℕ)
  | disconnected

def Subscriptions.step (s : Subscriptions ν) : SubscriptionInput ν → Subscriptions ν
  | .subscribe subscriptionId => s.subscribe subscriptionId
  | .subscribed n => s.modify n fun subscription => { subscription with returned := true }
  | .failed n => s.failed n
  | .event subscriptionId e => s.deliver subscriptionId fun subscription => subscription.event e
  | .resync subscriptionId r => s.deliver subscriptionId fun subscription => subscription.resynced r
  | .onEvent n listener => s.register n fun subscription => subscription.onEvent listener
  | .onResync n listener => s.register n fun subscription => subscription.onResync listener
  | .disconnected => { s with routes := [] }

def noSubscriptions : Subscriptions ν := ⟨[], []⟩

end Terminay.Client
