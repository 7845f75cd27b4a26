import Terminay.Lib.Runs
import Terminay.Terminal.Identity

/-!
# The presentation lease authority

One attachment at a time holds the interactive presentation of a terminal. Every
call drops an expired lease first and publishes that; `now` is the clock when the
call starts and `later` when it reads the clock again. Revisions count the
publications of a session until the session is forgotten.
-/

namespace Terminay.Terminal
open Script

inductive LeaseMode where | acquire | renew | takeover | release | revoke
  deriving DecidableEq

structure LeaseIdentity extends TerminalIdentity where
  clientId : Str
  attachmentId : Str
  deriving DecidableEq

structure MutableLease where
  identity : LeaseIdentity
  leaseExpiresAt : ℤ
  deriving DecidableEq

structure LeaseHolder where
  clientId : Str
  attachmentId : Str
  leaseExpiresAt : ℤ
  deriving DecidableEq

structure LeaseState where
  identity : TerminalIdentity
  revision : ℕ
  holder : Option LeaseHolder
  deriving DecidableEq

structure LeaseOptions where
  leaseMs : ℤ
  maxLeaseMs : ℤ

/-- The two maps, and what `onChanged` was told so far. -/
structure LeaseAuthority where
  leases : Table.Of Str MutableLease
  revisions : Table.Of Str ℕ
  published : List (LeaseState × LeaseMode)

def freezeState (identity : TerminalIdentity) (revision : ℕ) (lease : Option MutableLease) :
    LeaseState :=
  ⟨identity, revision,
    lease.map fun l => ⟨l.identity.clientId, l.identity.attachmentId, l.leaseExpiresAt⟩⟩

def sameHolder (left right : LeaseIdentity) : Bool := left = right

def anotherHolder (lease : MutableLease) : Thrown :=
  forbidden "terminal presentation is controlled by another attachment"
    [("reason", .text (js "presentation_owner")), ("actual", .text lease.identity.clientId)]

def readOnly : Thrown :=
  forbidden "terminal presentation is read-only" [("reason", .text (js "presentation_owner"))]

def revocationDenied : Thrown :=
  forbidden "terminal presentation revocation requires admin access"
    [("reason", .text (js "presentation_admin"))]

namespace LeaseAuthority

def initial : LeaseAuthority := ⟨∅, ∅, []⟩

def revision (a : LeaseAuthority) (key : Str) : ℕ := a.revisions[key]?.getD 0

def commit (a : LeaseAuthority) (key : Str) (identity : TerminalIdentity)
    (lease : Option MutableLease) (action : LeaseMode) : LeaseAuthority where
  leases := match lease with
    | none => a.leases.erase key
    | some lease => a.leases.insert key lease
  revisions := a.revisions.insert key (a.revision key + 1)
  published := a.published ++ [(freezeState identity (a.revision key + 1) lease, action)]

def current (a : LeaseAuthority) (key : Str) (now : ℤ) : Option MutableLease × LeaseAuthority :=
  match a.leases[key]? with
  | none => (none, a)
  | some lease =>
    if lease.leaseExpiresAt ≤ now then
      (none, a.commit key lease.identity.toTerminalIdentity none .release)
    else (some lease, a)

abbrev Answer (α : Type) := Except Thrown α × LeaseAuthority

def state (a : LeaseAuthority) (identity : TerminalIdentity) (now : ℤ) : Answer LeaseState :=
  let current := a.current (sessionKey identity) now
  (.ok (freezeState identity (current.2.revision (sessionKey identity)) current.1), current.2)

def committed (a : LeaseAuthority) (identity : LeaseIdentity) (lease : Option MutableLease)
    (mode : LeaseMode) : Answer LeaseState :=
  let key := sessionKey identity.toTerminalIdentity
  (.ok (freezeState identity.toTerminalIdentity (a.revision key + 1) lease),
    a.commit key identity.toTerminalIdentity lease mode)

def contested (mode : LeaseMode) (current : Option MutableLease) (identity : LeaseIdentity) :
    Option Thrown :=
  match current with
  | none => none
  | some lease =>
    if mode ≠ .takeover ∧ sameHolder lease.identity identity = false then some (anotherHolder lease)
    else none

def grant (options : LeaseOptions) (a : LeaseAuthority) (mode : LeaseMode) (identity : LeaseIdentity)
    (leaseMs : Option ℚ) (current : Option MutableLease) (later : ℤ) : Answer LeaseState :=
  match contested mode current identity with
  | some error => (.error error, a)
  | none =>
    match boundedPositive (leaseMs.getD options.leaseMs) options.maxLeaseMs
        "terminal presentation lease is out of bounds" with
    | .error error => (.error error, a)
    | .ok ms => a.committed identity (some ⟨identity, later + ms⟩) mode

def change (options : LeaseOptions) (a : LeaseAuthority) (mode : LeaseMode)
    (identity : LeaseIdentity) (leaseMs : Option ℚ) (admin : Bool) (now later : ℤ) :
    Answer LeaseState :=
  let current := a.current (sessionKey identity.toTerminalIdentity) now
  match mode with
  | .release =>
    match current.1 with
    | none => current.2.state identity.toTerminalIdentity later
    | some lease =>
      if sameHolder lease.identity identity then current.2.committed identity none mode
      else (.error (anotherHolder lease), current.2)
  | .revoke =>
    if admin = false then (.error revocationDenied, current.2)
    else
      match current.1 with
      | none => current.2.state identity.toTerminalIdentity later
      | some _ => current.2.committed identity none mode
  | .acquire | .renew | .takeover =>
    current.2.grant options mode identity leaseMs current.1 later

def assertHolder (a : LeaseAuthority) (identity : LeaseIdentity) (now later : ℤ) :
    Answer LeaseState :=
  let current := a.current (sessionKey identity.toTerminalIdentity) now
  match current.1 with
  | none => (.error readOnly, current.2)
  | some lease =>
    if sameHolder lease.identity identity then
      current.2.state identity.toTerminalIdentity later
    else (.error (anotherHolder lease), current.2)

def releaseAttachment (a : LeaseAuthority) (identity : LeaseIdentity) (now : ℤ) :
    Bool × LeaseAuthority :=
  let key := sessionKey identity.toTerminalIdentity
  let current := a.current key now
  match current.1 with
  | none => (false, current.2)
  | some lease =>
    if sameHolder lease.identity identity then
      (true, current.2.commit key identity.toTerminalIdentity none .release)
    else (false, current.2)

def releaseClient (a : LeaseAuthority) (identity : TerminalIdentity) (clientId : Str) (now : ℤ) :
    Bool × LeaseAuthority :=
  let current := a.current (sessionKey identity) now
  match current.1 with
  | none => (false, current.2)
  | some lease =>
    if lease.identity.clientId = clientId then
      (true, current.2.commit (sessionKey identity) identity none .release)
    else (false, current.2)

def releaseSession (a : LeaseAuthority) (identity : TerminalIdentity) : LeaseAuthority :=
  { a with
    leases := a.leases.erase (sessionKey identity)
    revisions := a.revisions.erase (sessionKey identity) }

end LeaseAuthority

inductive LeaseOp where
  | state (identity : TerminalIdentity)
  | change (mode : LeaseMode) (identity : LeaseIdentity) (leaseMs : Option ℚ) (admin : Bool)
  | assertHolder (identity : LeaseIdentity)
  | releaseAttachment (identity : LeaseIdentity)
  | releaseClient (identity : TerminalIdentity) (clientId : Str)
  | releaseSession (identity : TerminalIdentity)

structure LeaseCall where
  op : LeaseOp
  now : ℤ
  later : ℤ

namespace LeaseAuthority

def step (options : LeaseOptions) (a : LeaseAuthority) (call : LeaseCall) : LeaseAuthority :=
  match call.op with
  | .state identity => (a.state identity call.now).2
  | .change mode identity leaseMs admin =>
    (a.change options mode identity leaseMs admin call.now call.later).2
  | .assertHolder identity => (a.assertHolder identity call.now call.later).2
  | .releaseAttachment identity => (a.releaseAttachment identity call.now).2
  | .releaseClient identity clientId => (a.releaseClient identity clientId call.now).2
  | .releaseSession identity => a.releaseSession identity

end LeaseAuthority

end Terminay.Terminal
