import SessionCourier.Log.Event
import SessionCourier.Notice.Basic
import SessionCourier.Session.Registry

set_option autoImplicit false

namespace SessionCourier.CommandLine

structure Serve where
  listen : String
  /-- Sessions whose calls are rejected. -/
  rejected : List Handle
  deriving DecidableEq

structure Notify where
  config : String
  sessions : List (Handle × Address)
  grants : List (Handle × Resource)
  revokes : List (Handle × Resource)
  force : Bool
  deadNodes : List (Handle × String)
  nodeName : String
  nodeAddress : Address
  waitSeconds : UInt64
  deriving DecidableEq

inductive Command where
  | serve (s : Serve)
  | notify (n : Notify)
  deriving DecidableEq

structure Invocation where
  logLevel : Log.Level
  jsonLogs : Bool
  command : Command
  deriving DecidableEq

namespace Notify

/-- A session that is given twice is where it was last given to be. -/
def registry (n : Notify) : Registry :=
  n.sessions.foldl (fun r s => r.register s.1 s.2) .empty

def grant (n : Notify) (id : Nat) (r : Resource) : Grant :=
  ⟨UInt32.ofNat id, r, n.nodeName, n.nodeAddress, none⟩

def grantNotices (n : Notify) : List Notice :=
  n.grants.mapIdx fun i g => .grant g.1 [n.grant (i + 1) g.2]

def revokeNotices (n : Notify) : List Notice :=
  n.revokes.mapIdx fun i r => .revoke r.1 [n.grant (n.grants.length + i + 1) r.2] n.force

def deadNodeNotices (n : Notify) : List Notice := n.deadNodes.map fun d => .deadNode d.1 d.2

def notices (n : Notify) : List Notice := n.grantNotices ++ n.revokeNotices ++ n.deadNodeNotices

end Notify

end SessionCourier.CommandLine
