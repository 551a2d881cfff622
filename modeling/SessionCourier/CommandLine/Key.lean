import SessionCourier.Log.Event
import SessionCourier.Session.Address

set_option autoImplicit false

namespace SessionCourier.CommandLine

inductive Key where
  | logLevel
  | jsonLogs
  | listen
  | rejectSession
  | config
  | session
  | grant
  | revoke
  | force
  | deadNode
  | nodeName
  | nodeAddress
  | waitSecs
  | help
  deriving DecidableEq, Repr

inductive Verb where
  | driver
  | notify
  | help
  deriving DecidableEq, Repr

inductive Page where
  | top
  | of (verb : Verb)
  deriving DecidableEq, Repr

namespace Default

def logLevel : Log.Level := .info

def listen : String := "127.0.0.1:7070"

def config : String := "notifier.json"

def nodeName : String := "node-1"

def nodeAddress : Address := ⟨"127.0.0.1", 50060⟩

def waitSeconds : UInt64 := 10

end Default

namespace Key

def name : Key → String
  | .logLevel => "log-level"
  | .jsonLogs => "json-logs"
  | .listen => "listen"
  | .rejectSession => "reject-session"
  | .config => "config"
  | .session => "session"
  | .grant => "grant"
  | .revoke => "revoke"
  | .force => "force"
  | .deadNode => "dead-node"
  | .nodeName => "node-name"
  | .nodeAddress => "node-address"
  | .waitSecs => "wait-secs"
  | .help => "help"

/-- What stands for the value in help and errors; an option without one takes no value. -/
def placeholder? : Key → Option String
  | .logLevel => some "LOG_LEVEL"
  | .listen => some "LISTEN"
  | .rejectSession => some "REJECT_SESSIONS"
  | .config => some "CONFIG"
  | .session => some "SESSIONS"
  | .grant => some "GRANTS"
  | .revoke => some "REVOKES"
  | .deadNode => some "DEAD_NODES"
  | .nodeName => some "NODE_NAME"
  | .nodeAddress => some "NODE_ADDRESS"
  | .waitSecs => some "WAIT_SECS"
  | .jsonLogs | .force | .help => none

def isRepeatable : Key → Bool
  | .rejectSession | .session | .grant | .revoke | .deadNode => true
  | _ => false

def default? : Key → Option String
  | .logLevel => some Default.logLevel.label
  | .listen => some Default.listen
  | .config => some Default.config
  | .nodeName => some Default.nodeName
  | .nodeAddress => some Default.nodeAddress.render
  | .waitSecs => some (Decimal.render Default.waitSeconds.toNat)
  | _ => none

def about : Key → String
  | .logLevel => "Default log level; RUST_LOG takes precedence"
  | .jsonLogs => "Emit logs as JSON lines"
  | .listen => "Address to listen on"
  | .rejectSession => "Reject every call for this session (repeatable)"
  | .config => "Notifier settings file (JSON). Missing file means defaults"
  | .session => "Known session and its driver address, `HANDLE=HOST:PORT` (repeatable)"
  | .grant => "Grant one resource, `HANDLE:TYPE` (repeatable)"
  | .revoke => "Revoke one resource, `HANDLE:TYPE` (repeatable)"
  | .force => "Revoke without letting running work finish"
  | .deadNode => "Report a dead node, `HANDLE:NODE` (repeatable)"
  | .nodeName => "Node the granted resources live on"
  | .nodeAddress => "Address of that node"
  | .waitSecs => "Give up waiting for delivery after this many seconds"
  | .help => "Print help"

def shown (k : Key) : String :=
  match k.placeholder? with
  | none => "--" ++ k.name
  | some p => "--" ++ k.name ++ " <" ++ p ++ ">"

end Key

namespace Verb

def name : Verb → String
  | .driver => "driver"
  | .notify => "notify"
  | .help => "help"

def all : List Verb := [.driver, .notify, .help]

def about : Verb → String
  | .driver => "Listen for notifications and log them"
  | .notify => "Send notifications to session drivers and wait for delivery"
  | .help => "Print this message or the help of the given subcommand(s)"

def ofName? (name : String) : Option Verb := all.find? (·.name = name)

end Verb

def program : String := "session-notifier"

namespace Page

def about : Page → String
  | .top => "Session notification dispatcher"
  | .of verb => verb.about

def keys : Page → List Key
  | .top => [.logLevel, .jsonLogs, .help]
  | .of .driver => [.listen, .logLevel, .jsonLogs, .rejectSession, .help]
  | .of .notify =>
    [.config, .logLevel, .jsonLogs, .session, .grant, .revoke, .force, .deadNode, .nodeName,
      .nodeAddress, .waitSecs, .help]
  | .of .help => []

def verbs : Page → List Verb
  | .top => Verb.all
  | .of _ => []

def key? (p : Page) (name : String) : Option Key := p.keys.find? (·.name = name)

def verb? (p : Page) (name : String) : Option Verb := p.verbs.find? (·.name = name)

def usage : Page → String
  | .top => program ++ " [OPTIONS] <COMMAND>"
  | .of .help => program ++ " help [COMMAND]..."
  | .of verb => program ++ " " ++ verb.name ++ " [OPTIONS]"

end Page

end SessionCourier.CommandLine
