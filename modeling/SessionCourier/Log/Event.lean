set_option autoImplicit false

namespace SessionCourier.Log

inductive Level where
  | error
  | warn
  | info
  | debug
  | trace
  deriving DecidableEq, Repr

namespace Level

def all : List Level := [.error, .warn, .info, .debug, .trace]

def label : Level → String
  | .error => "error"
  | .warn => "warn"
  | .info => "info"
  | .debug => "debug"
  | .trace => "trace"

def rank : Level → Nat
  | .error => 0
  | .warn => 1
  | .info => 2
  | .debug => 3
  | .trace => 4

/-- An event at this level is shown where events down to `limit` are. -/
def within (level limit : Level) : Bool := level.rank ≤ limit.rank

end Level

structure Event where
  level : Level
  message : String
  fields : List (String × String)
  deriving DecidableEq, Repr

namespace Event

def field? (e : Event) (name : String) : Option String := e.fields.lookup name

def session (e : Event) : String := (e.field? "session_id").getD ""

end Event

def containsChars (part : List Char) : List Char → Bool
  | [] => part.isEmpty
  | c :: cs => part.isPrefixOf (c :: cs) || containsChars part cs

def mentions (part : String) (e : Event) : Bool := containsChars part.toList e.message.toList

def hasEvent (log : List Event) (level : Level) (part : String) : Bool :=
  log.any fun e => e.level = level && mentions part e

def countAtLevel (log : List Event) (level : Level) : Nat :=
  log.countP fun e => e.level = level

def matching (log : List Event) (part : String) : List Event := log.filter (mentions part)

def atLeast (log : List Event) (limit : Level) : List Event := log.filter (·.level.within limit)

def bySession (log : List Event) : List Event :=
  log.mergeSort fun a b => !(b.session < a.session)

inductive Span where
  | worker
  | grant
  | revoke
  | deadNode
  | delete
  deriving DecidableEq, Repr

def Span.label : Span → String
  | .worker => "worker"
  | .grant => "notify_grant_resource"
  | .revoke => "notify_revoke_resource"
  | .deadNode => "notify_dead_node"
  | .delete => "delete_session"

/-- Which events are shown: a level for all, and other levels for some modules. -/
structure Filter where
  level : Level
  modules : List (String × Level)

def Filter.default : Filter := ⟨.info, []⟩

def Filter.directives (f : Filter) : String :=
  f.modules.foldl (fun text m => text ++ "," ++ m.1 ++ "=" ++ m.2.label) f.level.label

end SessionCourier.Log
