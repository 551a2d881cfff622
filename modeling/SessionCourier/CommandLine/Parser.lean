import SessionCourier.CommandLine.Argument
import SessionCourier.CommandLine.Invocation
import SessionCourier.CommandLine.Similar
import SessionCourier.CommandLine.Usage

set_option autoImplicit false

/-!
# Reading the command line

Words are read one after the other. An option that takes a value has it after an equals sign or in
the next word; it is settled, and its value checked, when the next option comes or the words end. A
word that cannot be placed is refused at once, before an option that is still open. The words after
the command are read before an option in front of it is settled.
-/

namespace SessionCourier.CommandLine

inductive Setting where
  | logLevel (level : Log.Level)
  | jsonLogs
  | listen (address : String)
  | rejectSession (handle : Handle)
  | config (path : String)
  | session (handle : Handle) (address : Address)
  | grant (handle : Handle) (resource : Resource)
  | revoke (handle : Handle) (resource : Resource)
  | force
  | deadNode (handle : Handle) (node : String)
  | nodeName (name : String)
  | nodeAddress (address : Address)
  | waitSecs (seconds : UInt64)
  deriving DecidableEq

namespace Setting

def key : Setting → Key
  | .logLevel _ => .logLevel
  | .jsonLogs => .jsonLogs
  | .listen _ => .listen
  | .rejectSession _ => .rejectSession
  | .config _ => .config
  | .session .. => .session
  | .grant .. => .grant
  | .revoke .. => .revoke
  | .force => .force
  | .deadNode .. => .deadNode
  | .nodeName _ => .nodeName
  | .nodeAddress _ => .nodeAddress
  | .waitSecs _ => .waitSecs

end Setting

/-- A level is named, in small letters or capitals, or given as a number from one to five. -/
def level? (text : String) : Option Log.Level :=
  match Decimal.read (UInt64.size - 1) text.toList with
  | .ok (n + 1) => Log.Level.all[n]?
  | .ok 0 => none
  | .error _ => Log.Level.all.find? (·.label = Resource.lower text)

def levelReason : String :=
  "error parsing level: expected one of \"error\", \"warn\", \"info\", \"debug\", \"trace\", " ++
    "or a number 1-5"

def Key.read (k : Key) (value : String) : Except UsageError Setting :=
  let bad {α : Type} (reason : String) : Except UsageError α := .error (.badValue value k reason)
  let parsed {α : Type} (r : Except Argument.Refusal α) (f : α → Setting) : Except UsageError Setting :=
    match r with
    | .ok a => .ok (f a)
    | .error refusal => bad refusal.message
  match k with
  | .logLevel =>
    match level? value with
    | some l => .ok (.logLevel l)
    | none => bad levelReason
  | .listen => .ok (.listen value)
  | .rejectSession => parsed (Argument.handle value.toList) .rejectSession
  | .config => if value = "" then .error (.noValue k) else .ok (.config value)
  | .session => parsed (Argument.session value) fun s => .session s.1 s.2
  | .grant => parsed (Argument.resource value) fun r => .grant r.1 r.2
  | .revoke => parsed (Argument.resource value) fun r => .revoke r.1 r.2
  | .deadNode => parsed (Argument.deadNode value) fun d => .deadNode d.1 d.2
  | .nodeName => .ok (.nodeName value)
  | .nodeAddress =>
    match Address.parse value with
    | .ok a => .ok (.nodeAddress a)
    | .error refusal => bad refusal.message
  | .waitSecs =>
    match Decimal.read (UInt64.size - 1) value.toList with
    | .ok n => .ok (.waitSecs (UInt64.ofNat n))
    | .error refusal => bad refusal.message
  | .jsonLogs => .ok .jsonLogs
  | .force => .ok .force
  | .help => .error (.help .top)

/-- What has been read of a page: settings in order, and an option that is not settled yet with the
value that has been read for it. -/
structure Reading where
  settings : List Setting
  pending : Option (Key × Option String)

namespace Reading

def start : Reading := ⟨[], none⟩

def isOpen (r : Reading) : Bool :=
  match r.pending with
  | some (_, none) => true
  | _ => false

/-- Adds an option, unless it is there already and must not be repeated. -/
def add (r : Reading) (k : Key) (value : String) : Except UsageError Reading :=
  if !k.isRepeatable && r.settings.any (·.key = k) then .error (.repeated k)
  else do
    let s ← k.read value
    return { r with settings := r.settings ++ [s] }

def settle (r : Reading) : Except UsageError Reading :=
  match r.pending with
  | none => .ok r
  | some (k, none) => .error (.noValue k)
  | some (k, some value) => { r with pending := none }.add k value

def flag (p : Page) (r : Reading) (k : Key) : Except UsageError Reading := do
  let r ← r.settle
  if k = .help then .error (.help p) else r.add k ""

end Reading

/-- A word that begins with two hyphens, cut at its first equals sign. -/
def long? (word : String) : Option (String × Option String) :=
  match word.toList with
  | '-' :: '-' :: rest =>
    match Text.splitFirst? '=' rest with
    | none => some (String.ofList rest, none)
    | some (name, value) => some (String.ofList name, some (String.ofList value))
  | _ => none

def short? (word : String) : Option Char :=
  match word.toList with
  | '-' :: '-' :: _ => none
  | '-' :: c :: _ => some c
  | _ => none

def quoted (words : List String) : String :=
  ", ".intercalate (words.map fun w => "'" ++ w ++ "'")

def optionTips (p : Page) (name : String) (rest : List String) : List String :=
  match (Similar.candidates name (p.keys.map Key.name)).getLast? with
  | some found => ["a similar argument exists: '--" ++ found ++ "'"]
  | none =>
    let later := p.verbs.filterMap fun v => do
      let found ← (Similar.candidates name ((Page.of v).keys.map Key.name)).getLast?
      let place ← rest.idxOf? v.name
      return (place, "'" ++ v.name ++ " --" ++ found ++ "' exists")
    match later.mergeSort fun a b => a.1 ≤ b.1 with
    | [] => []
    | first :: _ => [first.2]

def commandTips (p : Page) (word : String) : List String :=
  match Similar.candidates word (p.verbs.map Verb.name) with
  | [] => []
  | [one] => ["a similar subcommand exists: " ++ quoted [one]]
  | many => ["some similar subcommands exist: " ++ quoted many]

def misplaced (p : Page) (word : String) : UsageError :=
  if p.verbs.isEmpty then .unknownArgument word [] else .unknownCommand word (commandTips p word)

def misplacedAfter (p : Page) (word : String) : UsageError :=
  if (p.verb? word).isSome then
    .unknownArgument word
      ["subcommand '" ++ word ++ "' exists; to use it, remove the '--' before it"]
  else misplaced p word

def readWords (p : Page) (r : Reading) :
    List String → Except UsageError (Reading × Option (Verb × List String))
  | [] => .ok (r, none)
  | word :: rest =>
    match if r.isOpen then none else p.verb? word with
    | some verb => .ok (r, some (verb, rest))
    | none =>
      if word = "--" then
        match rest with
        | [] => .ok (r, none)
        | next :: _ => .error (misplacedAfter p next)
      else
        match long? word with
        | some (name, value) =>
          match p.key? name with
          | none => .error (.unknownArgument ("--" ++ name) (optionTips p name rest))
          | some k =>
            match k.placeholder?, value with
            | none, some value => .error (.unneededValue value k)
            | none, none =>
              match r.flag p k with
              | .error e => .error e
              | .ok r => readWords p r rest
            | some _, some value =>
              match r.settle >>= (·.add k value) with
              | .error e => .error e
              | .ok r => readWords p r rest
            | some _, none =>
              match r.settle with
              | .error e => .error e
              | .ok r => readWords p { r with pending := some (k, none) } rest
        | none =>
          match short? word with
          | some c =>
            if c = 'h' then
              match r.flag p .help with
              | .error e => .error e
              | .ok r => readWords p r rest
            else .error (.unknownArgument ("-" ++ String.singleton c) [])
          | none =>
            match r.pending with
            | some (k, none) => readWords p { r with pending := some (k, some word) } rest
            | _ => .error (misplaced p word)

def readCommand (p : Page) (words : List String) : Except UsageError (List Setting) := do
  let (r, _) ← readWords p .start words
  return (← r.settle).settings

def readHelp : List String → UsageError
  | [] => .help .top
  | word :: rest =>
    match Verb.ofName? word, rest with
    | none, _ => .unknownCommand word []
    | some v, [] => .help (.of v)
    | some _, next :: _ => .unknownCommand next []

namespace Setting

def logLevel? : Setting → Option Log.Level
  | .logLevel l => some l
  | _ => none

def listen? : Setting → Option String
  | .listen a => some a
  | _ => none

def rejectSession? : Setting → Option Handle
  | .rejectSession h => some h
  | _ => none

def config? : Setting → Option String
  | .config path => some path
  | _ => none

def session? : Setting → Option (Handle × Address)
  | .session h a => some (h, a)
  | _ => none

def grant? : Setting → Option (Handle × Resource)
  | .grant h r => some (h, r)
  | _ => none

def revoke? : Setting → Option (Handle × Resource)
  | .revoke h r => some (h, r)
  | _ => none

def deadNode? : Setting → Option (Handle × String)
  | .deadNode h n => some (h, n)
  | _ => none

def nodeName? : Setting → Option String
  | .nodeName n => some n
  | _ => none

def nodeAddress? : Setting → Option Address
  | .nodeAddress a => some a
  | _ => none

def waitSecs? : Setting → Option UInt64
  | .waitSecs n => some n
  | _ => none

end Setting

def serveOf (settings : List Setting) : Serve where
  listen := (settings.findSome? (·.listen?)).getD Default.listen
  rejected := settings.filterMap (·.rejectSession?)

def notifyOf (settings : List Setting) : Notify where
  config := (settings.findSome? (·.config?)).getD Default.config
  sessions := settings.filterMap (·.session?)
  grants := settings.filterMap (·.grant?)
  revokes := settings.filterMap (·.revoke?)
  force := settings.contains .force
  deadNodes := settings.filterMap (·.deadNode?)
  nodeName := (settings.findSome? (·.nodeName?)).getD Default.nodeName
  nodeAddress := (settings.findSome? (·.nodeAddress?)).getD Default.nodeAddress
  waitSeconds := (settings.findSome? (·.waitSecs?)).getD Default.waitSeconds

/-- Options of the first page may also stand after the command, and count there before all. -/
def invocationOf (before after : List Setting) (command : Command) : Invocation where
  logLevel := ((after ++ before).findSome? (·.logLevel?)).getD Default.logLevel
  jsonLogs := (after ++ before).contains .jsonLogs
  command := command

def parse (words : List String) : Except UsageError Invocation := do
  match ← readWords .top .start words with
  | (_, some (.help, rest)) => .error (readHelp rest)
  | (r, some (.driver, rest)) =>
    let after ← readCommand (.of .driver) rest
    return invocationOf (← r.settle).settings after (.serve (serveOf after))
  | (r, some (.notify, rest)) =>
    let after ← readCommand (.of .notify) rest
    return invocationOf (← r.settle).settings after (.notify (notifyOf after))
  | (r, none) =>
    if (← r.settle).settings.isEmpty then .error .nothing else .error .noCommand

end SessionCourier.CommandLine
