import SessionCourier.Log.Event
import SessionCourier.Settings.Basic

set_option autoImplicit false

/-!
# Loading settings

Settings come in layers. A field has the value of its environment variable if that is a number in
range, else the value in the settings file, else its default; the result is corrected. A variable
that is no usable number is reported and leaves the field alone. A file that is there but cannot be
read or decoded is an error.
-/

namespace SessionCourier.Settings

inductive File where
  | missing
  | unreadable (reason : String)
  | content (bytes : ByteArray)

def File.directory : File := .unreadable "Is a directory (os error 21)"

structure Environment where
  pollInterval : Option String
  threadCount : Option String

inductive LoadFailure where
  | unreadable (reason : String)
  | notText
  | malformed (report : Json.Report)

namespace LoadFailure

def cause : LoadFailure → String
  | .unreadable reason => reason
  | .notText => "stream did not contain valid UTF-8"
  | .malformed report => report.message

def message : LoadFailure → String
  | .malformed report => "failed to parse settings: " ++ report.message
  | failure => "failed to read settings: " ++ failure.cause

end LoadFailure

def pollIntervalVariable : String := "NOTIFIER_POLL_INTERVAL_MS"

def threadCountVariable : String := "NOTIFIER_THREAD_COUNT"

def override (text : Option String) (low high : UInt64) (value : UInt64) : UInt64 :=
  ((text.bind fun t => Decimal.readRange t low high).getD value)

def overridden (s : Settings) (env : Environment) : Settings :=
  { s with
    pollIntervalMs := override env.pollInterval 1 3600000 s.pollIntervalMs
    threadCount := override env.threadCount 1 1024 s.threadCount }

def ignored (text : Option String) (low high : UInt64) (name kind : String) : List Log.Event :=
  match text with
  | none => []
  | some t =>
    match Decimal.readRange t low high with
    | some _ => []
    | none =>
      [⟨.warn, "invalid " ++ kind ++ " env var, ignoring", [("key", name), ("value", t)]⟩]

def ignoredVariables (env : Environment) : List Log.Event :=
  ignored env.pollInterval 1 3600000 pollIntervalVariable "u64" ++
    ignored env.threadCount 1 1024 threadCountVariable "usize"

def correctionEvents (s : Settings) : List Log.Event :=
  s.corrections.map fun c => ⟨.warn, c.message, []⟩

def File.settings : File → Except LoadFailure Settings
  | .missing => .ok .default
  | .unreadable reason => .error (.unreadable reason)
  | .content bytes =>
    match String.fromUTF8? bytes with
    | none => .error .notText
    | some text =>
      match Json.decodeText decoder text with
      | .ok s => .ok s
      | .error report => .error (.malformed report)

def File.event (path : String) : File → Log.Event
  | .missing => ⟨.debug, "settings file not found, using defaults", [("path", Text.quoted path)]⟩
  | _ => ⟨.debug, "loading notifier settings from file", [("path", Text.quoted path)]⟩

structure Loaded where
  settings : Except LoadFailure Settings
  log : List Log.Event

def load (path : String) (file : File) (env : Environment) : Loaded :=
  match file.settings with
  | .error e => ⟨.error e, [file.event path]⟩
  | .ok s =>
    let layered := s.overridden env
    ⟨.ok layered.corrected, file.event path :: ignoredVariables env ++ layered.correctionEvents⟩

end SessionCourier.Settings
