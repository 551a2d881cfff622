import SessionCourier.Json.Decoder
import SessionCourier.Number.Duration

set_option autoImplicit false

namespace SessionCourier

structure Settings.Retry where
  initialIntervalMs : UInt64
  backoffFactor : Float
  maxIntervalMs : UInt64
  maxRetries : UInt32

structure Settings.Transport where
  connectTimeoutMs : UInt64
  callTimeoutMs : UInt64
  deriving DecidableEq

structure Settings where
  pollIntervalMs : UInt64
  threadCount : UInt64
  retry : Settings.Retry
  transport : Settings.Transport

namespace Settings

def Retry.default : Retry := ⟨500, 2.0, 30000, 5⟩

def Transport.default : Transport := ⟨2000, 5000⟩

def default : Settings := ⟨100, 4, .default, .default⟩

def Retry.encode (r : Retry) : Json.Value :=
  .object [("initialIntervalMs", .integer r.initialIntervalMs.toNat),
    ("backoffFactor", .float r.backoffFactor), ("maxIntervalMs", .integer r.maxIntervalMs.toNat),
    ("maxRetries", .integer r.maxRetries.toNat)]

def Transport.encode (t : Transport) : Json.Value :=
  .object [("connectTimeoutMs", .integer t.connectTimeoutMs.toNat),
    ("callTimeoutMs", .integer t.callTimeoutMs.toNat)]

def encode (s : Settings) : Json.Value :=
  .object [("pollIntervalMs", .integer s.pollIntervalMs.toNat),
    ("threadCount", .integer s.threadCount.toNat), ("retry", s.retry.encode),
    ("transport", s.transport.encode)]

def Retry.record : Json.Record Retry :=
  let d := Retry.default
  ((((Json.Record.pure Retry.mk).and
    (.orElse "initialIntervalMs" (Json.word64 "u64") d.initialIntervalMs)).and
    (.orElse "backoffFactor" Json.float d.backoffFactor)).and
    (.orElse "maxIntervalMs" (Json.word64 "u64") d.maxIntervalMs)).and
    (.orElse "maxRetries" Json.word32 d.maxRetries)

def Retry.decoder : Json.Decoder Retry := Retry.record.decoder "struct RetrySettings"

def Transport.record : Json.Record Transport :=
  let d := Transport.default
  ((Json.Record.pure Transport.mk).and
    (.orElse "connectTimeoutMs" (Json.word64 "u64") d.connectTimeoutMs)).and
    (.orElse "callTimeoutMs" (Json.word64 "u64") d.callTimeoutMs)

def Transport.decoder : Json.Decoder Transport :=
  Transport.record.decoder "struct TransportSettings"

def record : Json.Record Settings :=
  let d := Settings.default
  ((((Json.Record.pure Settings.mk).and
    (.orElse "pollIntervalMs" (Json.word64 "u64") d.pollIntervalMs)).and
    (.orElse "threadCount" (Json.word64 "usize") d.threadCount)).and
    (.orElse "retry" Retry.decoder d.retry)).and
    (.orElse "transport" Transport.decoder d.transport)

def decoder : Json.Decoder Settings := record.decoder "struct NotifierSettings"

inductive Correction where
  | noThreads
  | noInterval
  | lowFactor (factor : Float)
  | lowCap (cap initial : UInt64)

def Correction.message : Correction → String
  | .noThreads => "thread_count must be at least 1, using 1"
  | .noInterval => "poll_interval_ms must be positive, using 1"
  | .lowFactor factor =>
    "backoff_factor (" ++ Layout.prose.render factor ++ ") below 1.0, using 1.0"
  | .lowCap cap initial =>
    "max_interval_ms (" ++ Decimal.render cap.toNat ++ ") < initial_interval_ms (" ++
      Decimal.render initial.toNat ++ "), correcting"

def atLeastOne (n : UInt64) : UInt64 := if n = 0 then 1 else n

/-- What is no number is not at least one. -/
def factorFits (factor : Float) : Bool := 1.0 ≤ factor

def Retry.corrected (r : Retry) : Retry :=
  { r with
    backoffFactor := if factorFits r.backoffFactor then r.backoffFactor else 1.0
    maxIntervalMs := if r.maxIntervalMs < r.initialIntervalMs then r.initialIntervalMs
      else r.maxIntervalMs }

def Transport.corrected (t : Transport) : Transport where
  connectTimeoutMs :=
    if t.connectTimeoutMs = 0 then Transport.default.connectTimeoutMs else t.connectTimeoutMs
  callTimeoutMs := if t.callTimeoutMs = 0 then Transport.default.callTimeoutMs else t.callTimeoutMs

def corrected (s : Settings) : Settings where
  pollIntervalMs := atLeastOne s.pollIntervalMs
  threadCount := atLeastOne s.threadCount
  retry := s.retry.corrected
  transport := s.transport.corrected

/-- A timeout of zero is replaced without a word. -/
def corrections (s : Settings) : List Correction :=
  (if s.threadCount = 0 then [.noThreads] else []) ++
  (if s.pollIntervalMs = 0 then [.noInterval] else []) ++
  (if factorFits s.retry.backoffFactor then [] else [.lowFactor s.retry.backoffFactor]) ++
  (if s.retry.maxIntervalMs < s.retry.initialIntervalMs then
    [.lowCap s.retry.maxIntervalMs s.retry.initialIntervalMs] else [])

def pollInterval (s : Settings) : Duration := .ofMilliseconds s.pollIntervalMs.toNat

def Transport.connectTimeout (t : Transport) : Duration := .ofMilliseconds t.connectTimeoutMs.toNat

def Transport.callTimeout (t : Transport) : Duration := .ofMilliseconds t.callTimeoutMs.toNat

end Settings

end SessionCourier
