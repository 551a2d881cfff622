import SessionCourier.Proofs.Json.Members
import SessionCourier.Settings.Loader

set_option autoImplicit false

namespace SessionCourier

namespace Json

variable {n : Node} {source : Source}

def HoldsWord64 (n : Node) (w : UInt64) : Prop := n.value = .ok (.integer w.toNat)

def HoldsWord32 (n : Node) (w : UInt32) : Prop := n.value = .ok (.integer w.toNat)

def HoldsFloat (n : Node) (x : Float) : Prop :=
  n.value = .ok (.float x) ∨ ∃ i, n.value = .ok (.integer i) ∧ x = ofInteger i

/-- An object in which no key stands twice and whose members state this. -/
def HoldsObject {γ : Type} (stated : List (String × Node) → γ → Prop) (n : Node) (given : γ) :
    Prop :=
  ∃ members, IsObject n members ∧ (members.map (·.1)).Nodup ∧ stated members given

theorem word64_ok {w : UInt64} (expected : String) (holds : HoldsWord64 n w) :
    word64 expected source n = .ok w :=
  takes_word64 expected w source n holds

theorem word32_ok {w : UInt32} (holds : HoldsWord32 n w) : word32 source n = .ok w :=
  takes_word32 w source n holds

theorem float_ok {x : Float} (holds : HoldsFloat n x) : float source n = .ok x := by
  rcases holds with value | ⟨i, value, rfl⟩ <;> cases nodeOf_value value <;> rfl

end Json

namespace Settings

open Json

structure Retry.Given where
  initialIntervalMs : Option UInt64
  backoffFactor : Option Float
  maxIntervalMs : Option UInt64
  maxRetries : Option UInt32

structure Transport.Given where
  connectTimeoutMs : Option UInt64
  callTimeoutMs : Option UInt64

structure Given where
  pollIntervalMs : Option UInt64
  threadCount : Option UInt64
  retry : Option Retry.Given
  transport : Option Transport.Given

def Given.nothing : Given := ⟨none, none, none, none⟩

structure Retry.Given.Stated (members : List (String × Node)) (g : Retry.Given) : Prop where
  initialIntervalMs :
    Option.Rel HoldsWord64 (members.lookup "initialIntervalMs") g.initialIntervalMs
  backoffFactor : Option.Rel HoldsFloat (members.lookup "backoffFactor") g.backoffFactor
  maxIntervalMs : Option.Rel HoldsWord64 (members.lookup "maxIntervalMs") g.maxIntervalMs
  maxRetries : Option.Rel HoldsWord32 (members.lookup "maxRetries") g.maxRetries

structure Transport.Given.Stated (members : List (String × Node)) (g : Transport.Given) :
    Prop where
  connectTimeoutMs :
    Option.Rel HoldsWord64 (members.lookup "connectTimeoutMs") g.connectTimeoutMs
  callTimeoutMs : Option.Rel HoldsWord64 (members.lookup "callTimeoutMs") g.callTimeoutMs

structure Given.Stated (members : List (String × Node)) (g : Given) : Prop where
  pollIntervalMs : Option.Rel HoldsWord64 (members.lookup "pollIntervalMs") g.pollIntervalMs
  threadCount : Option.Rel HoldsWord64 (members.lookup "threadCount") g.threadCount
  retry : Option.Rel (HoldsObject Retry.Given.Stated) (members.lookup "retry") g.retry
  transport :
    Option.Rel (HoldsObject Transport.Given.Stated) (members.lookup "transport") g.transport

/-- A text that is one object and nothing else, and gives this. -/
structure Given.InText (text : String) (g : Given) : Prop where
  object : HoldsObject Given.Stated (Node.read text.toList) g
  alone : skipBlank (Node.read text.toList).after = []

def Retry.Given.filled (g : Retry.Given) : Retry where
  initialIntervalMs := g.initialIntervalMs.getD Retry.default.initialIntervalMs
  backoffFactor := g.backoffFactor.getD Retry.default.backoffFactor
  maxIntervalMs := g.maxIntervalMs.getD Retry.default.maxIntervalMs
  maxRetries := g.maxRetries.getD Retry.default.maxRetries

def Transport.Given.filled (g : Transport.Given) : Transport where
  connectTimeoutMs := g.connectTimeoutMs.getD Transport.default.connectTimeoutMs
  callTimeoutMs := g.callTimeoutMs.getD Transport.default.callTimeoutMs

def Given.filled (g : Given) : Settings where
  pollIntervalMs := g.pollIntervalMs.getD default.pollIntervalMs
  threadCount := g.threadCount.getD default.threadCount
  retry := (g.retry.map (·.filled)).getD default.retry
  transport := (g.transport.map (·.filled)).getD default.transport

variable {source : Source} {n : Node}

theorem Retry.Given.decoder_ok {g : Retry.Given} (read : IsRead n)
    (holds : HoldsObject Retry.Given.Stated n g) : Retry.decoder source n = .ok g.filled := by
  obtain ⟨members, object, nodup, stated⟩ := holds
  exact Record.decoder_object _ read object nodup <|
    ((((Record.gives_pure _).and
      (Record.gives_orElse _ stated.initialIntervalMs fun _ _ => word64_ok "u64")).and
      (Record.gives_orElse _ stated.backoffFactor fun _ _ => float_ok)).and
      (Record.gives_orElse _ stated.maxIntervalMs fun _ _ => word64_ok "u64")).and
      (Record.gives_orElse _ stated.maxRetries fun _ _ => word32_ok)

theorem Transport.Given.decoder_ok {g : Transport.Given} (read : IsRead n)
    (holds : HoldsObject Transport.Given.Stated n g) :
    Transport.decoder source n = .ok g.filled := by
  obtain ⟨members, object, nodup, stated⟩ := holds
  exact Record.decoder_object _ read object nodup <|
    ((Record.gives_pure _).and
      (Record.gives_orElse _ stated.connectTimeoutMs fun _ _ => word64_ok "u64")).and
      (Record.gives_orElse _ stated.callTimeoutMs fun _ _ => word64_ok "u64")

theorem Given.decoder_ok {g : Given} (read : IsRead n) (holds : HoldsObject Given.Stated n g) :
    decoder source n = .ok g.filled := by
  obtain ⟨members, object, nodup, stated⟩ := holds
  have inside {name : String} {m : Node} (found : members.lookup name = some m) : IsRead m :=
    (read.skippable_member object (name, m) ((lookup_eq_some_iff nodup).1 found)).read
  have retry : (Record.orElse "retry" Retry.decoder default.retry).Gives source
      (members.lookup ·) ((g.retry.map (·.filled)).getD default.retry) :=
    Record.gives_filled _ _ stated.retry fun _ _ found => Retry.Given.decoder_ok (inside found)
  have transport : (Record.orElse "transport" Transport.decoder default.transport).Gives source
      (members.lookup ·) ((g.transport.map (·.filled)).getD default.transport) :=
    Record.gives_filled _ _ stated.transport fun _ _ found =>
      Transport.Given.decoder_ok (inside found)
  exact Record.decoder_object _ read object nodup <|
    ((((Record.gives_pure _).and
      (Record.gives_orElse _ stated.pollIntervalMs fun _ _ => word64_ok "u64")).and
      (Record.gives_orElse _ stated.threadCount fun _ _ => word64_ok "usize")).and retry).and
      transport

theorem Given.InText.decoded {text : String} {g : Given} (given : g.InText text) :
    decodeText decoder text = .ok g.filled := by
  simp only [decodeText, Given.decoder_ok (isRead_read text.toList) given.object, given.alone]

end Settings

end SessionCourier
