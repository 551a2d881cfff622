import SessionCourier.Delivery.Pool.Step
import SessionCourier.Proofs.Settings.Given
import SessionCourier.Proofs.Text.Decimal

set_option autoImplicit false

namespace SessionCourier.Settings

/-- The variable is set, and this is its number, which lies in its range. -/
def Sets (low high : UInt64) (text : Option String) (w : UInt64) : Prop :=
  ∃ t, text = some t ∧ Decimal.Denotes t.toList w.toNat ∧ low ≤ w ∧ w ≤ high

/-- The value of a field by its layers, the last one first. -/
inductive Layer {α : Type} (usable : α → Prop) (file : Option α) (absent : α) : α → Prop where
  | environment {a : α} (used : usable a) : Layer usable file absent a
  | file {a : α} (unused : ∀ b, ¬usable b) (given : file = some a) : Layer usable file absent a
  | default (unused : ∀ b, ¬usable b) (left : file = none) : Layer usable file absent absent

/-- Each field comes from the layer it is to come from. -/
structure Layered (given : Given) (env : Environment) (s : Settings) : Prop where
  pollIntervalMs :
    Layer (Sets 1 3600000 env.pollInterval) given.pollIntervalMs default.pollIntervalMs
      s.pollIntervalMs
  threadCount :
    Layer (Sets 1 1024 env.threadCount) given.threadCount default.threadCount s.threadCount
  initialIntervalMs : s.retry.initialIntervalMs =
    (given.retry.bind (·.initialIntervalMs)).getD default.retry.initialIntervalMs
  backoffFactor : s.retry.backoffFactor =
    (given.retry.bind (·.backoffFactor)).getD default.retry.backoffFactor
  maxIntervalMs : s.retry.maxIntervalMs =
    (given.retry.bind (·.maxIntervalMs)).getD default.retry.maxIntervalMs
  maxRetries : s.retry.maxRetries =
    (given.retry.bind (·.maxRetries)).getD default.retry.maxRetries
  connectTimeoutMs : s.transport.connectTimeoutMs =
    (given.transport.bind (·.connectTimeoutMs)).getD default.transport.connectTimeoutMs
  callTimeoutMs : s.transport.callTimeoutMs =
    (given.transport.bind (·.callTimeoutMs)).getD default.transport.callTimeoutMs

/-- The file gives this. -/
inductive File.Gives : File → Given → Prop where
  | missing : File.Gives .missing .nothing
  | content {text : String} {given : Given} (written : given.InText text) :
      File.Gives (.content text.toUTF8) given

/-- The file is there and cannot be used, for this reason. -/
inductive File.Fails : File → LoadFailure → Prop where
  | unreadable (reason : String) : File.Fails (.unreadable reason) (.unreadable reason)
  | notText {bytes : ByteArray} (invalid : ¬bytes.IsValidUTF8) :
      File.Fails (.content bytes) .notText
  | malformed {text : String} {report : Json.Report}
      (refused : Json.decodeText decoder text = .error report) :
      File.Fails (.content text.toUTF8) (.malformed report)

theorem sets_iff {text : Option String} {low high w : UInt64} :
    Sets low high text w ↔ (text.bind fun t => Decimal.readRange t low high) = some w := by
  rw [Option.bind_eq_some_iff]
  exact exists_congr fun t => and_congr_right fun _ => Decimal.readRange_iff.symm

theorem layer_override (text : Option String) (low high absent : UInt64) (file : Option UInt64) :
    Layer (Sets low high text) file absent (override text low high (file.getD absent)) := by
  rw [override]
  cases number : text.bind fun t => Decimal.readRange t low high with
  | some w => exact .environment (sets_iff.2 number)
  | none =>
    have unused (w : UInt64) : ¬Sets low high text w := fun used =>
      Option.some_ne_none w ((sets_iff.1 used).symm.trans number)
    cases file with
    | some w => exact .file unused rfl
    | none => exact .default unused rfl

theorem layered_filled (given : Given) (env : Environment) :
    Layered given env (given.filled.overridden env) where
  pollIntervalMs := layer_override env.pollInterval 1 3600000 _ _
  threadCount := layer_override env.threadCount 1 1024 _ _
  initialIntervalMs := by cases given with | mk _ _ retry _ => cases retry <;> rfl
  backoffFactor := by cases given with | mk _ _ retry _ => cases retry <;> rfl
  maxIntervalMs := by cases given with | mk _ _ retry _ => cases retry <;> rfl
  maxRetries := by cases given with | mk _ _ retry _ => cases retry <;> rfl
  connectTimeoutMs := by cases given with | mk _ _ _ transport => cases transport <;> rfl
  callTimeoutMs := by cases given with | mk _ _ _ transport => cases transport <;> rfl

variable {file : File} {given : Given}

theorem decoded_toUTF8 (text : String) : String.fromUTF8? text.toUTF8 = some text := by
  rw [String.fromUTF8?, String.toUTF8_eq_toByteArray, dif_pos text.isValidUTF8]
  rfl

theorem File.Gives.settings (gives : file.Gives given) : file.settings = .ok given.filled := by
  cases gives with
  | missing => rfl
  | content written => simp only [File.settings, decoded_toUTF8, written.decoded]

theorem toUTF8_or_invalid (bytes : ByteArray) :
    (∃ text : String, bytes = text.toUTF8) ∨ ¬bytes.IsValidUTF8 := by
  by_cases valid : bytes.IsValidUTF8
  · exact .inl ⟨⟨bytes, valid⟩, rfl⟩
  · exact .inr valid

theorem File.settings_eq_error {e : LoadFailure} : file.settings = .error e ↔ file.Fails e := by
  cases file with
  | missing => exact ⟨nofun, nofun⟩
  | unreadable reason =>
    constructor
    · intro failed
      cases failed
      exact .unreadable reason
    · rintro ⟨⟩
      rfl
  | content bytes =>
    constructor
    · intro failed
      obtain ⟨text, rfl⟩ | invalid := toUTF8_or_invalid bytes
      · cases decoded : Json.decodeText decoder text with
        | ok s =>
          simp only [File.settings, decoded_toUTF8, decoded] at failed
          cases failed
        | error report =>
          simp only [File.settings, decoded_toUTF8, decoded] at failed
          cases failed
          exact .malformed decoded
      · rw [File.settings, String.fromUTF8?, dif_neg invalid] at failed
        cases failed
        exact .notText invalid
    · intro fails
      cases fails with
      | notText invalid => rw [File.settings, String.fromUTF8?, dif_neg invalid]
      | malformed refused => simp only [File.settings, decoded_toUTF8, refused]

/-- Zero is no number of threads and no interval, and corrected settings have neither. -/
theorem start_corrected (s : Settings) (registry : Registry) :
    ∃ started, Pool.start s.corrected registry true = .ok started := by
  have positive (n : UInt64) : atLeastOne n ≠ 0 := by
    unfold atLeastOne
    split
    · decide
    · assumption
  have threads : s.corrected.threadCount ≠ 0 := positive s.threadCount
  have interval : s.corrected.pollIntervalMs ≠ 0 := positive s.pollIntervalMs
  rw [Pool.start, if_neg threads, if_neg interval]
  exact ⟨_, rfl⟩

theorem load_settings (path : String) (file : File) (env : Environment) :
    (load path file env).settings =
      file.settings.map fun s => (s.overridden env).corrected := by
  rw [load]
  cases file.settings <;> rfl

def sampleText : String :=
  "\x7b\"note\": [[1]], \"retry\": \x7b\"jitter\": null, \"maxRetries\": 2\x7d, \"threadCount\": 8\x7d"

def sampleGiven : Given where
  pollIntervalMs := none
  threadCount := some 8
  retry := some ⟨none, none, none, some 2⟩
  transport := none

theorem sampleText_gives : (File.content sampleText.toUTF8).Gives sampleGiven := by
  obtain ⟨a, b, c, d, e, f, g, h, i, j, k, l, m, n, o, read⟩ :
      ∃ a b c d e f g h i j k l m n o, Json.Node.read sampleText.toList = .object a
        [(⟨.ok "note", b⟩, c),
          (⟨.ok "retry", d⟩, .object e [(⟨.ok "jitter", f⟩, g),
            (⟨.ok "maxRetries", h⟩, .number (.ok (.integer 2)) i j)] (.ok k) l),
          (⟨.ok "threadCount", m⟩, .number (.ok (.integer 8)) n o)] (.ok []) (.ok []) :=
    ⟨_, _, _, _, _, _, _, _, _, _, _, _, _, _, _, rfl⟩
  refine .content ⟨?_, by rw [read]; rfl⟩
  rw [read]
  exact ⟨_, .closed (.cons _ _ _ (.cons _ _ _ (.cons _ _ _ .nil))), by simp,
    .none, .some rfl,
    .some ⟨_, .closed (.cons _ _ _ (.cons _ _ _ .nil)), by simp, .none, .none, .none, .some rfl⟩,
    .none⟩

end SessionCourier.Settings
