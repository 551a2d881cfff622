import SessionCourier.Delivery.Outbox.Basic

set_option autoImplicit false

namespace SessionCourier.Rehearsal

structure World (σ : Type) where
  connect : σ → Address → σ × Nat × Except Failure Unit
  invoke : σ → Address → Notice → σ × Nat × Except Failure Unit
  /-- The driver has taken a notice. -/
  accept : σ → Address → Notice → σ
  release : σ → Address → σ × Nat

structure Awaited where
  due : Nat
  answer : Outbox.Answer
  accepted : Option Notice

namespace World

variable {σ : Type}

def ask (w : World σ) (s : σ) (clock : Nat) : Address → Outbox.Output → σ × Option Awaited
  | _, .connect a =>
    let (s, wait, result) := w.connect s a
    (s, some ⟨clock + wait, .connected result, none⟩)
  | a, .invoke _ n =>
    let (s, wait, result) := w.invoke s a n
    (s, some ⟨clock + wait, .invoked result, if result.isOk then some n else none⟩)
  | a, .release _ =>
    let (s, wait) := w.release s a
    (s, some ⟨clock + wait, .released, none⟩)
  | _, _ => (s, none)

/-- An outbox asks for one thing at a time, so the last is the one it waits for. -/
def askAll (w : World σ) (s : σ) (clock : Nat) (a : Address) (outputs : List Outbox.Output) :
    σ × Option Awaited :=
  outputs.foldl (fun acc out =>
    let (s, awaited) := w.ask acc.1 clock a out
    (s, awaited <|> acc.2)) (s, none)

def arrive (w : World σ) (s : σ) (a : Address) (awaited : Awaited) : σ :=
  match awaited.accepted with
  | some n => w.accept s a n
  | none => s

end World

end SessionCourier.Rehearsal
