import SessionCourier.Proofs.Outbox.History
import SessionCourier.Proofs.Shard.Deeds

set_option autoImplicit false

namespace SessionCourier.Shard

abbrev Turn := SessionCourier.Turn Shard Action Output

variable {p : Policy} {clock id : Nat} {s s' : Shard} {a : Action} {out : List Output}
  {ts us : List Turn}

def turn? (t : Turn) : Option (Nat × Outbox.Turn) :=
  (t.before.deed? t.clock t.action).map fun d =>
    (d.id, ⟨t.clock, d.outbox, d.action, (t.outputs.filterMap Output.outbox?).map (·.2)⟩)

def turnAt? (id : Nat) (t : Turn) : Option Outbox.Turn :=
  turn? t >>= fun u => if u.1 = id then some u.2 else none

def turnsOf (id : Nat) (ts : List Turn) : List Outbox.Turn := ts.filterMap (turnAt? id)

@[simp] theorem turnsOf_append : turnsOf id (ts ++ us) = turnsOf id ts ++ turnsOf id us :=
  List.filterMap_append

@[simp] theorem turnsOf_single (t : Turn) : turnsOf id [t] = (turnAt? id t).toList := by
  cases h : turnAt? id t <;> simp [turnsOf, h]

theorem turnAt_of_deed {d : Deed} (deed : s.deed? clock a = some d) :
    turnAt? id ⟨clock, s, a, out⟩ = if d.id = id then
      some ⟨clock, d.outbox, d.action, (out.filterMap Output.outbox?).map (·.2)⟩ else none := by
  simp [turnAt?, turn?, deed]

/-- The turns of an outbox that may not be there yet. -/
def Lives (p : Policy) (us : List Outbox.Turn) : Option Outbox → Prop
  | none => us = []
  | some o => ∃ addr, Trace (Outbox.step p) (.create o.handle addr) us o

theorem Lives.tail {us : List Outbox.Turn} {o o' : Outbox} {b : Outbox.Action}
    {said : List Outbox.Output} (lives : Lives p us (some o))
    (taken : Outbox.step p clock o b = some (o', said)) :
    Lives p (us ++ [⟨clock, o, b, said⟩]) (some o') := by
  obtain ⟨addr, run⟩ := lives
  refine ⟨addr, ?_⟩
  rw [(Outbox.step_change taken).handle]
  exact run.tail taken

theorem Lives.step (lives : Lives p (turnsOf id ts) (s.outbox? id))
    (h : step p clock s a = some (s', out)) :
    Lives p (turnsOf id (ts ++ [⟨clock, s, a, out⟩])) (s'.outbox? id) := by
  have acts := (step_change h).acts
  generalize deed : s.deed? clock a = d at acts
  generalize outboxes : s'.outboxes = os at acts
  generalize spoke : out.filterMap Output.outbox? = said at acts
  rw [outbox?, outboxes, turnsOf_append, turnsOf_single]
  cases acts with
  | rests =>
    have idle : turnAt? id ⟨clock, s, a, out⟩ = none := by simp [turnAt?, turn?, deed]
    rw [idle, Option.toList_none, List.append_nil]
    exact lives
  | @acts j o o' b said has taken =>
    rw [turnAt_of_deed deed, outbox_set has, spoke]
    by_cases same : j = id
    · subst same
      rw [has] at lives
      simpa [Function.comp_def] using lives.tail taken
    · simpa [same, Ne.symm same] using lives
  | @begins addr n o' said _ _ taken =>
    rw [turnAt_of_deed deed, outbox_append, spoke]
    by_cases same : s.outboxes.length = id
    · subst same
      have absent : s.outbox? s.outboxes.length = none := List.getElem?_eq_none (Nat.le_refl _)
      rw [absent] at lives
      have none_yet : turnsOf s.outboxes.length ts = [] := lives
      have born : Lives p [] (some (.create n.handle addr)) := ⟨addr, .refl⟩
      simpa [none_yet, Function.comp_def] using born.tail taken
    · simpa [same, Ne.symm same] using lives

theorem lives_of_trace {index : Nat} (run : Trace (step p) (create index) ts s) (id : Nat) :
    Lives p (turnsOf id ts) (s.outbox? id) := by
  induction run with
  | refl => rfl
  | tail _ last ih => exact ih.step last

theorem trace_of_outbox {index : Nat} {o : Outbox} (run : Trace (step p) (create index) ts s)
    (has : s.outbox? id = some o) :
    ∃ addr, Trace (Outbox.step p) (.create o.handle addr) (turnsOf id ts) o := by
  have lives := lives_of_trace run id
  rw [has] at lives
  exact lives

end SessionCourier.Shard
