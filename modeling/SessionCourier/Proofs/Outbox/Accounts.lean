import Mathlib.Data.List.Basic
import SessionCourier.Proofs.Outbox.Order
import SessionCourier.Proofs.Outbox.Retries

set_option autoImplicit false

namespace SessionCourier.Outbox

variable {p : Policy} {clock task now : Nat} {o o' : Outbox} {a : Action} {out : List Output}
  {acc del drp lat : List Notice} {ts us : List Turn}

def Action.dismisses : Action → Bool
  | .detach | .call _ .close => true
  | _ => false

def drops (t : Turn) : List Notice :=
  match t.action with
  | .detach => t.before.queue
  | .call _ .close => if t.before.closed then [] else t.before.queue
  | _ => if false ∈ endings [t] then t.before.queue else []

/-- A notice that was discarded while it was in flight, and that the driver took. -/
def late? (t : Turn) : Option Notice :=
  if t.before.accepts then none else t.before.delivers? t.action

def dropped (ts : List Turn) : List Notice := ts.flatMap drops

def late (ts : List Turn) : List Notice := ts.filterMap late?

/-- What was discarded and not delivered all the same. -/
def discarded (ts : List Turn) : List Notice := (dropped ts).diff (late ts)

@[simp] theorem dropped_append : dropped (ts ++ us) = dropped ts ++ dropped us :=
  List.flatMap_append

@[simp] theorem dropped_single (t : Turn) : dropped [t] = drops t :=
  List.flatMap_singleton ..

@[simp] theorem late_append : late (ts ++ us) = late ts ++ late us :=
  List.filterMap_append

@[simp] theorem late_single (t : Turn) : late [t] = (late? t).toList := by
  cases h : late? t <;> simp [late, h]

theorem drops_of_empty {t : Turn} (empty : t.before.queue = []) : drops t = [] := by
  unfold drops
  split
  · exact empty
  · split
    · rfl
    · exact empty
  · split
    · exact empty
    · rfl

theorem drops_of_kept {t : Turn} (kept : t.action.dismisses = false) :
    drops t = if false ∈ endings [t] then t.before.queue else [] := by
  unfold drops
  split
  · rename_i detaches
    cases (congrArg Action.dismisses detaches).symm.trans kept
  · rename_i closes
    cases (congrArg Action.dismisses closes).symm.trans kept
  · rfl

theorem drops_of_told {t : Turn} (kept : t.action.dismisses = false)
    (told : ∀ alive ∈ t.outputs.filterMap Output.alive?, alive = true) : drops t = [] := by
  rw [drops_of_kept kept]
  refine if_neg fun mem => ?_
  have said := told false (by simpa [endings] using mem)
  cases said

theorem drops_of_close (usable : o.closed = false) :
    drops ⟨clock, o, .call task .close, out⟩ = o.queue := by
  simp [drops, usable]

/-- Either an outbox goes on and keeps its queue, or it stops accepting and its queue is discarded. -/
inductive Decides (clock : Nat) (o : Outbox) (a : Action) (o' : Outbox) (out : List Output) :
    Prop where
  | keeps (live : o'.accepts = true) (nothing : drops ⟨clock, o, a, out⟩ = [])
  | drops (dead : o'.accepts = false) (all : drops ⟨clock, o, a, out⟩ = o.queue)
      (unaccepted : out.filterMap Output.accepted? = []) (undelivered : o.delivers? a = none)

theorem Fails.decides {head : Notice} {f : Failure} (h : o.Fails p clock task now head f o' out)
    (live : o.accepts = true) (kept : a.dismisses = false) (undelivered : o.delivers? a = none) :
    Decides clock o a o' out := by
  cases h with
  | abandons gone => simp [Outbox.accepts, gone] at live
  | exhausts =>
    refine .drops (by simp [Outbox.accepts]) ?_ rfl undelivered
    rw [drops_of_kept kept]
    simp [endings, Output.alive?]
  | retries => exact .keeps live (drops_of_told kept (by simp [Output.alive?]))

theorem Change.decides (h : Change p clock o a o' out) (live : o.accepts = true) :
    Decides clock o a o' out := by
  cases h with
  | refuses gone => simp [gone] at live
  | accepts | skips | connected | rejected | closes =>
    exact .keeps live (drops_of_told rfl (by simp [Output.alive?]))
  | repeats ended => exact .keeps live (by simp [drops, ended])
  | detaches => exact .drops (by simp [Outbox.accepts, detach]) rfl rfl rfl
  | queues asked =>
    cases asked with
    | flush => exact .keeps live (drops_of_told rfl (by simp))
    | close usable => exact .drops (by simp [Outbox.accepts, detach]) (drops_of_close usable) rfl rfl
  | calls asked _ _ enters =>
    cases asked with
    | flush => exact .keeps (enters.accepts.trans live) (drops_of_told rfl enters.lasts.told)
    | close usable =>
      refine .drops (enters.accepts.trans ?_) (drops_of_close usable) enters.accepted rfl
      simp [Outbox.accepts, detach]
  | resumes _ _ enters =>
    exact .keeps (enters.accepts.trans live) (drops_of_told rfl enters.lasts.told)
  | unreached _ fails => exact fails.decides live rfl rfl
  | dropped _ fails => exact fails.decides live rfl rfl
  | delivered _ goes =>
    refine .keeps live (drops_of_told rfl ?_)
    rw [filterMap_after (fun _ => rfl) (fun _ => rfl)]
    exact goes.lasts.told

theorem Change.unaccepted (h : Change p clock o a o' out) (gone : o.accepts = false) :
    out.filterMap Output.accepted? = [] := by
  rw [h.accepted]
  cases a with
  | enqueue => rw [gone]; rfl
  | detach | call | resume | answer => rfl

/-- How an outbox stands to what it accepted, to what was delivered and discarded, and to what was
discarded and delivered all the same. -/
structure Accounted (acc del drp lat : List Notice) (o : Outbox) : Prop where
  lost : ∃ lost, drp = lat ++ lost ∧ acc = del ++ o.queue ++ lost
  kept : o.accepts = true → drp = []

theorem accounted_create (h : Handle) (addr : Address) : Accounted [] [] [] [] (create h addr) where
  lost := ⟨[], rfl, rfl⟩
  kept _ := rfl

theorem Accounted.gone (accounted : Accounted acc del drp lat o) (ordered : Ordered acc del o)
    (dead : o.accepts = false) (change : Change p clock o a o' out) :
    Accounted acc (del ++ (o.delivers? a).toList) drp (lat ++ (o.delivers? a).toList) o' := by
  obtain ⟨lost, dropped_eq, whole⟩ := accounted.lost
  have dead' := change.gone dead
  have ordered' := ordered.step change
  rw [change.unaccepted dead, List.append_nil] at ordered'
  have kept : o'.accepts = true → drp = [] := fun live => by rw [dead'] at live; cases live
  rw [ordered.empty dead, List.append_nil] at whole
  cases delivers : o.delivers? a with
  | none => exact ⟨⟨lost, by simpa using dropped_eq, by simpa [ordered'.empty dead'] using whole⟩, kept⟩
  | some head =>
    -- What is in flight was the head of the queue, so it is the first of what was discarded.
    obtain ⟨rest, eq⟩ := ordered'.served
    rw [delivers, Option.toList_some, whole, List.append_assoc] at eq
    obtain rfl : [head] ++ rest = lost := List.append_cancel_left eq
    refine ⟨⟨rest, by simpa using dropped_eq, ?_⟩, kept⟩
    rw [ordered'.empty dead', whole]
    simp

theorem Accounted.step (accounted : Accounted acc del drp lat o) (ordered : Ordered acc del o)
    (change : Change p clock o a o' out) :
    Accounted (acc ++ out.filterMap Output.accepted?) (del ++ (o.delivers? a).toList)
      (drp ++ drops ⟨clock, o, a, out⟩) (lat ++ (late? ⟨clock, o, a, out⟩).toList) o' := by
  have ordered' := ordered.step change
  cases live : o.accepts with
  | false =>
    have nothing : drops ⟨clock, o, a, out⟩ = [] := drops_of_empty (ordered.empty live)
    have all : late? ⟨clock, o, a, out⟩ = o.delivers? a := by simp [late?, live]
    rw [change.unaccepted live, nothing, all, List.append_nil, List.append_nil]
    exact accounted.gone ordered live change
  | true =>
    obtain ⟨lost, dropped_eq, whole⟩ := accounted.lost
    have none_late : late? ⟨clock, o, a, out⟩ = none := by simp [late?, live]
    rw [accounted.kept live] at dropped_eq ⊢
    obtain ⟨rfl, rfl⟩ := List.append_eq_nil_iff.1 dropped_eq.symm
    rw [none_late, List.nil_append, Option.toList_none, List.append_nil]
    cases change.decides live with
    | keeps live' nothing =>
      rw [nothing]
      exact ⟨⟨[], rfl, by simpa using ordered'.whole live'⟩, fun _ => rfl⟩
    | drops dead all unaccepted undelivered =>
      refine ⟨⟨o.queue, all, ?_⟩, fun live' => by rw [dead] at live'; cases live'⟩
      rw [unaccepted, undelivered, ordered'.empty dead]
      simpa using whole

theorem accounted_of_trace {h : Handle} {addr : Address}
    (run : Trace (step p) (create h addr) ts o) :
    Accounted (accepted ts) (delivered ts) (dropped ts) (late ts) o := by
  induction run with
  | refl => exact accounted_create h addr
  | tail before last ih => simpa [accepted] using ih.step (ordered_of_trace before) (step_change last)

theorem diff_append_left {α : Type} [DecidableEq α] (l l' : List α) : (l ++ l').diff l = l' := by
  induction l with
  | nil => exact List.diff_nil l'
  | cons a l ih =>
    rw [List.cons_append, List.diff_cons, List.erase_cons_head]
    exact ih

theorem accepted_eq {h : Handle} {addr : Address} (run : Trace (step p) (create h addr) ts o) :
    accepted ts = delivered ts ++ o.queue ++ discarded ts ∧
      (o.accepts = true → discarded ts = []) := by
  obtain ⟨⟨lost, dropped_eq, whole⟩, kept⟩ := accounted_of_trace run
  have rest : discarded ts = lost := by rw [discarded, dropped_eq, diff_append_left]
  refine ⟨rest ▸ whole, fun live => ?_⟩
  rw [kept live] at dropped_eq
  rw [rest, (List.append_eq_nil_iff.1 dropped_eq.symm).2]

end SessionCourier.Outbox
