import SessionCourier.Proofs.Outbox.History

set_option autoImplicit false

namespace SessionCourier.Outbox

variable {p : Policy} {clock task now : Nat} {o o' : Outbox} {a : Action} {out : List Output}
  {holder : Option (Nat × Stage)} {rel : List Nat} {opened : Nat} {ts : List Turn}

def Stage.Needs (link : Option Nat) : Stage → Prop
  | .connecting .. => link = none
  | .invoking _ l _ _ => link = some l
  | .dropping .. | .closing _ => True

/-- How an outbox stands to the links given up and to how many were opened. -/
structure Linked (rel : List Nat) (opened : Nat) (o : Outbox) : Prop where
  all : rel ++ o.link.toList = List.range o.opened
  count : opened = o.opened
  needs : ∀ held, o.holder = some held → held.2.Needs o.link

theorem linked_create (h : Handle) (addr : Address) : Linked [] 0 (create h addr) where
  all := rfl
  count := rfl
  needs _ held := by simp [create] at held

namespace Linked

theorem frame (h : Linked rel opened o) (link : o'.link = o.link) (number : o'.opened = o.opened)
    (needs : ∀ held, o'.holder = some held → o.holder = some held ∨ held.2.Needs o.link) :
    Linked rel opened o' where
  all := by rw [link, number, h.all]
  count := h.count.trans number.symm
  needs held has := by
    rw [link]
    exact (needs held has).elim (h.needs held) id

theorem goes (h : Linked rel opened { o with holder := none })
    (g : o.Goes clock task now holder out) :
    Linked (rel ++ out.filterMap Output.released?) opened { o with holder := holder } := by
  have silent : out.filterMap Output.released? = [] := by cases g <;> rfl
  rw [silent, List.append_nil]
  refine h.frame rfl rfl fun held has => .inr ?_
  cases g with
  | ended => simp at has
  | sends _ _ link | connects _ _ link =>
    obtain rfl := Option.some_inj.1 has
    exact link

theorem free (h : Linked rel opened o) : Linked rel opened { o with holder := none } :=
  h.frame rfl rfl fun _ has => by simp at has

theorem release {link : Nat} (h : Linked rel opened o) (held : o.link = some link)
    (next : ∀ held, holder = some held → held.2.Needs none) :
    Linked (rel ++ [link]) opened { o with link := none, holder := holder } where
  all := by simpa [held] using h.all
  count := h.count
  needs := next

theorem still (h : Linked rel opened o) : Linked (rel ++ []) (opened + 0) o := by
  simpa using h

theorem enters {job : Job} (h : Linked rel opened o) (e : o.Enters clock task job o' out) :
    Linked (rel ++ out.filterMap Output.released?) opened o' := by
  cases e with
  | waits => exact h.free.still
  | flushes _ g => exact h.free.goes g
  | shuts => exact h.still
  | releases held =>
    refine h.release held fun w has => ?_
    obtain rfl := Option.some_inj.1 has
    trivial

theorem fails {head : Notice} {f : Failure} (h : Linked rel opened o)
    (e : o.Fails p clock task now head f o' out) :
    Linked (rel ++ out.filterMap Output.released?) opened o' := by
  cases e with
  | abandons | exhausts | retries =>
    refine still (h.frame rfl rfl fun _ has => ?_)
    simp at has

theorem asked {job : Job} (h : Linked rel opened o) (e : o.Asked job o') : Linked rel opened o' := by
  cases e with
  | flush => exact h
  | close => exact h.frame rfl rfl fun _ has => .inl has

theorem step (h : Linked rel opened o) (c : Change p clock o a o' out) :
    Linked (rel ++ out.filterMap Output.released?)
      (opened + if opens a = true then 1 else 0) o' := by
  cases c with
  | accepts | refuses | detaches | skips | repeats =>
    refine still ?_
    exact h.frame rfl rfl fun _ has => .inl has
  | queues asked =>
    refine still ?_
    exact (h.asked asked).frame rfl rfl fun _ has => .inl has
  | calls asked _ _ enters => exact (h.asked asked).enters enters
  | @resumes task job rest o₂ out _ _ enters =>
    have waited : Linked rel opened { o with waiting := rest } :=
      h.frame rfl rfl fun _ has => .inl has
    exact waited.enters enters
  | @connected task now head held =>
    have bare : o.link = none := h.needs _ held
    have all : rel = List.range o.opened := by simpa [bare] using h.all
    refine ⟨?_, ?_, ?_⟩
    · simp [Output.released?, all, List.range_succ]
    · simp [opens, h.count]
    · intro w has
      obtain rfl := Option.some_inj.1 has
      rfl
  | unreached _ fails => exact h.fails fails
  | @delivered task now link head since holder out held goes =>
    rw [filterMap_after (fun _ => rfl) (fun _ => rfl)]
    have popped : Linked rel opened { o with
        queue := o.queue.tail, failures := 0, nextAttempt := none, holder := none } :=
      h.frame rfl rfl fun _ has => by simp at has
    exact popped.goes goes
  | rejected held =>
    refine h.release (h.needs _ held) fun w has => ?_
    obtain rfl := Option.some_inj.1 has
    trivial
  | dropped _ fails => exact h.fails fails
  | closes => exact h.free.still

end Linked

theorem linked_of_trace {h : Handle} {addr : Address} (run : Trace (step p) (create h addr) ts o) :
    Linked (released ts) (openings ts) o := by
  induction run with
  | refl => exact linked_create h addr
  | tail _ last ih => simpa [released] using ih.step (step_change last)

end SessionCourier.Outbox
