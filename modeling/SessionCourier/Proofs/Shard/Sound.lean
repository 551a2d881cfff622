import Mathlib.Data.List.Nodup
import SessionCourier.Proofs.Shard.Change
import SessionCourier.Proofs.Trace

set_option autoImplicit false

namespace SessionCourier.Shard

variable {p : Policy} {clock id : Nat} {s s' : Shard} {a : Action} {out : List Output}
  {o o' : Outbox} {h : Handle}

/-- Whether the worker closes outboxes in this phase; otherwise it flushes them. -/
def Phase.closes : Phase → Bool
  | .pass _ => false
  | _ => true

/-- The outboxes of deleted sessions that are left to close. -/
def Phase.doomed : Phase → List Nat
  | .drain left | .finalDrain left => left
  | .pass _ | .finalClose _ => []

def Stage.doomed : Stage → List Nat
  | .ready phase | .busy _ phase => phase.doomed
  | _ => []

def doomed (s : Shard) : List Nat := s.deletions ++ s.stage.doomed

theorem mem_of_liveId (known : s.liveId? h = some id) : (h, id) ∈ s.live := by
  obtain ⟨before, after, eq, -⟩ := List.lookup_eq_some_iff.1 known
  simp [eq]

theorem not_mem_of_liveId (unknown : s.liveId? h = none) (id : Nat) : (h, id) ∉ s.live := by
  intro mem
  simpa using List.lookup_eq_none_iff.1 unknown _ mem

theorem liveId_of_mem (keys : (s.live.map (·.1)).Nodup) (mem : (h, id) ∈ s.live) :
    s.liveId? h = some id := by
  cases known : s.liveId? h with
  | none => exact absurd mem (not_mem_of_liveId known id)
  | some j =>
    have same := List.inj_on_of_nodup_map keys mem (mem_of_liveId known) rfl
    rw [(Prod.mk.inj same).2]

theorem keys_append (keys : (s.live.map (·.1)).Nodup) (unknown : s.liveId? h = none) :
    ((s.live ++ [(h, id)]).map (·.1)).Nodup := by
  rw [List.map_append, List.nodup_append]
  refine ⟨keys, by simp, ?_⟩
  rintro h₁ mem₁ h₂ mem₂ rfl
  obtain ⟨⟨h', j⟩, mem, rfl⟩ := List.mem_map.1 mem₁
  obtain rfl : h' = h := by simpa using mem₂
  exact not_mem_of_liveId unknown j mem

structure Sound (s : Shard) : Prop where
  /-- A session has at most one live outbox. -/
  keys : (s.live.map (·.1)).Nodup
  valid : ∀ h id, (h, id) ∈ s.live → id < s.outboxes.length
  live : ∀ id o, s.outbox? id = some o →
    ∀ h, (h, id) ∈ s.live ↔ h = o.handle ∧ o.detached = false
  known : ∀ id ∈ s.doomed, id < s.outboxes.length
  once : s.doomed.Nodup
  doomed : ∀ id o, s.outbox? id = some o → (id ∈ s.doomed ↔ o.detached = true ∧ o.closed = false)
  shut : ∀ id o, s.outbox? id = some o → o.closed = true →
    o.detached = true ∧ o.link = none ∧ ∀ held, o.holder = some held → held.2.isClosing = true
  alone : ∀ id o, s.outbox? id = some o → o.waiting = []
  busy : ∀ id o, s.outbox? id = some o → ∀ held, o.holder = some held →
    ∃ phase, s.stage = .busy id phase ∧ held.2.isClosing = phase.closes
  /-- A session has a new outbox only when the old one is detached. -/
  older : ∀ i j o o', s.outbox? i = some o → s.outbox? j = some o' → i < j →
    o.handle = o'.handle → o.detached = true

theorem sound_create (index : Nat) : Sound (create index) where
  keys := List.nodup_nil
  valid _ _ mem := by simp [create] at mem
  live _ _ has := by simp [create, outbox?] at has
  known _ mem := by simp [create, Shard.doomed, Stage.doomed] at mem
  once := List.nodup_nil
  doomed _ _ has := by simp [create, outbox?] at has
  shut _ _ has := by simp [create, outbox?] at has
  alone _ _ has := by simp [create, outbox?] at has
  busy _ _ has := by simp [create, outbox?] at has
  older _ _ _ _ has := by simp [create, outbox?] at has

/-- What a step that replaces one outbox has to look after. -/
structure Swap (s : Shard) (id : Nat) (o o' : Outbox) (s' : Shard) : Prop where
  has : s.outbox? id = some o
  outboxes : s'.outboxes = s.outboxes.set id o'
  handle : o'.handle = o.handle
  gone : o.detached = true → o'.detached = true
  alone : o'.waiting = []
  shut : o'.closed = true →
    o'.detached = true ∧ o'.link = none ∧ ∀ held, o'.holder = some held → held.2.isClosing = true
  keys : (s'.live.map (·.1)).Nodup
  others : ∀ h j, j ≠ id → ((h, j) ∈ s'.live ↔ (h, j) ∈ s.live)
  own : ∀ h, (h, id) ∈ s'.live ↔ h = o'.handle ∧ o'.detached = false
  once : s'.doomed.Nodup
  spared : ∀ j, j ≠ id → (j ∈ s'.doomed ↔ j ∈ s.doomed)
  doomed : id ∈ s'.doomed ↔ o'.detached = true ∧ o'.closed = false
  busy : ∀ held, o'.holder = some held →
    ∃ phase, s'.stage = .busy id phase ∧ held.2.isClosing = phase.closes
  /-- While the worker is busy with another outbox, it stays so. -/
  rest : ∀ j o₁, j ≠ id → s.outbox? j = some o₁ → o₁.holder ≠ none → s'.stage = s.stage

namespace Swap

theorem outbox (w : Swap s id o o' s') (j : Nat) :
    s'.outbox? j = if j = id then some o' else s.outbox? j := by
  rw [outbox?, w.outboxes, outbox_set w.has]

theorem length (w : Swap s id o o' s') : s'.outboxes.length = s.outboxes.length := by
  rw [w.outboxes, List.length_set]

theorem cases (w : Swap s id o o' s') {j : Nat} {o₁ : Outbox} (has : s'.outbox? j = some o₁) :
    (j = id ∧ o₁ = o') ∨ (j ≠ id ∧ s.outbox? j = some o₁) := by
  rw [w.outbox] at has
  split at has
  · rename_i same
    exact .inl ⟨same, (Option.some_inj.1 has).symm⟩
  · rename_i other
    exact .inr ⟨other, has⟩

theorem before (w : Swap s id o o' s') {j : Nat} {o₁ : Outbox} (has : s'.outbox? j = some o₁) :
    ∃ o₂, s.outbox? j = some o₂ ∧ o₁.handle = o₂.handle ∧
      (o₂.detached = true → o₁.detached = true) := by
  rcases w.cases has with ⟨rfl, rfl⟩ | ⟨-, was⟩
  · exact ⟨o, w.has, w.handle, w.gone⟩
  · exact ⟨o₁, was, rfl, fun gone => gone⟩

theorem sound (w : Swap s id o o' s') (sound : Sound s) : Sound s' where
  keys := w.keys
  valid h j mem := by
    rw [w.length]
    by_cases same : j = id
    · exact same ▸ outbox_lt w.has
    · exact sound.valid h j ((w.others h j same).1 mem)
  live j o₁ has h := by
    rcases w.cases has with ⟨rfl, rfl⟩ | ⟨other, was⟩
    · exact w.own h
    · rw [w.others h j other]
      exact sound.live j o₁ was h
  known j mem := by
    rw [w.length]
    by_cases same : j = id
    · exact same ▸ outbox_lt w.has
    · exact sound.known j ((w.spared j same).1 mem)
  once := w.once
  doomed j o₁ has := by
    rcases w.cases has with ⟨rfl, rfl⟩ | ⟨other, was⟩
    · exact w.doomed
    · rw [w.spared j other]
      exact sound.doomed j o₁ was
  shut j o₁ has := by
    rcases w.cases has with ⟨rfl, rfl⟩ | ⟨-, was⟩
    · exact w.shut
    · exact sound.shut j o₁ was
  alone j o₁ has := by
    rcases w.cases has with ⟨rfl, rfl⟩ | ⟨-, was⟩
    · exact w.alone
    · exact sound.alone j o₁ was
  busy j o₁ has held holds := by
    rcases w.cases has with ⟨rfl, rfl⟩ | ⟨other, was⟩
    · exact w.busy held holds
    · rw [w.rest j o₁ other was (by simp [holds])]
      exact sound.busy j o₁ was held holds
  older i j o₁ o₂ hasi hasj lt same := by
    obtain ⟨u, wasi, hu, stays⟩ := w.before hasi
    obtain ⟨v, wasj, hv, -⟩ := w.before hasj
    exact stays (sound.older i j u v wasi wasj lt (by rw [← hu, ← hv, same]))

end Swap

theorem Sound.restage (sound : Sound s) (outboxes : s'.outboxes = s.outboxes)
    (live : s'.live = s.live) (doomed : s'.doomed = s.doomed)
    (busy : ∀ id phase, s.stage = .busy id phase → s'.stage = .busy id phase) : Sound s' where
  keys := live ▸ sound.keys
  valid := live ▸ outboxes ▸ sound.valid
  live id o has := by
    rw [live]
    exact sound.live id o (by rw [outbox?, ← outboxes]; exact has)
  known := doomed ▸ outboxes ▸ sound.known
  once := doomed ▸ sound.once
  doomed id o has := by
    rw [doomed]
    exact sound.doomed id o (by rw [outbox?, ← outboxes]; exact has)
  shut id o has := sound.shut id o (by rw [outbox?, ← outboxes]; exact has)
  alone id o has := sound.alone id o (by rw [outbox?, ← outboxes]; exact has)
  busy id o has held holds := by
    obtain ⟨phase, at_, fits⟩ := sound.busy id o (by rw [outbox?, ← outboxes]; exact has) held holds
    exact ⟨phase, busy id phase at_, fits⟩
  older i j o o' hasi hasj :=
    sound.older i j o o' (by rw [outbox?, ← outboxes]; exact hasi)
      (by rw [outbox?, ← outboxes]; exact hasj)

theorem Sound.wakeUp (sound : Sound s) : Sound s.wakeUp := by
  refine sound.restage (wakeUp_outboxes s) (wakeUp_live s) ?_ fun id phase at_ => ?_
  · unfold Shard.wakeUp Shard.doomed
    split
    · rename_i at_
      simp [at_, Stage.doomed]
    · rfl
  · simp [Shard.wakeUp, at_]

namespace Sound

theorem free (sound : Sound s) (has : s.outbox? id = some o)
    (idle : ∀ phase, s.stage ≠ .busy id phase) : o.holder = none := by
  by_contra taken
  obtain ⟨held, holds⟩ := Option.ne_none_iff_exists'.1 taken
  obtain ⟨phase, at_, -⟩ := sound.busy id o has held holds
  exact idle phase at_

theorem usable (sound : Sound s) (has : s.outbox? id = some o) (live : o.detached = false) :
    o.closed = false := by
  by_contra shut
  simp [(sound.shut id o has (by simpa using shut)).1] at live

theorem touch (sound : Sound s) (has : s.outbox? id = some o) (handle : o'.handle = o.handle)
    (detached : o'.detached = o.detached) (closed : o'.closed = o.closed) (link : o'.link = o.link)
    (waiting : o'.waiting = o.waiting) (holder : o'.holder = o.holder) :
    Sound { s with outboxes := s.outboxes.set id o' } := by
  refine Swap.sound (?_ : Swap s id o o' _) sound
  exact {
    has := has
    outboxes := rfl
    handle := handle
    gone := fun gone => detached.trans gone
    alone := waiting.trans (sound.alone id o has)
    shut := by
      rw [closed, detached, link, holder]
      exact sound.shut id o has
    keys := sound.keys
    others := fun _ _ _ => Iff.rfl
    own := by
      rw [handle, detached]
      exact sound.live id o has
    once := sound.once
    spared := fun _ _ => Iff.rfl
    doomed := by
      rw [detached, closed]
      exact sound.doomed id o has
    busy := by
      rw [holder]
      exact sound.busy id o has
    rest := fun _ _ _ _ _ => rfl }

theorem enqueue (sound : Sound s) (has : s.outbox? id = some o) (n : Notice) :
    Sound { s with outboxes := s.outboxes.set id (o.enqueue n).1 } := by
  refine sound.touch has ?_ ?_ ?_ ?_ ?_ ?_ <;> rw [Outbox.enqueue_eq]

theorem create (sound : Sound s) (unknown : s.liveId? h = none) (fresh : o.handle = h)
    (live : o.detached = false) (usable : o.closed = false) (alone : o.waiting = [])
    (free : o.holder = none) :
    Sound { s with
      outboxes := s.outboxes ++ [o]
      live := s.live ++ [(h, s.outboxes.length)] } := by
  have absent := not_mem_of_liveId unknown
  have young : ∀ j ∈ s.doomed, j ≠ s.outboxes.length := fun j mem =>
    Nat.ne_of_lt (sound.known j mem)
  exact {
    keys := keys_append sound.keys unknown
    valid := by
      intro h' j mem
      rw [List.length_append]
      rcases List.mem_append.1 mem with old | new
      · exact Nat.lt_add_right 1 (sound.valid h' j old)
      · obtain ⟨-, rfl⟩ : h' = h ∧ j = s.outboxes.length := by simpa using new
        exact Nat.lt_add_one _
    live := by
      intro j o₁ has h'
      rcases outbox_append_cases has with was | ⟨rfl, rfl⟩
      · have lt := outbox_lt was
        rw [List.mem_append, List.mem_singleton, Prod.mk.injEq, ← sound.live j o₁ was h']
        exact ⟨fun mem => mem.resolve_right fun new => Nat.ne_of_lt lt new.2, .inl⟩
      · have old : (h', s.outboxes.length) ∉ s.live := fun mem =>
          Nat.lt_irrefl _ (sound.valid h' _ mem)
        simp [old, fresh, live]
    known := by
      intro j mem
      rw [List.length_append]
      exact Nat.lt_add_right 1 (sound.known j mem)
    once := sound.once
    doomed := by
      intro j o₁ has
      rcases outbox_append_cases has with was | ⟨rfl, rfl⟩
      · exact sound.doomed j o₁ was
      · refine ⟨fun mem => absurd rfl (young _ mem), fun gone => ?_⟩
        simp [live] at gone
    shut := by
      intro j o₁ has
      rcases outbox_append_cases has with was | ⟨rfl, rfl⟩
      · exact sound.shut j o₁ was
      · simp [usable]
    alone := by
      intro j o₁ has
      rcases outbox_append_cases has with was | ⟨rfl, rfl⟩
      · exact sound.alone j o₁ was
      · exact alone
    busy := by
      intro j o₁ has
      rcases outbox_append_cases has with was | ⟨rfl, rfl⟩
      · exact sound.busy j o₁ was
      · simp [free]
    older := by
      intro i j o₁ o₂ hasi hasj lt same
      rcases outbox_append_cases hasi with wasi | ⟨rfl, rfl⟩
      · rcases outbox_append_cases hasj with wasj | ⟨rfl, rfl⟩
        · exact sound.older i j o₁ o₂ wasi wasj lt same
        · -- the session had no live outbox, so the older one is detached
          by_contra kept
          exact absent i ((sound.live i o₁ wasi h).2 ⟨by rw [same, fresh], by simpa using kept⟩)
      · rcases outbox_append_cases hasj with wasj | ⟨rfl, -⟩
        · exact absurd (outbox_lt wasj) (by omega)
        · omega }

theorem forget (sound : Sound s) (known : s.liveId? h = some id) (has : s.outbox? id = some o) :
    o.handle = h ∧ o.detached = false ∧
      ((s.live.filter (·.1 ≠ h)).map (·.1)).Nodup ∧
      (∀ h' j, j ≠ id → ((h', j) ∈ s.live.filter (·.1 ≠ h) ↔ (h', j) ∈ s.live)) ∧
      ∀ h', (h', id) ∉ s.live.filter (·.1 ≠ h) := by
  obtain ⟨handle, live⟩ := (sound.live id o has h).1 (mem_of_liveId known)
  refine ⟨handle.symm, live, sound.keys.sublist (List.filter_sublist.map _), ?_, ?_⟩
  · intro h' j other
    rw [List.mem_filter]
    refine ⟨And.left, fun mem => ⟨mem, decide_eq_true ?_⟩⟩
    rintro rfl
    rw [liveId_of_mem sound.keys mem] at known
    exact other (Option.some_inj.1 known)
  · intro h' mem
    rw [List.mem_filter] at mem
    have same := ((sound.live id o has h').1 mem.1).1
    exact of_decide_eq_true mem.2 (same.trans handle.symm)

theorem delete (sound : Sound s) (known : s.liveId? h = some id) :
    Sound { s with
      live := s.live.filter (·.1 ≠ h)
      outboxes := s.outboxes.modify id Outbox.detach
      deletions := s.deletions ++ [id] } := by
  obtain ⟨o, has⟩ : ∃ o, s.outbox? id = some o :=
    ⟨_, List.getElem?_eq_getElem (sound.valid h id (mem_of_liveId known))⟩
  obtain ⟨-, live, keys, others, own⟩ := sound.forget known has
  have usable := sound.usable has live
  have new : id ∉ s.doomed := by
    intro mem
    have gone := ((sound.doomed id o has).1 mem).1
    simp [live] at gone
  have perm : (s.deletions ++ [id] ++ s.stage.doomed).Perm (id :: s.doomed) := by
    rw [List.append_assoc]
    exact List.perm_middle
  refine Swap.sound (?_ : Swap s id o o.detach _) sound
  exact {
    has := has
    outboxes := detach_eq has
    handle := rfl
    gone := fun _ => rfl
    alone := sound.alone id o has
    shut := fun shut => by simp [Outbox.detach, usable] at shut
    keys := keys
    others := others
    own := fun h' => ⟨fun mem => absurd mem (own h'), fun gone => by simp [Outbox.detach] at gone⟩
    once := perm.nodup_iff.2 (List.nodup_cons.2 ⟨new, sound.once⟩)
    spared := fun j other => by
      rw [Shard.doomed, perm.mem_iff, List.mem_cons]
      exact ⟨fun mem => mem.resolve_left other, .inr⟩
    doomed := by
      rw [Shard.doomed, perm.mem_iff]
      simp [Outbox.detach, usable]
    busy := sound.busy id o has
    rest := fun _ _ _ _ _ => rfl }

end Sound

section
variable {phase : Phase} {stage : Stage} {said : List Outbox.Output} {after : List Output}

theorem Settles.doomed (settles : Settles id h said phase stage after) :
    stage.doomed = phase.doomed := by
  cases settles <;> rfl

theorem Settles.busy (settles : Settles id h said phase stage after)
    (rests : Outbox.Rests phase.closes o' said) :
    ∀ held, o'.holder = some held →
      ∃ phase, stage = .busy id phase ∧ held.2.isClosing = phase.closes := by
  intro held holds
  cases settles with
  | waits on =>
    rw [Outbox.Rests, on] at rests
    obtain ⟨held', holds', fits⟩ := rests
    obtain rfl := Option.some_inj.1 (holds'.symm.trans holds)
    exact ⟨phase, rfl, fits⟩
  | escalates ended | goesOn ended =>
    rw [Outbox.Rests, ended] at rests
    simp [rests] at holds

namespace Sound

theorem rest (sound : Sound s) (only : ∀ j phase, s.stage = .busy j phase → j = id) {j : Nat}
    (other : j ≠ id) (has : s.outbox? j = some o) : o.holder = none :=
  sound.free has fun phase at_ => other (only j phase at_)

theorem worked (sound : Sound s) (has : s.outbox? id = some o)
    (only : ∀ j phase, s.stage = .busy j phase → j = id)
    (settles : Settles id h said phase stage after) (same : s.stage.doomed = phase.doomed)
    (works : Outbox.Works phase.closes o o' said)
    (shut : o'.closed = true →
      o'.link = none ∧ ∀ held, o'.holder = some held → held.2.isClosing = true) :
    Sound { s with outboxes := s.outboxes.set id o', stage := stage } := by
  have left : s.deletions ++ stage.doomed = s.doomed := by
    rw [settles.doomed, ← same, Shard.doomed]
  refine Swap.sound (?_ : Swap s id o o' _) sound
  exact {
    has := has
    outboxes := rfl
    handle := works.handle
    gone := fun gone => works.detached.trans gone
    alone := works.waiting.trans (sound.alone id o has)
    shut := fun closed => by
      have was := sound.shut id o has (works.closed ▸ closed)
      exact ⟨works.detached.trans was.1, shut closed⟩
    keys := sound.keys
    others := fun _ _ _ => Iff.rfl
    own := by
      rw [works.handle, works.detached]
      exact sound.live id o has
    once := by
      rw [Shard.doomed, left]
      exact sound.once
    spared := fun j _ => by rw [Shard.doomed, left]
    doomed := by
      rw [Shard.doomed, left, works.detached, works.closed]
      exact sound.doomed id o has
    busy := settles.busy works.rests
    rest := fun j o₁ other was taken => absurd (sound.rest only other was) taken }

theorem shuts (sound : Sound s) {live : List (Handle × Nat)} (has : s.outbox? id = some o)
    (idle : ∀ j phase, s.stage ≠ .busy j phase)
    (settles : Settles id h said phase stage after) (closing : phase.closes = true)
    (closes : o'.handle = o.handle ∧ o'.detached = true ∧ o'.closed = true ∧ o'.link = none ∧
      o'.waiting = [] ∧ Outbox.Rests true o' said)
    (keys : (live.map (·.1)).Nodup)
    (others : ∀ h j, j ≠ id → ((h, j) ∈ live ↔ (h, j) ∈ s.live)) (own : ∀ h, (h, id) ∉ live)
    (once : (s.deletions ++ phase.doomed).Nodup)
    (left : ∀ j, j ∈ s.deletions ++ phase.doomed ↔ j ∈ s.doomed ∧ j ≠ id) :
    Sound { s with live := live, outboxes := s.outboxes.set id o', stage := stage } := by
  obtain ⟨handle, detached, closed, link, alone, rests⟩ := closes
  rw [← closing] at rests
  refine Swap.sound (?_ : Swap s id o o' _) sound
  exact {
    has := has
    outboxes := rfl
    handle := handle
    gone := fun _ => detached
    alone := alone
    shut := fun _ => by
      refine ⟨detached, link, fun held holds => ?_⟩
      obtain ⟨phase', at_, fits⟩ := settles.busy rests held holds
      cases settles with
      | waits =>
        cases at_
        exact fits.trans closing
      | escalates | goesOn => cases at_
    keys := keys
    others := others
    own := fun h' => ⟨fun mem => absurd mem (own h'), fun live => by simp [detached] at live⟩
    once := by
      rw [Shard.doomed, settles.doomed]
      exact once
    spared := fun j other => by
      rw [Shard.doomed, settles.doomed, left]
      exact ⟨And.left, fun mem => ⟨mem, other⟩⟩
    doomed := by
      rw [Shard.doomed, settles.doomed, left]
      simp [closed]
    busy := settles.busy rests
    rest := fun j o₁ other was taken => absurd (sound.free was fun phase => idle j phase) taken }

theorem drains (sound : Sound s) {left : List Nat} (at_ : s.stage.doomed = id :: left)
    (idle : ∀ j phase, s.stage ≠ .busy j phase) (closing : phase.closes = true)
    (rest : phase.doomed = left) (has : s.outbox? id = some o)
    (taken : Outbox.step p clock o (.call task .close) = some (o', said))
    (settles : Settles id h said phase stage after) :
    Sound { s with outboxes := s.outboxes.set id o', stage := stage } := by
  have perm : s.doomed.Perm (id :: (s.deletions ++ left)) := by
    rw [Shard.doomed, at_]
    exact List.perm_middle
  have once := List.nodup_cons.1 (perm.nodup_iff.1 sound.once)
  have gone := (sound.doomed id o has).1 (perm.mem_iff.2 List.mem_cons_self)
  have free := sound.free has fun phase => idle id phase
  have closes := Outbox.close_works free (sound.alone id o has) gone.2 taken
  have unlived : ∀ h', (h', id) ∉ s.live := fun h' mem => by
    have live := ((sound.live id o has h').1 mem).2
    simp [gone.1] at live
  refine sound.shuts has idle settles closing closes sound.keys
    (fun _ _ _ => Iff.rfl) unlived (rest ▸ once.2) fun j => ?_
  rw [rest, perm.mem_iff, List.mem_cons]
  constructor
  · intro mem
    refine ⟨.inr mem, ?_⟩
    rintro rfl
    exact once.1 mem
  · rintro ⟨mem, other⟩
    exact mem.resolve_left other

theorem closesLive (sound : Sound s) {left : List Handle} {h' : Handle}
    (at_ : s.stage = .ready (.finalClose (h' :: left))) (known : s.liveId? h' = some id)
    (has : s.outbox? id = some o)
    (taken : Outbox.step p clock o (.call task .close) = some (o', said))
    (settles : Settles id h said (.finalClose left) stage after) :
    Sound { s with
      live := s.live.filter (·.1 ≠ h')
      outboxes := s.outboxes.set id o'
      stage := stage } := by
  have idle : ∀ j phase, s.stage ≠ .busy j phase := by simp [at_]
  obtain ⟨-, live, keys, others, own⟩ := sound.forget known has
  have usable := sound.usable has live
  have free := sound.free has fun phase => idle id phase
  have closes := Outbox.close_works free (sound.alone id o has) usable taken
  have same : s.deletions ++ (Phase.finalClose left).doomed = s.doomed := by
    rw [Shard.doomed, at_]
    rfl
  refine sound.shuts has idle settles rfl closes keys others own ?_ fun j => ?_
  · rw [same]
    exact sound.once
  · rw [same]
    refine ⟨fun mem => ⟨mem, ?_⟩, And.left⟩
    rintro rfl
    have gone := ((sound.doomed j o has).1 mem).1
    simp [live] at gone

theorem passes (sound : Sound s) {left : List Nat} (at_ : s.stage = .ready (.pass (id :: left)))
    (has : s.outbox? id = some o)
    (taken : Outbox.step p clock o (.call task (.flush clock)) = some (o', said))
    (settles : Settles id h said (.pass left) stage after) :
    Sound { s with outboxes := s.outboxes.set id o', stage := stage } := by
  have only : ∀ j phase, s.stage = .busy j phase → j = id := by simp [at_]
  have free := sound.free has fun phase => by simp [at_]
  obtain ⟨works, same⟩ := Outbox.flush_works free (sound.alone id o has) taken
  refine sound.worked has only settles (by rw [at_]; rfl) works fun shut => ?_
  have was := works.closed ▸ shut
  exact same was ▸ (sound.shut id o has was).2

theorem answers (sound : Sound s) {x : Outbox.Answer} (at_ : s.stage = .busy id phase)
    (has : s.outbox? id = some o) (taken : Outbox.step p clock o (.answer x) = some (o', said))
    (settles : Settles id h said phase stage after) :
    Sound { s with outboxes := s.outboxes.set id o', stage := stage } := by
  have only : ∀ j phase, s.stage = .busy j phase → j = id := by
    rintro j phase' at'
    rw [at_] at at'
    exact (Stage.busy.inj at').1.symm
  obtain ⟨held, holds⟩ : ∃ held, o.holder = some held := by
    cases holds : o.holder with
    | none => simp [Outbox.step, holds] at taken
    | some held => exact ⟨held, rfl⟩
  obtain ⟨phase', at', fits⟩ := sound.busy id o has held holds
  obtain ⟨-, rfl⟩ := Stage.busy.inj (at_.symm.trans at')
  obtain ⟨works, link⟩ := Outbox.answer_works holds taken
  rw [fits] at works
  refine sound.worked has only settles (by rw [at_]; rfl) works fun shut => ?_
  obtain ⟨-, bare, closing⟩ := sound.shut id o has (works.closed ▸ shut)
  refine ⟨(link (closing held holds)).trans bare, fun held' holds' => ?_⟩
  obtain ⟨phase'', at'', fits'⟩ := settles.busy works.rests held' holds'
  cases settles with
  | waits =>
    cases at''
    exact fits'.trans (fits.symm.trans (closing held holds))
  | escalates | goesOn => cases at''

theorem begin (sound : Sound s) {since : Nat} {handed permit : Bool}
    {next : List Nat → Phase} (at_ : s.stage = .parked since handed)
    (all : ∀ left, (next left).doomed = left) : Sound (s.begin next permit) := by
  refine sound.restage rfl rfl ?_ fun id phase busy => ?_
  · simp [Shard.begin, Shard.doomed, Stage.doomed, all, at_]
  · simp [at_] at busy

theorem moves (sound : Sound s) {permit : Bool} (at_ : s.stage.doomed = [])
    (idle : ∀ j phase, s.stage ≠ .busy j phase) (after : stage.doomed = []) :
    Sound { s with permit := permit, stage := stage } := by
  refine sound.restage rfl rfl ?_ fun id phase busy => absurd busy (idle id phase)
  rw [Shard.doomed, Shard.doomed, at_, after]

theorem works (sound : Sound s) {m : Move} {s₁ : Shard} {b : Outbox.Action}
    (job : s.Job clock m s₁ id phase b) (has : s.outbox? id = some o)
    (taken : Outbox.step p clock o b = some (o', said))
    (settles : Settles id h said phase stage after) :
    Sound { s₁ with outboxes := s.outboxes.set id o', stage := stage } := by
  cases job with
  | drain at_ | finalDrain at_ =>
    exact sound.drains (by rw [at_]; rfl) (by simp [at_]) rfl rfl has taken settles
  | pass at_ => exact sound.passes at_ has taken settles
  | finalClose at_ known => exact sound.closesLive at_ known has taken settles
  | answer at_ => exact sound.answers at_ has taken settles

theorem step (sound : Sound s) (change : Change p clock s a s' out) : Sound s' := by
  cases change with
  | adds _ has => exact (sound.enqueue has _).wakeUp
  | creates new =>
    refine (sound.create new ?_ ?_ ?_ ?_ ?_).wakeUp <;> rw [Outbox.enqueue_eq] <;> rfl
  | offers has => exact sound.enqueue has _
  | misses => exact sound
  | deletes known => exact (sound.delete known).wakeUp
  | wakes at_ | polls at_ | stops at_ => exact sound.begin at_ fun _ => rfl
  | starts at_ | parks at_ | surveys at_ | sweeps at_ | skips at_ | halts at_ | ends at_ =>
    refine sound.moves (by rw [at_]; rfl) (by simp [at_]) rfl
  | works job has taken settles => exact sound.works job has taken settles

end Sound

end

theorem sound_of_trace {index : Nat} {ts : List (SessionCourier.Turn Shard Action Output)}
    (run : Trace (step p) (create index) ts s) : Sound s :=
  run.invariant (fun last sound => sound.step (step_change last)) (sound_create index)

end SessionCourier.Shard
