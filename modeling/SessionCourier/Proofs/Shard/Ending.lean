import SessionCourier.Proofs.Shard.Deeds
import SessionCourier.Proofs.Shard.Sound

set_option autoImplicit false

namespace SessionCourier.Shard

variable {p : Policy} {clock : Nat} {s s' : Shard} {a : Action} {out : List Output} {L : List Nat}

def Phase.isFinal : Phase → Bool
  | .finalDrain _ | .finalClose _ => true
  | .drain _ | .pass _ => false

/-- The worker has left its loop. -/
def Stage.isFinal : Stage → Bool
  | .ready phase | .busy _ phase => phase.isFinal
  | .stopped => true
  | .unstarted | .parked .. | .escalating .. => false

/-- The sessions left to close, once the worker has listed them. -/
def Stage.toClose : Stage → Option (List Handle)
  | .ready (.finalClose left) | .busy _ (.finalClose left) => some left
  | .stopped => some []
  | _ => none

/-- The outbox of a session that is deleted after the worker has left its loop. -/
def late? (s : Shard) : Action → Option Nat
  | .delete h => if s.stage.isFinal then s.liveId? h else none
  | _ => none

/-- How a shard stands to `L`, the outboxes that were deleted too late. -/
structure Ending (L : List Nat) (s : Shard) : Prop where
  listed : ∀ left, s.stage.toClose = some left → ∀ h id, (h, id) ∈ s.live → h ∈ left
  late : s.stage.isFinal = true → s.deletions = L
  none : s.stage.isFinal = false → L = []

theorem isFinal_of_toClose {stage : Stage} {left : List Handle}
    (listed : stage.toClose = some left) : stage.isFinal = true := by
  unfold Stage.toClose at listed
  split at listed
  · rfl
  · rfl
  · rfl
  · cases listed

theorem ending_create (index : Nat) : Ending [] (create index) where
  listed _ listed := by simp [create, Stage.toClose] at listed
  late final := by simp [create, Stage.isFinal] at final
  none _ := rfl

theorem wakeUp_final (s : Shard) : s.wakeUp.stage.isFinal = s.stage.isFinal ∧
    s.wakeUp.stage.toClose = s.stage.toClose := by
  unfold wakeUp
  split
  · rename_i at_
    rw [at_]
    exact ⟨rfl, rfl⟩
  · exact ⟨rfl, rfl⟩

theorem Settles.final {id : Nat} {h : Handle} {said : List Outbox.Output} {phase : Phase}
    {stage : Stage} {after : List Output} (settles : Settles id h said phase stage after) :
    stage.isFinal = phase.isFinal ∧ stage.toClose = (Stage.ready phase).toClose := by
  cases settles with
  | waits =>
    refine ⟨rfl, ?_⟩
    cases phase <;> rfl
  | escalates => exact ⟨rfl, rfl⟩
  | goesOn => exact ⟨rfl, rfl⟩

namespace Ending

theorem still (ending : Ending L s) (final : s'.stage.isFinal = s.stage.isFinal)
    (toClose : s'.stage.toClose = s.stage.toClose) (live : ∀ x ∈ s'.live, x ∈ s.live)
    (deletions : s'.deletions = s.deletions) : Ending L s' where
  listed left listed h id mem := ending.listed left (toClose ▸ listed) h id (live _ mem)
  late isFinal := deletions.trans (ending.late (final ▸ isFinal))
  none isFinal := ending.none (final ▸ isFinal)

theorem early (ending : Ending L s) (before : s.stage.isFinal = false)
    (after : s'.stage.isFinal = false) : Ending L s' where
  listed left listed := by
    rw [isFinal_of_toClose listed] at after
    cases after
  late final := by
    rw [final] at after
    cases after
  none _ := ending.none before

theorem next (ending : Ending L s) {h : Handle} {left : List Handle} {live : List (Handle × Nat)}
    {stage : Stage} {os : List Outbox} (at_ : s.stage = .ready (.finalClose (h :: left)))
    (final : stage.isFinal = true) (toClose : stage.toClose = some left)
    (rest : ∀ x ∈ live, x ∈ s.live ∧ x.1 ≠ h) :
    Ending L { s with live := live, outboxes := os, stage := stage } where
  listed left' listed h' id mem := by
    obtain rfl : left = left' := Option.some_inj.1 (toClose.symm.trans listed)
    obtain ⟨mem, other⟩ := rest _ mem
    have was := ending.listed (h :: left) (by rw [at_]; rfl) h' id mem
    exact (List.mem_cons.1 was).resolve_left other
  late _ := ending.late (by rw [at_]; rfl)
  none isFinal := by
    have eq : stage.isFinal = false := isFinal
    rw [final] at eq
    cases eq

theorem works {m : Move} {s₁ : Shard} {id : Nat} {phase : Phase} {b : Outbox.Action} {h : Handle}
    {said : List Outbox.Output} {stage : Stage} {after : List Output} {os : List Outbox}
    (ending : Ending L s) (job : s.Job clock m s₁ id phase b)
    (settles : Settles id h said phase stage after) :
    Ending L { s₁ with outboxes := os, stage := stage } := by
  obtain ⟨final, toClose⟩ := settles.final
  cases job with
  | drain at_ | pass at_ | finalDrain at_ =>
    refine ending.still ?_ ?_ (fun _ mem => mem) rfl
    · rw [at_]
      exact final
    · rw [at_]
      exact toClose
  | finalClose at_ known =>
    refine ending.next at_ final toClose fun x mem => ?_
    obtain ⟨mem, other⟩ := List.mem_filter.1 mem
    exact ⟨mem, of_decide_eq_true other⟩
  | answer at_ =>
    refine ending.still ?_ ?_ (fun _ mem => mem) rfl
    · rw [at_]
      exact final
    · rw [at_]
      refine toClose.trans ?_
      cases phase <;> rfl

theorem same (ending : Ending L s) : Ending (L ++ []) s := by
  simpa using ending

theorem delete (ending : Ending L s) {h : Handle} {id : Nat} {os : List Outbox}
    (known : s.liveId? h = some id) :
    Ending (L ++ (s.late? (.delete h)).toList)
      { s with
        live := s.live.filter (·.1 ≠ h)
        outboxes := os
        deletions := s.deletions ++ [id] }.wakeUp := by
  cases final : s.stage.isFinal with
  | true =>
    have ended : s.late? (.delete h) = some id := by rw [late?, if_pos final, known]
    rw [ended]
    refine ⟨fun left listed h' id' mem => ?_, fun _ => ?_, fun early => ?_⟩
    · rw [(wakeUp_final _).2] at listed
      rw [wakeUp_live] at mem
      exact ending.listed left listed h' id' (List.mem_filter.1 mem).1
    · rw [wakeUp_deletions, ending.late final]
      rfl
    · rw [(wakeUp_final _).1] at early
      exact absurd (final.symm.trans early) nofun
  | false =>
    have ended : s.late? (.delete h) = Option.none := by
      rw [late?, if_neg (by simp [final])]
    rw [ended]
    refine same ?_
    exact ending.early final ((wakeUp_final _).1.trans final)

theorem step (ending : Ending L s) (change : Change p clock s a s' out)
    (closed : s.stage.isFinal = true → ∀ addr n, a ≠ .add addr n) :
    Ending (L ++ (s.late? a).toList) s' := by
  cases change with
  | @adds addr n id o | @creates addr n =>
    refine same ?_
    cases final : s.stage.isFinal with
    | true => exact absurd rfl (closed final addr n)
    | false => exact ending.early final ((wakeUp_final _).1.trans final)
  | offers =>
    refine same ?_
    exact ending.still rfl rfl (fun _ mem => mem) rfl
  | @misses h unknown =>
    have ended : s.late? (.delete h) = Option.none := by
      rw [late?, unknown]
      split <;> rfl
    rw [ended]
    exact ending.same
  | deletes known => exact ending.delete known
  | starts at_ | wakes at_ | polls at_ | surveys at_ | parks at_ | ends at_ =>
    refine same ?_
    exact ending.early (by rw [at_]; rfl) rfl
  | stops at_ =>
    refine same ⟨nofun, fun _ => ?_, nofun⟩
    exact (ending.none (by rw [at_]; rfl)).symm
  | sweeps at_ perm =>
    refine same ⟨fun left listed h id mem => ?_, fun _ => ?_, nofun⟩
    · obtain rfl := Option.some_inj.1 listed
      exact perm.mem_iff.2 (List.mem_map_of_mem mem)
    · exact ending.late (by rw [at_]; rfl)
  | @skips h left at_ unknown =>
    refine same ?_
    refine ending.next at_ rfl rfl fun x mem => ⟨mem, ?_⟩
    rintro rfl
    exact not_mem_of_liveId unknown x.2 mem
  | halts at_ =>
    refine same ?_
    refine ending.still ?_ ?_ (fun _ mem => mem) rfl
    · rw [at_]
      rfl
    · rw [at_]
      rfl
  | works job has taken settles =>
    refine same ?_
    exact ending.works job settles

end Ending

theorem final_of_change (change : Change p clock s a s' out) (final : s'.stage.isFinal = true) :
    s.stage.isFinal = true ∨ a = .move .stop := by
  cases change with
  | adds | creates | deletes =>
    rw [(wakeUp_final _).1] at final
    exact .inl final
  | offers | misses => exact .inl final
  | stops => exact .inr rfl
  | starts | wakes | polls | surveys | parks | ends => cases final
  | sweeps at_ | skips at_ | halts at_ => exact .inl (by rw [at_]; rfl)
  | works job has taken settles =>
    have phase_final := settles.final.1.symm.trans final
    cases job with
    | drain | pass => cases phase_final
    | finalDrain at_ | finalClose at_ => exact .inl (by rw [at_]; rfl)
    | answer at_ =>
      rw [at_]
      exact .inl phase_final

variable {id : Nat} {o : Outbox}

theorem deed_of_close {k : Nat} (deed : s.deed? clock a = some ⟨id, o, .call k .close⟩) :
    s.outbox? id = some o ∧ (id ∈ s.stage.doomed ∨ s.stage.isFinal = true) := by
  cases deed_does deed with
  | works job has =>
    refine ⟨has, ?_⟩
    unfold job? at job
    split at job
    · split at job
      · rename_i at_
        obtain ⟨rfl, -⟩ := Prod.mk.inj (Option.some_inj.1 job)
        rw [at_]
        exact .inl List.mem_cons_self
      · rename_i at_
        rw [at_]
        exact .inr rfl
      · cases job
      · rename_i at_
        rw [at_]
        exact .inr rfl
      · cases job
    · split at job <;> cases job
    · cases job

theorem Ending.closed (ending : Ending L s) (sound : Sound s) (at_ : s.stage = .stopped)
    (has : s.outbox? id = some o) : o.detached = true ∧ (o.closed = true ↔ id ∉ L) := by
  have nobody : ∀ h, (h, id) ∉ s.live := fun h mem => by
    have := ending.listed [] (by rw [at_]; rfl) h id mem
    cases this
  have gone : o.detached = true := by
    by_contra live
    exact nobody o.handle ((sound.live id o has o.handle).2 ⟨rfl, by simpa using live⟩)
  refine ⟨gone, ?_⟩
  have doomed : s.doomed = L := by
    rw [Shard.doomed, ending.late (by rw [at_]; rfl), at_]
    exact List.append_nil L
  rw [← doomed, sound.doomed id o has]
  simp [gone]

theorem Ending.empty (ending : Ending L s) (at_ : s.stage = .stopped) : s.live = [] := by
  refine List.eq_nil_iff_forall_not_mem.2 fun x mem => ?_
  have := ending.listed [] (by rw [at_]; rfl) x.1 x.2 mem
  cases this

theorem rest_of_stopped (at_ : s.stage = .stopped) (empty : s.live = [])
    (gone : ∀ id o, s.outbox? id = some o → o.detached = true)
    (change : Change p clock s a s' out) (closed : ∀ addr n, a ≠ .add addr n) :
    s' = s ∧ ∀ x ∈ out.filterMap Output.outbox?, (∃ n, x.2 = .refused n) ∨ ∃ e, x.2 = .log e := by
  cases change with
  | adds | creates => exact absurd rfl (closed _ _)
  | @offers id n o has =>
    have refuses : o.accepts = false := by simp [Outbox.accepts, gone id o has]
    have same : s.outboxes.set id o = s.outboxes := by
      refine List.ext_getElem? fun j => ?_
      rw [outbox_set has]
      split
      · rename_i same
        rw [same]
        exact has.symm
      · rfl
    refine ⟨?_, ?_⟩
    · simp [Outbox.enqueue, refuses, same]
    · rw [outputs_of_outbox]
      simp [Outbox.enqueue, refuses]
  | misses => exact ⟨rfl, by simp⟩
  | deletes known => simp [liveId?, empty] at known
  | starts was | wakes was | polls was | stops was | surveys was | sweeps was | parks was
  | skips was | halts was | ends was =>
    rw [at_] at was
    cases was
  | works job =>
    cases job with
    | drain was | pass was | finalDrain was | finalClose was | answer was =>
      rw [at_] at was
      cases was

end SessionCourier.Shard
