import Mathlib.Data.List.Induction

set_option autoImplicit false

namespace SessionCourier

/-- A step as it was seen. -/
structure Turn (σ α ω : Type) where
  clock : Nat
  before : σ
  action : α
  outputs : List ω

variable {σ α ω : Type} {step : Nat → σ → α → Option (σ × List ω)} {s s' u : σ}
  {ts us : List (Turn σ α ω)}

/-- The turns `ts`, the last of which stands last, lead from `s` to another state. -/
inductive Trace (step : Nat → σ → α → Option (σ × List ω)) (s : σ) :
    List (Turn σ α ω) → σ → Prop where
  | refl : Trace step s [] s
  | tail {ts : List (Turn σ α ω)} {u v : σ} {clock : Nat} {a : α} {out : List ω}
      (before : Trace step s ts u) (last : step clock u a = some (v, out)) :
      Trace step s (ts ++ [⟨clock, u, a, out⟩]) v

namespace Trace

theorem single {clock : Nat} {a : α} {out : List ω} (h : step clock s a = some (s', out)) :
    Trace step s [⟨clock, s, a, out⟩] s' :=
  .tail .refl h

theorem append (h : Trace step s ts u) (h' : Trace step u us s') : Trace step s (ts ++ us) s' := by
  induction h' with
  | refl => simpa using h
  | tail _ last ih =>
    rw [← List.append_assoc]
    exact .tail ih last

theorem eq_of_nil (h : Trace step s [] s') : s' = s := by
  generalize empty : [] = ts at h
  cases h with
  | refl => rfl
  | tail => simp at empty

theorem of_snoc {t : Turn σ α ω} (h : Trace step s (ts ++ [t]) s') :
    Trace step s ts t.before ∧ step t.clock t.before t.action = some (s', t.outputs) := by
  generalize hus : ts ++ [t] = us at h
  cases h with
  | refl => simp at hus
  | tail before last =>
    obtain ⟨rfl, ht⟩ := List.append_inj' hus rfl
    obtain rfl := List.singleton_inj.1 ht
    exact ⟨before, last⟩

theorem split (h : Trace step s (ts ++ us) s') : ∃ u, Trace step s ts u ∧ Trace step u us s' := by
  induction us using List.reverseRecOn generalizing s' with
  | nil => exact ⟨s', by simpa using h, .refl⟩
  | append_singleton us t ih =>
    rw [← List.append_assoc] at h
    obtain ⟨before, last⟩ := h.of_snoc
    obtain ⟨u, hu, hus⟩ := ih before
    exact ⟨u, hu, .tail hus last⟩

theorem middle {t : Turn σ α ω} (h : Trace step s (ts ++ t :: us) s') :
    ∃ v, Trace step s ts t.before ∧ step t.clock t.before t.action = some (v, t.outputs) ∧
      Trace step v us s' := by
  rw [List.append_cons] at h
  obtain ⟨v, hv, hus⟩ := h.split
  exact ⟨v, hv.of_snoc.1, hv.of_snoc.2, hus⟩

theorem invariant {P : σ → Prop}
    (keep : ∀ {clock u a v out}, step clock u a = some (v, out) → P u → P v)
    (h : Trace step s ts s') (start : P s) : P s' := by
  induction h with
  | refl => exact start
  | tail _ last ih => exact keep last ih

end Trace

section
variable {β : Type} {f : ω → Option β}

def said (f : ω → Option β) (ts : List (Turn σ α ω)) : List β :=
  ts.flatMap fun t => t.outputs.filterMap f

@[simp] theorem said_nil : said f ([] : List (Turn σ α ω)) = [] := rfl

@[simp] theorem said_append : said f (ts ++ us) = said f ts ++ said f us := by
  simp [said]

@[simp] theorem said_cons {t : Turn σ α ω} :
    said f (t :: ts) = t.outputs.filterMap f ++ said f ts := by
  simp [said]

end

section
variable {next : List ω → σ → Option (Nat × α)} {heard heard' : List ω}

/-- The turns that follow when `next` says at each state, from all that was said so far, which action
comes and when. With the state that they lead to stands all that was said by then. -/
inductive Course (step : Nat → σ → α → Option (σ × List ω)) (next : List ω → σ → Option (Nat × α)) :
    List ω → σ → List (Turn σ α ω) → List ω → σ → Prop where
  | refl {heard : List ω} {s : σ} : Course step next heard s [] heard s
  | goes {heard heard' out : List ω} {s u s' : σ} {clock : Nat} {a : α} {ts : List (Turn σ α ω)}
      (now : next heard s = some (clock, a)) (taken : step clock s a = some (u, out))
      (rest : Course step next (heard ++ out) u ts heard' s') :
      Course step next heard s (⟨clock, s, a, out⟩ :: ts) heard' s'

namespace Course

theorem trans {heard₁ heard₂ : List ω} (h : Course step next heard s ts heard₁ s')
    (h' : Course step next heard₁ s' us heard₂ u) : Course step next heard s (ts ++ us) heard₂ u := by
  induction h with
  | refl => exact h'
  | goes now taken _ ih => exact .goes now taken (ih h')

theorem trace (h : Course step next heard s ts heard' s') : Trace step s ts s' := by
  induction h with
  | refl => exact .refl
  | goes _ taken _ ih => exact (Trace.single taken).append ih

theorem heard_eq (h : Course step next heard s ts heard' s') :
    heard' = heard ++ ts.flatMap (·.outputs) := by
  induction h with
  | refl => simp
  | goes _ _ _ ih => simpa using ih

theorem unique {heard₁ heard₂ : List ω} (h : Course step next heard s ts heard₁ s')
    (halted : next heard₁ s' = none) (h' : Course step next heard s us heard₂ u)
    (halted' : next heard₂ u = none) : us = ts ∧ u = s' := by
  induction h generalizing us with
  | refl =>
    cases h' with
    | refl => exact ⟨rfl, rfl⟩
    | goes now => cases halted.symm.trans now
  | goes now taken _ ih =>
    cases h' with
    | refl => cases halted'.symm.trans now
    | goes now' taken' rest' =>
      cases now.symm.trans now'
      cases taken.symm.trans taken'
      obtain ⟨rfl, rfl⟩ := ih halted rest'
      exact ⟨rfl, rfl⟩

end Course

end

/-- What the actions leave, each at its reading of the clock. -/
def play (step : Nat → σ → α → Option (σ × List ω)) (s : σ) :
    List (Nat × α) → Option (List (Turn σ α ω) × σ)
  | [] => some ([], s)
  | (clock, a) :: rest => do
    let (u, out) ← step clock s a
    let (ts, s') ← play step u rest
    return (⟨clock, s, a, out⟩ :: ts, s')

theorem trace_of_play {actions : List (Nat × α)} (h : play step s actions = some (ts, s')) :
    Trace step s ts s' := by
  induction actions generalizing s ts with
  | nil =>
    obtain ⟨rfl, rfl⟩ : ts = [] ∧ s' = s := by simpa [play, eq_comm] using h
    exact .refl
  | cons action rest ih =>
    obtain ⟨clock, a⟩ := action
    simp only [play, Option.bind_eq_bind, Option.bind_eq_some_iff, Option.pure_def,
      Option.some.injEq, Prod.mk.injEq] at h
    obtain ⟨⟨u, out⟩, first, ⟨us, v⟩, others, rfl, rfl⟩ := h
    exact (Trace.single first).append (ih others)

theorem turns_of_play {actions : List (Nat × α)} (h : play step s actions = some (ts, s')) :
    ts.map (fun t => (t.clock, t.action)) = actions := by
  induction actions generalizing s ts with
  | nil =>
    obtain ⟨rfl, -⟩ : ts = [] ∧ s' = s := by simpa [play, eq_comm] using h
    rfl
  | cons action rest ih =>
    obtain ⟨clock, a⟩ := action
    simp only [play, Option.bind_eq_bind, Option.bind_eq_some_iff, Option.pure_def,
      Option.some.injEq, Prod.mk.injEq] at h
    obtain ⟨⟨u, out⟩, -, ⟨us, v⟩, others, rfl, rfl⟩ := h
    rw [List.map_cons, ih others]

theorem actions_of_play {actions : List (Nat × α)} (h : play step s actions = some (ts, s')) :
    ts.map (·.action) = actions.map (·.2) := by
  rw [← turns_of_play h, List.map_map]
  rfl

theorem forall_of_play {P : α → Prop} {actions : List (Nat × α)} (all : ∀ x ∈ actions, P x.2)
    (h : play step s actions = some (ts, s')) : ∀ t ∈ ts, P t.action := by
  intro t mem
  have action : t.action ∈ actions.map (·.2) := by
    rw [← actions_of_play h]
    exact List.mem_map_of_mem mem
  obtain ⟨x, mem, eq⟩ := List.mem_map.1 action
  exact eq ▸ all x mem

end SessionCourier
