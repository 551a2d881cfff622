import SessionCourier.Proofs.Json.Decoding
import SessionCourier.Wire.Request

set_option autoImplicit false

namespace SessionCourier

open Json

namespace Json.Record

variable {α β : Type} {r : Record (α → β)} {field : Record α} {source : Source}
  {get : String → Option Node} {name : String}

theorem and_ok {b : β} (ok : (r.and field).build source get = .ok b) :
    ∃ g a, r.build source get = .ok g ∧ field.build source get = .ok a ∧ g a = b := by
  rw [Record.and] at ok
  cases first : r.build source get with
  | error f => simp [first] at ok
  | ok g =>
    cases second : field.build source get with
    | error f => simp [first, second, Except.map] at ok
    | ok a =>
      simp only [first, second, Except.map, Except.ok.injEq] at ok
      exact ⟨g, a, rfl, rfl, ok⟩

theorem required_ok {d : Decoder α} {a : α} (ok : (required name d).build source get = .ok a) :
    ∃ n, get name = some n ∧ d source n = .ok a := by
  rw [required] at ok
  cases found : get name with
  | none => simp [found] at ok
  | some n =>
    simp only [found] at ok
    exact ⟨n, rfl, ok⟩

theorem body_ok {r : Record α} {expected : String} {n : Node} {a : α}
    (ok : r.body expected source n = .ok a) :
    ∃ start members wanted skipped, n = .object start members wanted skipped ∧
      r.build source (findMember members) = .ok a := by
  cases n with
  | object start members wanted skipped =>
    refine ⟨start, members, wanted, skipped, rfl, ?_⟩
    change r.ofMembers source members wanted = .ok a at ok
    unfold ofMembers at ok
    split at ok
    · cases ok
    · split at ok
      · cases ok
      · split at ok
        · rename_i built
          exact built.trans ok
        · cases ok
  | _ => cases ok

end Json.Record

theorem Json.Union.variant_of_decoder {α : Type} {u : Union α} (apart : u.content ≠ u.tag)
    {name : String} {body : Value} {a : α}
    (ok : u.decoder .value (Value.object [(u.tag, .string name), (u.content, body)]).toNode = .ok a) :
    ∃ d, u.variants.lookup name = some d ∧ d .value body.toNode = .ok a := by
  simp only [Value.toNode, Value.memberNodes, Union.decoder, Union.readMembers, if_true,
    if_neg apart, Union.readTag, oneOf, findVariant] at ok
  cases known : u.variants.lookup name with
  | none => simp [known, Union.placed, Except.map] at ok
  | some d =>
    refine ⟨d, rfl, ?_⟩
    cases decoded : d .value body.toNode with
    | error f => simp [known, decoded, Union.placed, Union.readContent, Except.map] at ok
    | ok b =>
      simpa [known, decoded, Union.placed, Union.readContent, Except.map, Union.finish] using ok

theorem Json.eq_of_text {source : Source} {n : Node} {s : String} (ok : text source n = .ok s) :
    ∃ after, n = .string (.ok s) after := by
  unfold text at ok
  split at ok
  · cases ok
    exact ⟨_, rfl⟩
  · cases ok

theorem Handle.eq_of_decoder {source : Source} {n : Node} {h : Handle}
    (ok : decoder source n = .ok h) : ∃ after, n = .string (.ok h.text) after := by
  rw [decoder, refine] at ok
  cases read : Json.text source n with
  | error f => simp [read] at ok
  | ok s =>
    simp only [read] at ok
    cases named : ofText? s with
    | none => simp [named] at ok
    | some h' =>
      simp only [named, Except.ok.injEq] at ok
      subst ok
      rw [ofText?] at named
      split at named
      · cases named
      · cases named
        exact eq_of_text read

namespace Notice

variable {source : Source} {n : Notice}

theorem handle_ok {β : Type} {f : Handle → β} {g : β} {get : String → Option Node}
    (ok : ((Record.pure f).and (.required "handle" Handle.decoder)).build source get = .ok g) :
    ∃ h node, get "handle" = some node ∧ Handle.decoder source node = .ok h ∧ g = f h := by
  obtain ⟨f', h, built, decoded, rfl⟩ := Record.and_ok ok
  obtain ⟨node, found, decoded⟩ := Record.required_ok decoded
  cases built
  exact ⟨h, node, found, decoded, rfl⟩

theorem bodyDecoder_ok {m : Method} {body : Node} (ok : bodyDecoder m source body = .ok n) :
    ∃ start members wanted skipped node, body = .object start members wanted skipped ∧
      Record.findMember members "handle" = some node ∧
      Handle.decoder source node = .ok n.handle := by
  cases m with
  | grantResource =>
    obtain ⟨start, members, wanted, skipped, rfl, built⟩ := Record.body_ok ok
    obtain ⟨withGrants, grants, first, -, rfl⟩ := Record.and_ok built
    obtain ⟨h, node, found, decoded, rfl⟩ := handle_ok first
    exact ⟨start, members, wanted, skipped, node, rfl, found, decoded⟩
  | revokeResource =>
    obtain ⟨start, members, wanted, skipped, rfl, built⟩ := Record.body_ok ok
    obtain ⟨withForce, force, second, -, rfl⟩ := Record.and_ok built
    obtain ⟨withGrants, grants, first, -, rfl⟩ := Record.and_ok second
    obtain ⟨h, node, found, decoded, rfl⟩ := handle_ok first
    exact ⟨start, members, wanted, skipped, node, rfl, found, decoded⟩
  | processDeadNode =>
    obtain ⟨start, members, wanted, skipped, rfl, built⟩ := Record.body_ok ok
    obtain ⟨withNode, name, first, -, rfl⟩ := Record.and_ok built
    obtain ⟨h, node, found, decoded, rfl⟩ := handle_ok first
    exact ⟨start, members, wanted, skipped, node, rfl, found, decoded⟩

theorem mem_variants {name : String} {d : Decoder Notice}
    (known : union.variants.lookup name = some d) : ∃ m, d = bodyDecoder m := by
  obtain ⟨before, after, whole, -⟩ := List.lookup_eq_some_iff.mp known
  have mem : (name, d) ∈ union.variants := whole ▸ List.mem_append_right _ List.mem_cons_self
  obtain ⟨m, -, same⟩ := List.mem_map.mp mem
  cases same
  exact ⟨m, rfl⟩

end Notice

namespace Wire.Request

variable {r : Request} {n : Notice}

theorem body_of_notice (ok : r.notice = .ok n) :
    ∃ m, Notice.bodyDecoder m .value r.params.toNode = .ok n := by
  have decoded : Notice.decoder .value
      (Value.object [("method", .string r.method), ("params", r.params)]).toNode = .ok n := by
    rw [notice, decodeValue] at ok
    split at ok
    · rename_i decoded
      cases ok
      exact decoded
    · cases ok
  obtain ⟨d, known, decoded⟩ := Union.variant_of_decoder (u := Notice.union) (by decide) decoded
  obtain ⟨m, rfl⟩ := Notice.mem_variants known
  exact ⟨m, decoded⟩

theorem handle_of_notice (ok : r.notice = .ok n) :
    ∃ members, r.params = .object members ∧
      members.lookup "handle" = some (.string n.handle.text) := by
  obtain ⟨m, decoded⟩ := body_of_notice ok
  obtain ⟨start, nodes, wanted, skipped, node, object, found, named⟩ :=
    Notice.bodyDecoder_ok decoded
  obtain ⟨after, rfl⟩ := Handle.eq_of_decoder named
  cases params : r.params with
  | object members =>
    rw [params, Value.toNode] at object
    cases object
    have finds := Record.finds_members (memberValues_memberNodes members) "handle"
    dsimp only at finds
    rw [found] at finds
    cases looked : members.lookup "handle" with
    | none =>
      rw [looked] at finds
      cases finds
    | some v =>
      rw [looked] at finds
      cases finds with
      | some value =>
        cases value
        exact ⟨members, rfl, looked⟩
  | _ =>
    rw [params] at object
    cases object

end Wire.Request

end SessionCourier
