import SessionCourier.Notice.Basic
import SessionCourier.Proofs.Json.Decoding

set_option autoImplicit false

namespace SessionCourier

open Json

theorem Handle.takes_encode (h : Handle) : Takes decoder h.encode h :=
  takes_refine (takes_text h.text) (by rw [ofText?_text])

theorem Resource.takes_encode (r : Resource) : Takes decoder r.encode r :=
  takes_oneOf (by cases r <;> rfl)

namespace Address

variable (a : Address)

theorem written : record.Written [("host", .string a.host), ("port", .integer a.port.toNat)] a where
  nodup := (by decide : ["host", "port"].Nodup)
  known := List.Subset.refl ["host", "port"]
  fills := ((Record.fills_pure Address.mk).and (Record.fills_required (takes_text a.host) rfl)).and
    (Record.fills_required (takes_word16 a.port) rfl)

theorem takes_canonical : Takes decoder a.encode.canonical a :=
  Record.takes_decoder "struct HostPort" a.written.sorted

theorem readable_encode (depth : Nat) : Readable (depth + 1) a.encode := by
  have port : Fits a.port.toNat := fits_natCast (Nat.lt_trans a.port.toNat_lt (by decide))
  apply Readable.object
  simp [Readable.string, Readable.integer port]

end Address

namespace Grant

variable {look : String → Option Value}

theorem fills (g : Grant) (id : look "id" = some (.integer g.id.toNat))
    (type : look "type" = some g.resource.encode)
    (nodeName : look "nodeName" = some (.string g.nodeName))
    (nodeAddress : look "nodeAddress" = some g.nodeAddress.encode.canonical)
    (appInfo : (Record.orElse "appInfo" (option text) none).Fills look g.appInfo) :
    record.Fills look g :=
  (((((Record.fills_pure Grant.mk).and (Record.fills_required (takes_word32 g.id) id)).and
    (Record.fills_required g.resource.takes_encode type)).and
    (Record.fills_required (takes_text g.nodeName) nodeName)).and
    (Record.fills_required g.nodeAddress.takes_canonical nodeAddress)).and appInfo

theorem takes_canonical (g : Grant) : Takes decoder g.encode.canonical g := by
  apply Record.takes_decoder
  apply Record.Written.sorted
  obtain ⟨id, resource, nodeName, nodeAddress, appInfo⟩ := g
  cases appInfo with
  | none =>
    refine ⟨(by decide : ["id", "type", "nodeName", "nodeAddress"].Nodup),
      (by decide : ["id", "type", "nodeName", "nodeAddress"] ⊆
        ["id", "type", "nodeName", "nodeAddress", "appInfo"]), ?_⟩
    exact fills _ rfl rfl rfl rfl (Record.fills_orElse_absent (option text) none rfl)
  | some info =>
    refine ⟨(by decide : ["id", "type", "nodeName", "nodeAddress", "appInfo"].Nodup),
      List.Subset.refl ["id", "type", "nodeName", "nodeAddress", "appInfo"], ?_⟩
    have note : Takes (option text) (.string info) (some info) :=
      takes_option_some (takes_text info) nofun
    exact fills _ rfl rfl rfl rfl (Record.fills_orElse none note rfl)

theorem readable_encode (g : Grant) (depth : Nat) : Readable (depth + 2) g.encode := by
  have id : Fits g.id.toNat := fits_natCast (Nat.lt_trans g.id.toNat_lt (by decide))
  have address := g.nodeAddress.readable_encode depth
  apply Readable.object
  cases g.appInfo <;>
    simp [Readable.string, Readable.integer id, address, Resource.encode]

end Grant

namespace Notice

variable {look : String → Option Value}

theorem takes_grants (gs : List Grant) :
    Takes (list Grant.decoder) (Value.list (gs.map Grant.encode)).canonical gs := by
  rw [Value.canonical, Value.canonicalItems_eq, List.map_map]
  exact takes_list fun g _ => g.takes_canonical

theorem takes_body (n : Notice) : Takes (bodyDecoder n.method) n.params.canonical n := by
  cases n with
  | grant h gs =>
    refine Record.takes_body _ (Record.Written.sorted ⟨(by decide : ["handle", "grants"].Nodup),
      List.Subset.refl ["handle", "grants"], ?_⟩)
    exact ((Record.fills_pure Notice.grant).and (Record.fills_required h.takes_encode rfl)).and
      (Record.fills_required (takes_grants gs) rfl)
  | revoke h gs force =>
    refine Record.takes_body _ (Record.Written.sorted
      ⟨(by decide : ["handle", "grants", "force"].Nodup),
        List.Subset.refl ["handle", "grants", "force"], ?_⟩)
    exact (((Record.fills_pure Notice.revoke).and (Record.fills_required h.takes_encode rfl)).and
      (Record.fills_required (takes_grants gs) rfl)).and
      (Record.fills_required (takes_boolean force) rfl)
  | deadNode h node =>
    refine Record.takes_body _ (Record.Written.sorted ⟨(by decide : ["handle", "node"].Nodup),
      List.Subset.refl ["handle", "node"], ?_⟩)
    exact ((Record.fills_pure Notice.deadNode).and (Record.fills_required h.takes_encode rfl)).and
      (Record.fills_required (takes_text node) rfl)

theorem takes_sorted (n : Notice) :
    Takes decoder (.object [("method", .string n.method.label), ("params", n.params.canonical)]) n :=
  Union.takes_decoder (u := union) (by decide) (by cases n.method <;> rfl) n.takes_body

theorem readable_grants (gs : List Grant) (depth : Nat) :
    Readable (depth + 3) (.list (gs.map Grant.encode)) := by
  apply Readable.list
  intro v mem
  obtain ⟨g, -, rfl⟩ := List.mem_map.1 mem
  exact g.readable_encode depth

/-- Parameters hold the list of grants, which hold an address each. -/
theorem readable_params (n : Notice) (depth : Nat) : Readable (depth + 4) n.params := by
  cases n with
  | grant h gs =>
    apply Readable.object
    simp [Readable.string, readable_grants gs depth, Handle.encode]
  | revoke h gs force =>
    apply Readable.object
    simp [Readable.string, Readable.boolean, readable_grants gs depth, Handle.encode]
  | deadNode h node =>
    apply Readable.object
    simp [Readable.string, Handle.encode]

end Notice

end SessionCourier
