import SessionCourier.Proofs.CommandLine.Arguments
import SessionCourier.Proofs.Notice.Spellings

set_option autoImplicit false

namespace SessionCourier.CommandLine.Argument

variable {text address address' kind kind' node node' : String} {h h' : Handle} {a a' : Address}
  {r r' : Resource}

/-- `HANDLE=HOST:PORT`. The address begins after the first equals sign. -/
structure SessionForm (text : String) (h : Handle) (address : String) (a : Address) : Prop where
  whole : text = h.text ++ "=" ++ address
  first : '=' ∉ h.text.toList
  read : Address.parse address = .ok a

/-- `HANDLE:TYPE`. The kind begins after the last colon. -/
structure ResourceForm (text : String) (h : Handle) (kind : String) (r : Resource) : Prop where
  whole : text = h.text ++ ":" ++ kind
  last : ':' ∉ kind.toList
  spelt : Resource.lower kind ∈ r.spellings

/-- `HANDLE:NODE`. The node begins after the first colon. -/
structure NodeForm (text : String) (h : Handle) (node : String) : Prop where
  whole : text = h.text ++ ":" ++ node
  first : ':' ∉ h.text.toList
  named : node ≠ ""

theorem eq_of_text (same : h.text = h'.text) : h = h' := by
  cases h
  cases h'
  cases same
  rfl

theorem SessionForm.unique (form : SessionForm text h address a)
    (form' : SessionForm text h' address' a') : h = h' ∧ address = address' ∧ a = a' := by
  obtain ⟨named, rfl⟩ := Text.eq_of_joined_first '=' rfl (form.whole.symm.trans form'.whole)
    form.first form'.first
  exact ⟨eq_of_text named, rfl, Except.ok.inj (form.read.symm.trans form'.read)⟩

theorem ResourceForm.unique (form : ResourceForm text h kind r)
    (form' : ResourceForm text h' kind' r') : h = h' ∧ kind = kind' ∧ r = r' := by
  obtain ⟨named, rfl⟩ := Text.eq_of_joined_last ':' rfl (form.whole.symm.trans form'.whole)
    form.last form'.last
  exact ⟨eq_of_text named, rfl, Resource.eq_of_spellings form.spelt form'.spelt⟩

theorem NodeForm.unique (form : NodeForm text h node) (form' : NodeForm text h' node') :
    h = h' ∧ node = node' := by
  obtain ⟨named, same⟩ := Text.eq_of_joined_first ':' rfl (form.whole.symm.trans form'.whole)
    form.first form'.first
  exact ⟨eq_of_text named, same⟩

theorem session_iff_form : session text = .ok (h, a) ↔ ∃ address, SessionForm text h address a := by
  rw [session_iff]
  refine exists_congr fun address => ⟨fun ⟨whole, first, read⟩ => ?_, fun form => ?_⟩
  · exact ⟨whole, first, read⟩
  · exact ⟨form.whole, form.first, form.read⟩

theorem resource_iff_form : resource text = .ok (h, r) ↔ ∃ kind, ResourceForm text h kind r := by
  rw [resource_iff]
  refine exists_congr fun kind => ⟨fun ⟨whole, read⟩ => ?_, fun form => ?_⟩
  · exact ⟨whole, absent_of_parse read, Resource.parse_iff.mp read⟩
  · exact ⟨form.whole, Resource.parse_iff.mpr form.spelt⟩

theorem deadNode_iff_form : deadNode text = .ok (h, node) ↔ NodeForm text h node := by
  rw [deadNode_iff]
  exact ⟨fun ⟨whole, first, named⟩ => ⟨whole, first, named⟩,
    fun form => ⟨form.whole, form.first, form.named⟩⟩

/-- A session, a resource and a dead node are read from exactly the texts of their forms, and no text
has such a form in two ways. -/
theorem read_by_form (text : String) :
    (∀ h a, session text = .ok (h, a) ↔ ∃ address, SessionForm text h address a) ∧
    (∀ h r, resource text = .ok (h, r) ↔ ∃ kind, ResourceForm text h kind r) ∧
    (∀ h node, deadNode text = .ok (h, node) ↔ NodeForm text h node) ∧
    (∀ h address a h' address' a', SessionForm text h address a → SessionForm text h' address' a' →
      h = h' ∧ address = address' ∧ a = a') ∧
    (∀ h kind r h' kind' r', ResourceForm text h kind r → ResourceForm text h' kind' r' →
      h = h' ∧ kind = kind' ∧ r = r') ∧
    ∀ h node h' node', NodeForm text h node → NodeForm text h' node' → h = h' ∧ node = node' := by
  refine ⟨?_, ?_, ?_, ?_, ?_, ?_⟩
  · intro h a
    exact session_iff_form
  · intro h r
    exact resource_iff_form
  · intro h node
    exact deadNode_iff_form
  · intro h address a h' address' a' form form'
    exact form.unique form'
  · intro h kind r h' kind' r' form form'
    exact form.unique form'
  · intro h node h' node' form form'
    exact form.unique form'

/-- Separators in every part. -/
theorem read_by_form_crowded :
    session "job:1=a=b:+07" = .ok (numbered, ⟨"a=b", 7⟩) ∧
    resource "job:1:JobTracker" = .ok (numbered, .jobTracker) ∧
    deadNode "job:1:2" = .ok (plain, "1:2") ∧ ¬NodeForm "job:1:2" numbered "2" := by
  have node : NodeForm "job:1:2" plain "1:2" := ⟨by decide, by decide, by decide⟩
  refine ⟨?_, ?_, ?_, fun other => ?_⟩
  · exact ((read_by_form _).1 _ _).mpr ⟨"a=b:+07", by decide, by decide, by decide⟩
  · exact ((read_by_form _).2.1 _ _).mpr ⟨"JobTracker", by decide, by decide, by decide⟩
  · exact ((read_by_form _).2.2.1 _ _).mpr node
  · have same := ((read_by_form _).2.2.2.2.2 _ _ _ _ node other).2
    exact absurd same (by decide)

end SessionCourier.CommandLine.Argument
