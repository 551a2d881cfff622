import Mathlib.Data.List.TakeWhile
import SessionCourier.CommandLine.Argument
import SessionCourier.Proofs.Session.Addresses

set_option autoImplicit false

namespace SessionCourier.CommandLine.Argument

variable {text : String} {h : Handle}

theorem handle_iff {cs : List Char} : handle cs = .ok h ↔ cs = h.text.toList := by
  rw [handle, Handle.ofText?]
  constructor
  · intro named
    split at named
    · rename_i given found
      split at found
      · cases found
      · cases found
        cases named
        exact String.toList_ofList.symm
    · cases named
  · rintro rfl
    rw [String.ofList_toList]
    simp [h.nonempty]

theorem handle_bind_iff {β : Type} {cs : List Char} {next : Handle → Except Refusal β} {b : β} :
    (handle cs >>= next) = .ok b ↔ ∃ h, cs = h.text.toList ∧ next h = .ok b := by
  constructor
  · intro read
    cases named : handle cs with
    | error refusal =>
      rw [named] at read
      cases read
    | ok h =>
      rw [named] at read
      exact ⟨h, handle_iff.mp named, read⟩
  · rintro ⟨h, shape, read⟩
    rw [handle_iff.mpr shape]
    exact read

theorem session_iff {a : Address} :
    session text = .ok (h, a) ↔ ∃ after, text = h.text ++ "=" ++ after ∧
      '=' ∉ h.text.toList ∧ Address.parse after = .ok a := by
  constructor
  · intro read
    unfold session at read
    split at read
    · cases read
    · rename_i before after split
      obtain ⟨h', rfl, rest⟩ := handle_bind_iff.mp read
      obtain ⟨whole, absent⟩ := Text.splitFirst?_iff.mp split
      cases address : Address.parse (String.ofList after) with
      | error refusal =>
        rw [address] at rest
        cases rest
      | ok a' =>
        rw [address] at rest
        cases rest
        exact ⟨String.ofList after, (Text.joined_iff '=' rfl).mpr whole, absent, address⟩
  · rintro ⟨after, rfl, absent, address⟩
    rw [session, Text.toList_joined '=' rfl, Text.splitFirst?_append absent]
    refine handle_bind_iff.mpr ⟨h, rfl, ?_⟩
    rw [String.ofList_toList, address]

theorem absent_of_parse {r : Resource} (read : Resource.parse text = .ok r) :
    ':' ∉ text.toList := by
  intro mem
  have lowered : ':' ∈ (Resource.lower text).toList := by
    rw [Resource.lower, String.toList_ofList]
    exact List.mem_map.mpr ⟨':', mem, by decide⟩
  have known : Resource.lower text ∈ ["map", "reduce", "job_tracker", "jobtracker", "cpu"] := by
    by_contra other
    simp only [List.mem_cons, List.not_mem_nil, or_false, not_or] at other
    simp [Resource.parse, Resource.ofWord?, other] at read
  have clear : ∀ word ∈ ["map", "reduce", "job_tracker", "jobtracker", "cpu"], ':' ∉ word.toList := by
    decide
  exact clear _ known lowered

theorem resource_iff {r : Resource} :
    resource text = .ok (h, r) ↔ ∃ after, text = h.text ++ ":" ++ after ∧
      Resource.parse after = .ok r := by
  constructor
  · intro read
    unfold resource at read
    split at read
    · cases read
    · rename_i before after split
      obtain ⟨h', rfl, rest⟩ := handle_bind_iff.mp read
      obtain ⟨whole, absent⟩ := Text.splitLast?_iff.mp split
      cases kind : Resource.parse (String.ofList after) with
      | error refusal =>
        rw [kind] at rest
        cases rest
      | ok r' =>
        rw [kind] at rest
        cases rest
        exact ⟨String.ofList after, (Text.joined_iff ':' rfl).mpr whole, kind⟩
  · rintro ⟨after, rfl, kind⟩
    rw [resource, Text.splitLast?_iff.mpr ⟨Text.toList_joined ':' rfl _ _, absent_of_parse kind⟩]
    refine handle_bind_iff.mpr ⟨h, rfl, ?_⟩
    rw [String.ofList_toList, kind]

theorem deadNode_append {before node : String} (absent : ':' ∉ before.toList) (named : node ≠ "") :
    deadNode (before ++ ":" ++ node) = (handle before.toList).map fun h => (h, node) := by
  have some_left : node.toList ≠ [] := mt String.toList_eq_nil_iff.mp named
  obtain ⟨c, cs, shape⟩ := List.exists_cons_of_ne_nil some_left
  rw [deadNode, Text.toList_joined ':' rfl, Text.splitFirst?_append absent, shape]
  dsimp only
  rw [← shape, String.ofList_toList]
  cases handle before.toList <;> rfl

theorem deadNode_iff {node : String} :
    deadNode text = .ok (h, node) ↔ text = h.text ++ ":" ++ node ∧
      ':' ∉ h.text.toList ∧ node ≠ "" := by
  constructor
  · intro read
    unfold deadNode at read
    split at read
    · cases read
    · cases read
    · rename_i before after named split
      obtain ⟨h', rfl, rest⟩ := handle_bind_iff.mp read
      obtain ⟨whole, absent⟩ := Text.splitFirst?_iff.mp split
      cases rest
      exact ⟨(Text.joined_iff ':' rfl).mpr whole, absent, mt String.ofList_eq_empty_iff.mp named⟩
  · rintro ⟨rfl, absent, named⟩
    rw [deadNode_append absent named, handle_iff.mpr rfl]
    rfl

/-- Some argument registers a session under the handle. -/
def Registers (h : Handle) : Prop := ∃ text a, session text = .ok (h, a)

theorem registers_iff : Registers h ↔ '=' ∉ h.text.toList := by
  constructor
  · rintro ⟨text, a, read⟩
    obtain ⟨after, -, absent, -⟩ := session_iff.mp read
    exact absent
  · intro absent
    have listens : Address.parse (Address.render ⟨"driver", 7070⟩) = .ok ⟨"driver", 7070⟩ :=
      Address.parse_render (by decide)
    exact ⟨_, _, session_iff.mpr ⟨_, rfl, absent, listens⟩⟩

/-- The arguments that are written for the handle of a session. Every handle without an equals sign
can be registered. A grant or a revoke reaches the session whose handle stands before it, whatever the
handle is. A report of a dead node does so exactly if the handle has no colon; otherwise it goes to
the session named by what stands before the first colon of the handle, with the rest of the handle as
a part of the node, or is refused if nothing stands there. -/
theorem arguments_reach_session (h : Handle) :
    (Registers h ↔ '=' ∉ h.text.toList) ∧
    (∀ kind r, Resource.parse kind = .ok r → resource (h.text ++ ":" ++ kind) = .ok (h, r)) ∧
    (∀ node, node ≠ "" →
      (deadNode (h.text ++ ":" ++ node) = .ok (h, node) ↔ ':' ∉ h.text.toList)) ∧
    ∀ first rest node, h.text = first ++ ":" ++ rest → ':' ∉ first.toList →
      deadNode (h.text ++ ":" ++ node) =
        (handle first.toList).map fun other => (other, rest ++ ":" ++ node) := by
  refine ⟨registers_iff, fun kind r read => resource_iff.mpr ⟨kind, rfl, read⟩,
    fun node named => ?_, fun first rest node shape absent => ?_⟩
  · rw [deadNode_iff, and_iff_right rfl, and_iff_left named]
  · have longer : h.text ++ ":" ++ node = first ++ ":" ++ (rest ++ ":" ++ node) := by
      rw [shape]
      simp only [String.append_assoc]
    rw [longer]
    refine deadNode_append absent fun none_left => ?_
    simpa using congrArg String.toList none_left

/-- A session with a colon in its handle, and one that its reports go to. -/
def numbered : Handle := ⟨"job:1", by decide⟩

def plain : Handle := ⟨"job", by decide⟩

theorem arguments_reach_session_numbered :
    Registers numbered ∧ resource "job:1:CPU" = .ok (numbered, .cpu) ∧
      deadNode "job:1:node-3" ≠ .ok (numbered, "node-3") ∧
      deadNode "job:1:node-3" = .ok (plain, "1:node-3") := by
  obtain ⟨registered, takes, reports, passes⟩ := arguments_reach_session numbered
  refine ⟨registered.mpr (by decide), takes "CPU" .cpu (by decide), fun reported => ?_, ?_⟩
  · exact (reports "node-3" (by decide)).mp reported (by decide)
  · exact (passes "job" "1" "node-3" rfl (by decide)).trans (by rfl)

/-- Not every report that is written for a registered session reaches it. -/
theorem report_of_other_session :
    (Registers numbered ∧ Registers plain ∧
      deadNode (numbered.text ++ ":" ++ "node-3") = .ok (plain, "1:node-3")) ∧
    ¬∀ h, Registers h → ∀ node, node ≠ "" →
      deadNode (h.text ++ ":" ++ node) = .ok (h, node) := by
  have registered : Registers numbered := registers_iff.mpr (by decide)
  refine ⟨⟨registered, registers_iff.mpr (by decide), ?_⟩, fun claimed => ?_⟩
  · exact deadNode_iff.mpr ⟨by decide, by decide, by decide⟩
  · have reached := claimed numbered registered "node-3" (by decide)
    exact (deadNode_iff.mp reached).2.1 (by decide)

end SessionCourier.CommandLine.Argument
