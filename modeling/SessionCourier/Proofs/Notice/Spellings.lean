import Mathlib.Tactic.SplitIfs
import SessionCourier.Notice.Resource

set_option autoImplicit false

namespace SessionCourier.Resource

variable {text word : String} {r r' : Resource}

def spellings : Resource → List String
  | .map => ["map"]
  | .reduce => ["reduce"]
  | .jobTracker => ["job_tracker", "jobtracker"]
  | .cpu => ["cpu"]

theorem ofWord?_iff : ofWord? word = some r ↔ word ∈ r.spellings := by
  constructor
  · intro named
    unfold ofWord? at named
    split_ifs at named with map reduce tracker cpu
    all_goals cases named
    · exact List.mem_singleton.mpr map
    · exact List.mem_singleton.mpr reduce
    · exact List.mem_cons.mpr (tracker.imp_right List.mem_singleton.mpr)
    · exact List.mem_singleton.mpr cpu
  · have every : ∀ word ∈ r.spellings, ofWord? word = some r := by
      cases r <;> decide
    exact every word

theorem eq_of_spellings (mem : word ∈ r.spellings) (mem' : word ∈ r'.spellings) : r = r' :=
  Option.some.inj ((ofWord?_iff.mpr mem).symm.trans (ofWord?_iff.mpr mem'))

theorem parse_iff : parse text = .ok r ↔ lower text ∈ r.spellings := by
  rw [← ofWord?_iff, parse]
  cases ofWord? (lower text) with
  | some named => rw [Except.ok.injEq, Option.some_inj]
  | none => exact iff_of_false nofun nofun

end SessionCourier.Resource
