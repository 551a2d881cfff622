import Mathlib.Data.List.TakeWhile
import SessionCourier.Text.Split

set_option autoImplicit false

namespace SessionCourier.Text

variable {separator : Char} {text before after : List Char}

theorem passes_of_absent (absent : separator ∉ text) :
    ∀ c ∈ text, decide (c ≠ separator) = true := fun _ mem =>
  decide_eq_true fun same => absent (same ▸ mem)

theorem splitFirst?_none (absent : separator ∉ text) : splitFirst? separator text = none := by
  rw [splitFirst?, List.dropWhile_eq_nil_iff.mpr (passes_of_absent absent)]

theorem splitFirst?_append (absent : separator ∉ before) :
    splitFirst? separator (before ++ separator :: after) = some (before, after) := by
  have passed := passes_of_absent absent
  rw [splitFirst?, List.dropWhile_append_of_pos passed, List.dropWhile_cons_of_neg (by simp),
    List.takeWhile_append_of_pos passed, List.takeWhile_cons_of_neg (by simp), List.append_nil]

theorem splitFirst?_iff :
    splitFirst? separator text = some (before, after) ↔
      text = before ++ separator :: after ∧ separator ∉ before := by
  constructor
  · intro split
    by_cases mem : separator ∈ text
    · obtain ⟨first, later, rfl, absent⟩ := List.eq_append_cons_of_mem mem
      rw [splitFirst?_append absent] at split
      obtain ⟨rfl, rfl⟩ := Prod.mk.inj (Option.some.inj split)
      exact ⟨rfl, absent⟩
    · rw [splitFirst?_none mem] at split
      cases split
  · rintro ⟨rfl, absent⟩
    exact splitFirst?_append absent

theorem splitLast?_iff :
    splitLast? separator text = some (before, after) ↔
      text = before ++ separator :: after ∧ separator ∉ after := by
  have turned : splitLast? separator text = some (before, after) ↔
      splitFirst? separator text.reverse = some (after.reverse, before.reverse) := by
    rw [splitLast?, Option.map_eq_some_iff]
    constructor
    · rintro ⟨⟨left, right⟩, split, same⟩
      obtain ⟨rfl, rfl⟩ := Prod.mk.inj same
      rw [split, List.reverse_reverse, List.reverse_reverse]
    · intro split
      exact ⟨_, split, by rw [List.reverse_reverse, List.reverse_reverse]⟩
  rw [turned, splitFirst?_iff, List.mem_reverse, List.reverse_eq_iff, List.reverse_append,
    List.reverse_cons, List.reverse_reverse, List.reverse_reverse, List.append_assoc,
    List.singleton_append]

variable {mark : String}

theorem toList_joined (separator : Char) (single : mark.toList = [separator])
    (before after : String) :
    (before ++ mark ++ after).toList = before.toList ++ separator :: after.toList := by
  rw [String.toList_append, String.toList_append, single, List.append_assoc, List.singleton_append]

theorem joined_iff {text before : String} (separator : Char) (single : mark.toList = [separator]) :
    text = before ++ mark ++ String.ofList after ↔
      text.toList = before.toList ++ separator :: after := by
  rw [← String.toList_inj, toList_joined separator single, String.toList_ofList]

theorem eq_of_joined_first {before after before' after' : String} (separator : Char)
    (single : mark.toList = [separator])
    (same : before ++ mark ++ after = before' ++ mark ++ after')
    (absent : separator ∉ before.toList) (absent' : separator ∉ before'.toList) :
    before = before' ∧ after = after' := by
  have split : splitFirst? separator (before.toList ++ separator :: after.toList) =
      some (before.toList, after.toList) := splitFirst?_append absent
  rw [← toList_joined separator single, same, toList_joined separator single,
    splitFirst?_append absent'] at split
  obtain ⟨left, right⟩ := Prod.mk.inj (Option.some.inj split)
  exact ⟨String.toList_inj.mp left.symm, String.toList_inj.mp right.symm⟩

theorem eq_of_joined_last {before after before' after' : String} (separator : Char)
    (single : mark.toList = [separator])
    (same : before ++ mark ++ after = before' ++ mark ++ after')
    (absent : separator ∉ after.toList) (absent' : separator ∉ after'.toList) :
    before = before' ∧ after = after' := by
  have split := splitLast?_iff.mpr ⟨toList_joined separator single before after, absent⟩
  rw [same, splitLast?_iff.mpr ⟨toList_joined separator single before' after', absent'⟩] at split
  obtain ⟨left, right⟩ := Prod.mk.inj (Option.some.inj split)
  exact ⟨String.toList_inj.mp left.symm, String.toList_inj.mp right.symm⟩

end SessionCourier.Text
