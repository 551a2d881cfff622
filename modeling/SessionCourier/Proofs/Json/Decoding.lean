import SessionCourier.Json.Decoder
import SessionCourier.Proofs.Json.Canonical

set_option autoImplicit false

namespace SessionCourier.Json

variable {α β : Type} {d : Decoder α} {a : α} {v : Value} {n : Node} {name : String}

/-- The decoder returns this result from every node of the value. -/
def Takes (d : Decoder α) (v : Value) (a : α) : Prop :=
  ∀ s n, n.value = .ok v → d s n = .ok a

/-- All that a node with a value can be. -/
inductive NodeOf : Value → Node → Prop where
  | null (start after : Rest) : NodeOf .null (.null start after)
  | boolean (b : Bool) (start after : Rest) : NodeOf (.boolean b) (.boolean b start after)
  | integer (i : Int) (start after : Rest) :
      NodeOf (.integer i) (.number (.ok (.integer i)) start after)
  | float (x : Float) (start after : Rest) :
      NodeOf (.float x) (.number (.ok (.float x)) start after)
  | string (text : String) (after : Rest) : NodeOf (.string text) (.string (.ok text) after)
  | list {items : List Node} {vs : List Value} (start after : Rest) (skipped : Except Fault Rest)
      (values : Node.itemValues items = .ok vs) :
      NodeOf (.list vs) (.list start items (.ok after) skipped)
  | object {members : List (Key × Node)} {ms : List (String × Value)} (start after : Rest)
      (skipped : Except Fault Rest) (values : Node.memberValues members = .ok ms) :
      NodeOf (.object ms) (.object start members (.ok after) skipped)

theorem nodeOf_value (value : n.value = .ok v) : NodeOf v n := by
  cases n with
  | null start after =>
    cases value
    exact .null start after
  | boolean b start after =>
    cases value
    exact .boolean b start after
  | number number start after =>
    match number with
    | .ok (.integer i) =>
      cases value
      exact .integer i start after
    | .ok (.float x) =>
      cases value
      exact .float x start after
    | .error f => cases value
  | string text after =>
    cases text with
    | ok s =>
      cases value
      exact .string s after
    | error f => cases value
  | list start items wanted skipped =>
    cases values : Node.itemValues items <;> cases wanted <;>
      simp only [Node.value, values] at value <;> cases value
    exact .list start _ skipped values
  | object start members wanted skipped =>
    cases values : Node.memberValues members <;> cases wanted <;>
      simp only [Node.value, values] at value <;> cases value
    exact .object start _ skipped values
  | deep => cases value
  | broken => cases value
  | absent => cases value

theorem itemValues_eq_nil {ns : List Node} (values : Node.itemValues ns = .ok []) : ns = [] := by
  cases ns with
  | nil => rfl
  | cons n ns =>
    cases first : n.value <;> cases later : Node.itemValues ns <;>
      simp only [Node.itemValues, first, later] at values <;> cases values

theorem itemValues_eq_cons {ns : List Node} {vs : List Value}
    (values : Node.itemValues ns = .ok (v :: vs)) :
    ∃ m ms, ns = m :: ms ∧ m.value = .ok v ∧ Node.itemValues ms = .ok vs := by
  cases ns with
  | nil => cases values
  | cons n ns =>
    cases first : n.value <;> cases later : Node.itemValues ns <;>
      simp only [Node.itemValues, first, later] at values <;> cases values
    exact ⟨n, ns, rfl, first, later⟩

theorem memberValues_eq_nil {nodes : List (Key × Node)}
    (values : Node.memberValues nodes = .ok []) : nodes = [] := by
  cases nodes with
  | nil => rfl
  | cons m nodes =>
    obtain ⟨⟨text, after⟩, n⟩ := m
    cases text <;> cases first : n.value <;> cases later : Node.memberValues nodes <;>
      simp only [Node.memberValues, first, later] at values <;> cases values

theorem memberValues_eq_cons {nodes : List (Key × Node)} {ms : List (String × Value)}
    (values : Node.memberValues nodes = .ok ((name, v) :: ms)) :
    ∃ after n more, nodes = (⟨.ok name, after⟩, n) :: more ∧ n.value = .ok v ∧
      Node.memberValues more = .ok ms := by
  cases nodes with
  | nil => cases values
  | cons m nodes =>
    obtain ⟨⟨text, after⟩, n⟩ := m
    cases text <;> cases first : n.value <;> cases later : Node.memberValues nodes <;>
      simp only [Node.memberValues, first, later] at values <;> cases values
    exact ⟨after, n, nodes, rfl, first, later⟩

theorem takes_text (s : String) : Takes text (.string s) s := by
  intro source n value
  cases nodeOf_value value
  rfl

theorem takes_boolean (b : Bool) : Takes boolean (.boolean b) b := by
  intro source n value
  cases nodeOf_value value
  rfl

theorem takes_natural {bound k : Nat} (expected : String) (within : k ≤ bound) :
    Takes (natural bound expected) (.integer k) k := by
  intro source n value
  cases nodeOf_value value
  have range : (0 : Int) ≤ k ∧ (k : Int) ≤ Int.ofNat bound := ⟨by omega, Int.ofNat_le.2 within⟩
  rw [natural, if_pos range, Int.toNat_natCast]

theorem takes_word64 (expected : String) (w : UInt64) :
    Takes (word64 expected) (.integer w.toNat) w := by
  intro source n value
  rw [word64, takes_natural expected (Nat.le_sub_one_of_lt w.toNat_lt) source n value]
  exact congrArg Except.ok UInt64.ofNat_toNat

theorem takes_word32 (w : UInt32) : Takes word32 (.integer w.toNat) w := by
  intro source n value
  rw [word32, takes_natural "u32" (Nat.le_sub_one_of_lt w.toNat_lt) source n value]
  exact congrArg Except.ok UInt32.ofNat_toNat

theorem takes_word16 (w : UInt16) : Takes word16 (.integer w.toNat) w := by
  intro source n value
  rw [word16, takes_natural "u16" (Nat.le_sub_one_of_lt w.toNat_lt) source n value]
  exact congrArg Except.ok UInt16.ofNat_toNat

theorem takes_anyValue (v : Value) : Takes anyValue v v.canonical := by
  intro source n value
  rw [anyValue, value]
  rfl

theorem takes_option_none (d : Decoder α) : Takes (option d) .null none := by
  intro source n value
  cases nodeOf_value value
  rfl

theorem takes_option_some (takes : Takes d v a) (present : v ≠ .null) :
    Takes (option d) v (some a) := by
  intro source n value
  have taken := takes source n value
  cases nodeOf_value value with
  | null => exact absurd rfl present
  | _ =>
    simp only [option, taken]
    rfl

theorem takes_refine {check : α → Except String β} {b : β} (takes : Takes d v a)
    (checked : check a = .ok b) : Takes (refine d check) v b := by
  intro source n value
  simp only [refine, takes source n value, checked]

theorem takes_oneOf {known : List (String × α)} (named : known.lookup name = some a) :
    Takes (oneOf known) (.string name) a := by
  intro source n value
  cases nodeOf_value value
  simp only [oneOf, findVariant, named]

theorem listItems_ok {encode : α → Value} {as : List α} (source : Source)
    (takes : ∀ a ∈ as, Takes d (encode a) a) {ns : List Node}
    (values : Node.itemValues ns = .ok (as.map encode)) : listItems d source ns = .ok as := by
  induction as generalizing ns with
  | nil =>
    obtain rfl := itemValues_eq_nil values
    rfl
  | cons a as ih =>
    obtain ⟨n, ns, rfl, first, later⟩ := itemValues_eq_cons values
    rw [listItems, takes a List.mem_cons_self source n first]
    simp only [ih (fun b mem => takes b (List.mem_cons_of_mem a mem)) later]
    rfl

theorem takes_list {encode : α → Value} {as : List α} (takes : ∀ a ∈ as, Takes d (encode a) a) :
    Takes (list d) (.list (as.map encode)) as := by
  intro source n value
  cases nodeOf_value value with
  | list start after skipped values => simp only [list, listItems_ok source takes values]

namespace Record

variable {r : Record α} {field : Record β} {look : String → Option Value}
  {get : String → Option Node} {ms : List (String × Value)} {nodes : List (Key × Node)}
  {fields : List Field}

/-- The nodes found by name are those of the values found by name. -/
def Finds (get : String → Option Node) (look : String → Option Value) : Prop :=
  ∀ name, Option.Rel (fun n v => n.value = .ok v) (get name) (look name)

structure Fills (r : Record α) (look : String → Option Value) (a : α) : Prop where
  check : ∀ f ∈ r.fields, ∀ s n v, look f.name = some v → n.value = .ok v → f.check s n = .ok ()
  build : ∀ s get, Finds get look → r.build s get = .ok a

theorem fills_pure (a : α) : (Record.pure a).Fills look a := ⟨nofun, fun _ _ _ => rfl⟩

theorem Fills.and {r : Record (β → α)} {g : β → α} {b : β} (fills : r.Fills look g)
    (more : field.Fills look b) : (r.and field).Fills look (g b) where
  check f mem := by
    rcases List.mem_append.1 mem with old | new
    · exact fills.check f old
    · exact more.check f new
  build s get finds := by
    simp only [Record.and, fills.build s get finds, more.build s get finds]
    rfl

theorem fills_present {lack : Bool} (takes : Takes d v a) (found : look name = some v)
    (fields : r.fields = [⟨name, fun s n => (d s n).map fun _ => (), lack⟩])
    (build : ∀ s get n, get name = some n → r.build s get = d s n) : r.Fills look a where
  check f mem s n w known value := by
    rw [fields, List.mem_singleton] at mem
    subst mem
    obtain rfl : v = w := Option.some.inj (found.symm.trans known)
    exact congrArg (Except.map fun _ => ()) (takes s n value)
  build s get finds := by
    have rel := finds name
    rw [found] at rel
    cases node : get name with
    | none =>
      rw [node] at rel
      cases rel
    | some n =>
      rw [node] at rel
      cases rel with
      | some value => rw [build s get n node, takes s n value]

theorem fills_required (takes : Takes d v a) (found : look name = some v) :
    (required name d).Fills look a :=
  fills_present takes found rfl fun s get n node => by simp only [required, node]

theorem fills_orElse (absent : α) (takes : Takes d v a) (found : look name = some v) :
    (orElse name d absent).Fills look a :=
  fills_present takes found rfl fun s get n node => by simp only [orElse, node]

theorem fills_orElse_absent (d : Decoder α) (absent : α) (missing : look name = none) :
    (orElse name d absent).Fills look absent where
  check f mem s n v known value := by
    obtain rfl := List.mem_singleton.1 mem
    cases missing.symm.trans known
  build s get finds := by
    have rel := finds name
    rw [missing] at rel
    cases node : get name with
    | none => simp only [orElse, node]
    | some n =>
      rw [node] at rel
      cases rel

theorem fills_nullable {a : Option α} (takes : Takes (option d) v a) (found : look name = some v) :
    (nullable name d).Fills look a :=
  fills_present takes found rfl fun s get n node => by simp only [nullable, node]

theorem findMember_cons (key : String) (after : Rest) (n : Node) (name : String) :
    findMember ((⟨.ok key, after⟩, n) :: nodes) name =
      if key = name then some n else findMember nodes name := by
  rw [findMember, List.find?_cons, findMember]
  by_cases same : key = name <;> simp [same]

theorem finds_members (values : Node.memberValues nodes = .ok ms) :
    Finds (findMember nodes) (fun name => ms.lookup name) := by
  intro name
  induction ms generalizing nodes with
  | nil =>
    obtain rfl := memberValues_eq_nil values
    exact .none
  | cons m ms ih =>
    obtain ⟨key, v⟩ := m
    obtain ⟨after, n, more, rfl, first, later⟩ := memberValues_eq_cons values
    simp only [findMember_cons, lookup_member]
    split_ifs
    · exact .some first
    · exact ih later

theorem checkMembers_ok {source : Source} {seen : List String}
    (values : Node.memberValues nodes = .ok ms) (fresh : ∀ key ∈ Value.keys ms, key ∉ seen)
    (nodup : (Value.keys ms).Nodup) (known : Value.keys ms ⊆ fields.map (·.name))
    (check : ∀ f ∈ fields, ∀ n v, (f.name, v) ∈ ms → n.value = .ok v → f.check source n = .ok ()) :
    checkMembers fields source seen nodes = .ok () := by
  induction ms generalizing nodes seen with
  | nil =>
    obtain rfl := memberValues_eq_nil values
    rfl
  | cons m ms ih =>
    obtain ⟨key, v⟩ := m
    obtain ⟨after, n, more, rfl, first, later⟩ := memberValues_eq_cons values
    obtain ⟨new, others⟩ := List.nodup_cons.1 nodup
    obtain ⟨here, rest⟩ := List.cons_subset.1 known
    -- No later key has been seen either when this one is added to those that have.
    have unseen : ∀ other ∈ Value.keys ms, other ∉ key :: seen := by
      intro other mem again
      rcases List.mem_cons.1 again with rfl | old
      · exact new mem
      · exact fresh other (List.mem_cons_of_mem key mem) old
    have next := ih later unseen others rest
      fun f mem n w old => check f mem n w (List.mem_cons_of_mem (key, v) old)
    cases found : fields.find? (·.name = key) with
    | none =>
      obtain ⟨f, mem, named⟩ := List.mem_map.1 here
      exact absurd (decide_eq_true named) (List.find?_eq_none.1 found f mem)
    | some f =>
      have named : f.name = key := by simpa using List.find?_some found
      have checked : f.check source n = .ok () :=
        check f (List.mem_of_find?_eq_some found) n v (named ▸ List.mem_cons_self) first
      rw [checkMembers, found]
      simp only [if_neg (fresh key List.mem_cons_self)]
      cases nodeOf_value first <;> simp only [checked, next]

/-- The members are those of a written record, in some order. -/
structure Written (r : Record α) (ms : List (String × Value)) (a : α) : Prop where
  nodup : (Value.keys ms).Nodup
  known : Value.keys ms ⊆ r.fields.map (·.name)
  fills : r.Fills (fun name => ms.lookup name) a

theorem Written.sorted (written : r.Written ms a) : r.Written (Value.sortMembers ms) a := by
  have perm : (Value.keys (Value.sortMembers ms)).Perm (Value.keys ms) :=
    (Value.sortMembers_perm written.nodup).map _
  refine ⟨perm.nodup_iff.2 written.nodup, List.Subset.trans perm.subset written.known, ?_⟩
  simp only [Value.lookup_sortMembers written.nodup]
  exact written.fills

theorem ofMembers_written (written : r.Written ms a) (source : Source) (after : Rest)
    (values : Node.memberValues nodes = .ok ms) : r.ofMembers source nodes (.ok after) = .ok a := by
  obtain ⟨nodup, known, fills⟩ := written
  have checked : checkMembers r.fields source [] nodes = .ok () := by
    refine checkMembers_ok values (fun _ _ => List.not_mem_nil) nodup known ?_
    intro f mem n v member
    exact fills.check f mem source n v ((lookup_eq_some_iff nodup).2 member)
  simp only [ofMembers, checked, fills.build source _ (finds_members values)]

theorem takes_decoder (expected : String) (written : r.Written ms a) :
    Takes (r.decoder expected) (.object ms) a := by
  intro source n value
  cases nodeOf_value value with
  | object start after skipped values => exact ofMembers_written written source after values

theorem takes_body (expected : String) (written : r.Written ms a) :
    Takes (r.body expected) (.object ms) a := by
  intro source n value
  cases nodeOf_value value with
  | object start after skipped values => exact ofMembers_written written source after values

end Record

theorem Union.takes_decoder {u : Union α} (apart : u.content ≠ u.tag)
    (variant : u.variants.lookup name = some d) (takes : Takes d v a) :
    Takes u.decoder (.object [(u.tag, .string name), (u.content, v)]) a := by
  intro source n value
  cases nodeOf_value value with
  | object start after skipped values =>
    obtain ⟨w, tag, more, rfl, tagged, values⟩ := memberValues_eq_cons values
    obtain ⟨x, content, more, rfl, body, values⟩ := memberValues_eq_cons values
    obtain rfl := memberValues_eq_nil values
    have first : u.readTag source .nothing w tag = .ok (.variant d) := by
      rw [Union.readTag, takes_oneOf variant source tag tagged]
      rfl
    have second : u.readContent source (.variant d) x content = .ok (.complete a) := by
      rw [Union.readContent, takes source content body]
      rfl
    simp only [Union.decoder, Union.readMembers, if_neg apart, if_true, first, second, Union.finish]

theorem decodeText_compact (readable : Readable maxDepth v) (takes : Takes d v a) :
    decodeText d v.compact = .ok a := by
  have reads := read_write readable
  rw [decodeText, Value.compact, String.toList_ofList]
  simp only [takes .text _ reads.value, reads.after]
  rfl

theorem decodeValue_ok (takes : Takes d v a) : decodeValue d v = .ok a := by
  rw [decodeValue, takes .value _ (value_toNode v)]

end SessionCourier.Json
