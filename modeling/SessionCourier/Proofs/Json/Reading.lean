import SessionCourier.Proofs.Json.Scalars

set_option autoImplicit false

/-!
# A value is read as it was written

The compact text of a value, with anything behind it that does not go on with a number, is read as a
node of this value, and what was behind it is left. A value is readable if it is not nested too deep
and holds no floats and no integers beyond 64 bits. The induction is on why a value is readable; the
items of a list and the members of an object are taken one after the other.
-/

namespace SessionCourier.Json

variable {size fuel depth : Nat} {v : Value} {c : Char} {cs rest : Rest} {inner : Rest → Node}

/-- The reader goes at most `depth` levels deep into this value, and finds all its numbers exact. -/
inductive Readable : Nat → Value → Prop where
  | null {depth : Nat} : Readable depth .null
  | boolean {depth : Nat} (b : Bool) : Readable depth (.boolean b)
  | integer {depth : Nat} {i : Int} (fits : Fits i) : Readable depth (.integer i)
  | string {depth : Nat} (text : String) : Readable depth (.string text)
  | list {depth : Nat} {items : List Value} (all : ∀ v ∈ items, Readable depth v) :
      Readable (depth + 1) (.list items)
  | object {depth : Nat} {members : List (String × Value)}
      (all : ∀ m ∈ members, Readable depth m.2) : Readable (depth + 1) (.object members)

structure Reads (n : Node) (v : Value) (rest : Rest) : Prop where
  value : n.value = .ok v
  skipped : n.skipped = .ok rest

theorem Reads.after {n : Node} (reads : Reads n v rest) : n.after = rest := by
  rw [Node.after, reads.skipped]

def Begins (here : Rest) : Prop := ∃ c cs, here = c :: cs ∧ isBlank c = false ∧ c ≠ ']'

theorem Begins.append {here : Rest} (begins : Begins here) (rest : Rest) :
    Begins (here ++ rest) := by
  obtain ⟨c, cs, rfl, seen, other⟩ := begins
  exact ⟨c, cs ++ rest, rfl, seen, other⟩

theorem Begins.skipBlank {here : Rest} (begins : Begins here) : skipBlank here = here := by
  obtain ⟨c, cs, rfl, seen, -⟩ := begins
  simp [Json.skipBlank, seen]

def Leads (c : Char) : Prop := c = '-' ∨ isDigit c = true

theorem exists_writeInteger (i : Int) : ∃ c cs, writeInteger i = c :: cs ∧ Leads c := by
  rw [writeInteger]
  split_ifs
  · exact ⟨'-', _, rfl, .inl rfl⟩
  · obtain ⟨c, cs, eq⟩ := List.exists_cons_of_ne_nil (Nat.toDigits_ne_nil (n := i.natAbs) (b := 10))
    exact ⟨c, cs, eq, .inr (isDigit_of_mem (n := i.natAbs) (eq ▸ List.mem_cons_self))⟩

theorem Leads.ne {d : Char} (leads : Leads c) (other : ¬Leads d) : c ≠ d := by
  rintro rfl
  exact other leads

instance : Decidable (Leads c) := inferInstanceAs (Decidable (_ ∨ _))

theorem Leads.seen (leads : Leads c) : isBlank c = false := by
  simp [isBlank, leads.ne (d := ' ') (by decide), leads.ne (d := '\n') (by decide),
    leads.ne (d := '\t') (by decide), leads.ne (d := '\r') (by decide)]

theorem begins_writeInteger (i : Int) : Begins (writeInteger i) := by
  obtain ⟨c, cs, eq, leads⟩ := exists_writeInteger i
  exact ⟨c, cs, eq, leads.seen, leads.ne (by decide)⟩

theorem readNode_scalar (list : c ≠ '[') (object : c ≠ '\x7b') :
    readNode size depth (c :: cs) = readScalar size (c :: cs) := by
  cases depth <;> simp [readNode, list, object]

theorem reads_word (size : Nat) (rest : Rest) :
    Reads (readScalar size ("null".toList ++ rest)) .null rest ∧
      ∀ b, Reads (readScalar size (writeBoolean b ++ rest)) (.boolean b) rest := by
  refine ⟨⟨rfl, rfl⟩, ?_⟩
  intro b
  cases b <;> exact ⟨rfl, rfl⟩

theorem readScalar_leads (leads : Leads c) {m : Numeral}
    (scanned : scanNumeral (c :: cs) = .ok (m, rest)) :
    readScalar size (c :: cs) = .number (m.number rest) (c :: cs) rest := by
  have number : c = '-' ∨ isDigit c = true := leads
  unfold readScalar
  -- Words and strings begin with characters that no numeral begins with.
  split
  case h_1 eq => cases eq
  case h_6 d _ _ _ _ _ eq =>
    obtain ⟨rfl, -⟩ := List.cons.inj eq
    simp [number, scanned]
  all_goals
    rename_i eq
    obtain ⟨rfl, -⟩ := List.cons.inj eq
    exact absurd leads (by decide)

theorem reads_integer {i : Int} (fits : Fits i) (stops : Stops rest) :
    Reads (readNode size depth (writeInteger i ++ rest)) (.integer i) rest := by
  have scanned := scanNumeral_writeInteger i stops
  obtain ⟨c, cs, eq, leads⟩ := exists_writeInteger i
  rw [eq, List.cons_append] at scanned ⊢
  rw [readNode_scalar (leads.ne (by decide)) (leads.ne (by decide)),
    readScalar_leads leads scanned, number_writeInteger fits]
  exact ⟨rfl, rfl⟩

theorem writeString_append (text : String) (rest : Rest) :
    writeString text ++ rest = '"' :: (text.toList.flatMap escaped ++ '"' :: rest) := by
  simp [writeString]

theorem reads_string {text : String} (enough : (writeString text).length ≤ size) :
    Reads (readScalar size (writeString text ++ rest)) (.string text) rest := by
  rw [writeString_append]
  simp only [readScalar, readString_write text enough]
  exact ⟨rfl, rfl⟩

open Value

theorem stops_moreItems (vs : List Value) (rest : Rest) :
    Stops (writeMoreItems vs ++ ']' :: rest) := by
  cases vs <;> rintro c ⟨rfl⟩ <;> decide

theorem readItems_more (read : List Node) (begins : Begins cs)
    (skipped : (inner cs).skipped = .ok rest) :
    readItems inner (fuel + 1) read (',' :: cs) = readItems inner fuel (inner cs :: read) rest := by
  have comma : skipBlank (',' :: cs) = ',' :: cs := rfl
  rw [readItems, comma]
  simp only [begins.skipBlank]
  obtain ⟨c, cs, rfl, -, other⟩ := begins
  split
  case h_1 eq => cases eq
  case h_2 eq => exact absurd (List.cons.inj eq).1 other
  case h_3 => simp only [skipped]

theorem readList_first {start after : Rest} {items : List Node} (begins : Begins cs)
    (skipped : (inner cs).skipped = .ok rest)
    (more : readItems inner size [inner cs] rest = (items, .closed after)) :
    readList size inner start cs = .list start items (.ok after) (.ok after) := by
  rw [readList]
  simp only [begins.skipBlank]
  obtain ⟨c, cs, rfl, -, other⟩ := begins
  split
  case h_1 eq => cases eq
  case h_2 eq => exact absurd (List.cons.inj eq).1 other
  case h_3 => simp only [skipped, more, Ending.closed]

/-- This reader, at the beginning of what was written for a value, reads the value. -/
structure ReadsBack (inner : Rest → Node) (v : Value) : Prop where
  begins : Begins v.write
  reads : ∀ {rest}, Stops rest → Reads (inner (v.write ++ rest)) v rest

theorem itemValues_cons {vs : List Value} {nodes : List Node}
    (first : Reads (inner (v.write ++ cs)) v rest) (later : Node.itemValues nodes = .ok vs) :
    Node.itemValues (inner (v.write ++ cs) :: nodes) = .ok (v :: vs) := by
  rw [Node.itemValues, first.value, later]
  rfl

theorem readItems_write {vs : List Value} (rest : Rest) (read : List Node)
    (enough : vs.length < fuel) (back : ∀ v ∈ vs, ReadsBack inner v) :
    ∃ nodes, readItems inner fuel read (writeMoreItems vs ++ ']' :: rest) =
      (read.reverse ++ nodes, .closed rest) ∧ Node.itemValues nodes = .ok vs := by
  induction vs generalizing read fuel with
  | nil =>
    obtain ⟨fuel, rfl⟩ := Nat.exists_eq_succ_of_ne_zero (Nat.ne_of_gt enough)
    refine ⟨[], ?_, rfl⟩
    rw [List.append_nil]
    rfl
  | cons v vs ih =>
    obtain ⟨fuel, rfl⟩ := Nat.exists_eq_succ_of_ne_zero (Nat.ne_of_gt (Nat.zero_lt_of_lt enough))
    obtain ⟨begins, reads⟩ := back v List.mem_cons_self
    have here := begins.append (writeMoreItems vs ++ ']' :: rest)
    have first := reads (stops_moreItems vs rest)
    obtain ⟨nodes, eq, values⟩ := ih (inner (v.write ++ (writeMoreItems vs ++ ']' :: rest)) :: read)
      (Nat.lt_of_succ_lt_succ enough) (fun w mem => back w (List.mem_cons_of_mem v mem))
    refine ⟨inner (v.write ++ (writeMoreItems vs ++ ']' :: rest)) :: nodes, ?_,
      itemValues_cons first values⟩
    rw [writeMoreItems, List.flatMap_cons, List.append_assoc, List.cons_append, ← writeMoreItems,
      readItems_more read here first.skipped, eq, List.reverse_cons, List.append_assoc,
      List.singleton_append]

theorem reads_list {vs : List Value} (start : Rest) (enough : vs.length ≤ size)
    (back : ∀ v ∈ vs, ReadsBack inner v) :
    Reads (readList size inner start (writeItems vs ++ ']' :: rest)) (.list vs) rest := by
  cases vs with
  | nil => exact ⟨rfl, rfl⟩
  | cons v vs =>
    obtain ⟨begins, reads⟩ := back v List.mem_cons_self
    have here := begins.append (writeMoreItems vs ++ ']' :: rest)
    have first := reads (stops_moreItems vs rest)
    obtain ⟨nodes, eq, values⟩ := readItems_write rest
      [inner (v.write ++ (writeMoreItems vs ++ ']' :: rest))] enough
      (fun w mem => back w (List.mem_cons_of_mem v mem))
    rw [writeItems_cons, List.append_assoc, readList_first here first.skipped eq]
    refine ⟨?_, rfl⟩
    simp only [Node.value, List.reverse_singleton, List.singleton_append,
      itemValues_cons first values]

theorem writeMember_append (m : String × Value) (rest : Rest) :
    writeMember m ++ rest =
      '"' :: (m.1.toList.flatMap escaped ++ '"' :: ':' :: (m.2.write ++ rest)) := by
  rw [writeMember, List.append_assoc, writeString_append, List.cons_append]

def memberNode (inner : Rest → Node) (m : String × Value) (rest : Rest) : Key × Node :=
  (⟨.ok m.1, ':' :: (m.2.write ++ rest)⟩, inner (m.2.write ++ rest))

theorem readMember_write {m : String × Value} (inner : Rest → Node) (rest : Rest)
    (enough : (writeString m.1).length ≤ size) (begins : Begins m.2.write) :
    readMember size inner (m.1.toList.flatMap escaped ++ '"' :: ':' :: (m.2.write ++ rest)) =
      memberNode inner m rest := by
  have colon : skipBlank (':' :: (m.2.write ++ rest)) = ':' :: (m.2.write ++ rest) := rfl
  rw [readMember, readString_write m.1 enough]
  simp only [colon, (begins.append rest).skipBlank, memberNode]

theorem memberValues_cons {m : String × Value} {ms : List (String × Value)}
    {nodes : List (Key × Node)} (first : Reads (inner (m.2.write ++ cs)) m.2 rest)
    (later : Node.memberValues nodes = .ok ms) :
    Node.memberValues (memberNode inner m cs :: nodes) = .ok (m :: ms) := by
  rw [memberNode, Node.memberValues, first.value, later]
  rfl

theorem readMembers_more {member : Key × Node} (read : List (Key × Node))
    (eq : readMember size inner cs = member) (skipped : member.2.skipped = .ok rest) :
    readMembers size inner (fuel + 1) read (',' :: '"' :: cs) =
      readMembers size inner fuel (member :: read) rest := by
  have comma : skipBlank (',' :: '"' :: cs) = ',' :: '"' :: cs := rfl
  have quote : skipBlank ('"' :: cs) = '"' :: cs := rfl
  rw [readMembers, comma]
  simp only [quote, eq, skipped]

theorem readObject_first {start after : Rest} {member : Key × Node} {members : List (Key × Node)}
    (eq : readMember size inner cs = member) (skipped : member.2.skipped = .ok rest)
    (more : readMembers size inner size [member] rest = (members, .closed after)) :
    readObject size inner start ('"' :: cs) = .object start members (.ok after) (.ok after) := by
  have quote : skipBlank ('"' :: cs) = '"' :: cs := rfl
  rw [readObject, quote]
  simp only [eq, skipped, more, Ending.closed]

theorem stops_moreMembers (ms : List (String × Value)) (rest : Rest) :
    Stops (writeMoreMembers ms ++ '\x7d' :: rest) := by
  cases ms <;> rintro c ⟨rfl⟩ <;> decide

theorem readMembers_write {ms : List (String × Value)} (rest : Rest) (read : List (Key × Node))
    (enough : ms.length < fuel) (keys : ∀ m ∈ ms, (writeString m.1).length ≤ size)
    (back : ∀ m ∈ ms, ReadsBack inner m.2) :
    ∃ nodes, readMembers size inner fuel read (writeMoreMembers ms ++ '\x7d' :: rest) =
      (read.reverse ++ nodes, .closed rest) ∧ Node.memberValues nodes = .ok ms := by
  induction ms generalizing read fuel with
  | nil =>
    obtain ⟨fuel, rfl⟩ := Nat.exists_eq_succ_of_ne_zero (Nat.ne_of_gt enough)
    refine ⟨[], ?_, rfl⟩
    rw [List.append_nil]
    rfl
  | cons m ms ih =>
    obtain ⟨fuel, rfl⟩ := Nat.exists_eq_succ_of_ne_zero (Nat.ne_of_gt (Nat.zero_lt_of_lt enough))
    obtain ⟨begins, reads⟩ := back m List.mem_cons_self
    have first := reads (stops_moreMembers ms rest)
    have member := readMember_write inner (writeMoreMembers ms ++ '\x7d' :: rest)
      (keys m List.mem_cons_self) begins
    obtain ⟨nodes, eq, values⟩ := ih
      (memberNode inner m (writeMoreMembers ms ++ '\x7d' :: rest) :: read)
      (Nat.lt_of_succ_lt_succ enough) (fun n mem => keys n (List.mem_cons_of_mem m mem))
      (fun n mem => back n (List.mem_cons_of_mem m mem))
    refine ⟨memberNode inner m (writeMoreMembers ms ++ '\x7d' :: rest) :: nodes, ?_,
      memberValues_cons first values⟩
    rw [writeMoreMembers, List.flatMap_cons, List.append_assoc, List.cons_append,
      ← writeMoreMembers, writeMember_append, readMembers_more read member first.skipped, eq,
      List.reverse_cons, List.append_assoc, List.singleton_append]

theorem reads_object {ms : List (String × Value)} (start : Rest) (enough : ms.length ≤ size)
    (keys : ∀ m ∈ ms, (writeString m.1).length ≤ size) (back : ∀ m ∈ ms, ReadsBack inner m.2) :
    Reads (readObject size inner start (writeMembers ms ++ '\x7d' :: rest)) (.object ms) rest := by
  cases ms with
  | nil => exact ⟨rfl, rfl⟩
  | cons m ms =>
    obtain ⟨begins, reads⟩ := back m List.mem_cons_self
    have first := reads (stops_moreMembers ms rest)
    have member := readMember_write inner (writeMoreMembers ms ++ '\x7d' :: rest)
      (keys m List.mem_cons_self) begins
    obtain ⟨nodes, eq, values⟩ := readMembers_write rest
      [memberNode inner m (writeMoreMembers ms ++ '\x7d' :: rest)] enough
      (fun n mem => keys n (List.mem_cons_of_mem m mem))
      (fun n mem => back n (List.mem_cons_of_mem m mem))
    rw [writeMembers_cons, List.append_assoc, writeMember_append,
      readObject_first member first.skipped eq]
    refine ⟨?_, rfl⟩
    simp only [Node.value, List.reverse_singleton, List.singleton_append,
      memberValues_cons first values]

theorem readsBack_list {vs : List Value} (enough : (Value.list vs).write.length ≤ size)
    (back : ∀ v ∈ vs, v.write.length ≤ size → ReadsBack (readNode size depth) v) :
    ReadsBack (readNode size (depth + 1)) (.list vs) where
  begins := ⟨'[', _, rfl, rfl, by decide⟩
  reads {rest} _ := by
    obtain ⟨count, within⟩ := length_writeItems vs
    rw [Value.write, List.length_append, List.length_cons, List.length_singleton] at enough
    rw [Value.write, List.append_assoc, List.cons_append, List.singleton_append]
    apply reads_list
    · omega
    · intro v mem
      have shorter := within v mem
      exact back v mem (by omega)

theorem readsBack_object {ms : List (String × Value)}
    (enough : (Value.object ms).write.length ≤ size)
    (back : ∀ m ∈ ms, m.2.write.length ≤ size → ReadsBack (readNode size depth) m.2) :
    ReadsBack (readNode size (depth + 1)) (.object ms) where
  begins := ⟨'\x7b', _, rfl, rfl, by decide⟩
  reads {rest} _ := by
    obtain ⟨count, within⟩ := length_writeMembers ms
    rw [Value.write, List.length_append, List.length_cons, List.length_singleton] at enough
    rw [Value.write, List.append_assoc, List.cons_append, List.singleton_append]
    apply reads_object
    · omega
    · intro m mem
      have shorter := within m mem
      rw [length_writeMember] at shorter
      omega
    · intro m mem
      have shorter := within m mem
      rw [length_writeMember] at shorter
      exact back m mem (by omega)

theorem readsBack (readable : Readable depth v) (enough : v.write.length ≤ size) :
    ReadsBack (readNode size depth) v := by
  induction readable with
  | null =>
    refine ⟨⟨'n', _, rfl, rfl, by decide⟩, fun {rest} _ => ?_⟩
    exact readNode_scalar (c := 'n') (by decide) (by decide) ▸ (reads_word size rest).1
  | boolean b =>
    cases b with
    | false =>
      refine ⟨⟨'f', _, rfl, rfl, by decide⟩, fun {rest} _ => ?_⟩
      exact readNode_scalar (c := 'f') (by decide) (by decide) ▸ (reads_word size rest).2 false
    | true =>
      refine ⟨⟨'t', _, rfl, rfl, by decide⟩, fun {rest} _ => ?_⟩
      exact readNode_scalar (c := 't') (by decide) (by decide) ▸ (reads_word size rest).2 true
  | integer fits => exact ⟨begins_writeInteger _, reads_integer fits⟩
  | string text =>
    refine ⟨⟨'"', _, rfl, rfl, by decide⟩, fun {rest} _ => ?_⟩
    exact readNode_scalar (c := '"') (by decide) (by decide) ▸ reads_string enough
  | list all ih => exact readsBack_list enough ih
  | object all ih => exact readsBack_object enough ih

theorem read_write (readable : Readable maxDepth v) : Reads (Node.read v.write) v [] := by
  have back := readsBack readable (Nat.le_refl v.write.length)
  have reads := back.reads stops_nil
  rw [List.append_nil] at reads
  rw [Node.read, back.begins.skipBlank]
  exact reads

mutual

theorem value_toNode : ∀ v : Value, v.toNode.value = .ok v
  | .null => rfl
  | .boolean _ => rfl
  | .integer _ => rfl
  | .float _ => rfl
  | .string _ => rfl
  | .list items => by simp only [Value.toNode, Node.value, itemValues_itemNodes items]
  | .object members => by
    simp only [Value.toNode, Node.value, memberValues_memberNodes members]

theorem itemValues_itemNodes : ∀ vs : List Value, Node.itemValues (itemNodes vs) = .ok vs
  | [] => rfl
  | v :: vs => by
    rw [itemNodes, Node.itemValues, value_toNode v, itemValues_itemNodes vs]
    rfl

theorem memberValues_memberNodes :
    ∀ ms : List (String × Value), Node.memberValues (memberNodes ms) = .ok ms
  | [] => rfl
  | (k, v) :: ms => by
    rw [memberNodes, Node.memberValues, value_toNode v, memberValues_memberNodes ms]
    rfl

end

end SessionCourier.Json
