import SessionCourier.Proofs.Json.Decoding

set_option autoImplicit false

namespace SessionCourier.Json

variable {α β : Type} {d : Decoder α} {a : α} {n : Node} {name : String}
  {nodes : List (Key × Node)} {members : List (String × Node)}

/-- The node is one that a text was taken apart into. -/
def IsRead (n : Node) : Prop := ∃ size depth start, n = readNode size depth start

/-- The keys of these members are texts, and these are the texts. -/
inductive Keyed : List (Key × Node) → List (String × Node) → Prop where
  | nil : Keyed [] []
  | cons {nodes : List (Key × Node)} {members : List (String × Node)} (key : String)
      (after : Rest) (n : Node) (keyed : Keyed nodes members) :
      Keyed ((⟨.ok key, after⟩, n) :: nodes) ((key, n) :: members)

/-- An object that was read to its end, and its members. -/
inductive IsObject : Node → List (String × Node) → Prop where
  | closed {start after : Rest} {skipped : Except Fault Rest} {nodes : List (Key × Node)}
      {members : List (String × Node)} (keyed : Keyed nodes members) :
      IsObject (.object start nodes (.ok after) skipped) members

/-- A reader can skip the node in the text that it stands in. -/
structure Skippable (n : Node) : Prop where
  read : IsRead n
  skipped : ∃ after, n.skipped = .ok after

section Reading

variable {size fuel : Nat} {inner : Rest → Node} {rest after : Rest}

theorem skippable_readMember (reads : ∀ rest, IsRead (inner rest))
    (skipped : (readMember size inner rest).2.skipped = .ok after) :
    Skippable (readMember size inner rest).2 := by
  refine ⟨?_, after, skipped⟩
  unfold readMember at skipped ⊢
  split at skipped
  · cases skipped
  · dsimp only at skipped ⊢
    split at skipped
    · cases skipped
    · exact reads _
    · cases skipped

theorem skippable_readMembers (reads : ∀ rest, IsRead (inner rest))
    (before : ∀ m ∈ nodes, Skippable m.2)
    (closed : (readMembers size inner fuel nodes rest).2.wanted = .ok after) :
    ∀ m ∈ (readMembers size inner fuel nodes rest).1, Skippable m.2 := by
  induction fuel generalizing nodes rest with
  | zero => cases closed
  | succ fuel ih =>
    rw [readMembers] at closed ⊢
    split at closed
    · cases closed
    · intro m mem
      exact before m (List.mem_reverse.1 mem)
    · split at closed
      · cases closed
      · cases closed
      · rename_i more _
        dsimp only at closed ⊢
        split at closed
        · rename_i skipped
          refine ih ?_ closed
          exact List.forall_mem_cons.2 ⟨skippable_readMember reads skipped, before⟩
        · cases closed
      · cases closed
    · cases closed

theorem skippable_readObject {here start : Rest} {skipped : Except Fault Rest}
    (reads : ∀ rest, IsRead (inner rest))
    (object : readObject size inner here rest = .object start nodes (.ok after) skipped) :
    ∀ m ∈ nodes, Skippable m.2 := by
  unfold readObject at object
  dsimp only at object
  split at object
  · cases object
  · cases object
    exact nofun
  · split at object
    · rename_i first
      injection object with _ members closed
      rw [← members]
      refine skippable_readMembers reads ?_ closed
      exact List.forall_mem_singleton.2 (skippable_readMember reads first)
    · cases object
  · cases object

theorem readScalar_ne_object (size : Nat) (here : Rest) {start : Rest}
    {wanted skipped : Except Fault Rest} :
    readScalar size here ≠ .object start nodes wanted skipped := by
  intro object
  unfold readScalar at object
  dsimp only at object
  split at object
  · cases object
  all_goals split at object
  all_goals try split at object
  all_goals cases object

theorem readList_ne_object {here start : Rest} {wanted skipped : Except Fault Rest} :
    readList size inner here rest ≠ .object start nodes wanted skipped := by
  intro object
  unfold readList at object
  dsimp only at object
  split at object
  · cases object
  · cases object
  · split at object <;> cases object

theorem IsRead.skippable {start : Rest} {skipped : Except Fault Rest}
    (read : IsRead (.object start nodes (.ok after) skipped)) : ∀ m ∈ nodes, Skippable m.2 := by
  obtain ⟨size, depth, here, object⟩ := read
  cases depth with
  | zero =>
    unfold readNode at object
    split at object
    · cases object
    · cases object
    · exact absurd object.symm (readScalar_ne_object size here)
  | succ depth =>
    have reads : ∀ rest, IsRead (readNode size depth rest) := fun rest => ⟨size, depth, rest, rfl⟩
    unfold readNode at object
    split at object
    · exact absurd object.symm readList_ne_object
    · exact skippable_readObject reads object.symm
    · exact absurd object.symm (readScalar_ne_object size here)

theorem Keyed.exists_node (keyed : Keyed nodes members) {m : String × Node} (mem : m ∈ members) :
    ∃ node ∈ nodes, node.2 = m.2 := by
  induction keyed with
  | nil => cases mem
  | cons key after n keyed ih =>
    rcases List.mem_cons.1 mem with rfl | later
    · exact ⟨_, List.mem_cons_self, rfl⟩
    · obtain ⟨node, known, same⟩ := ih later
      exact ⟨node, List.mem_cons_of_mem _ known, same⟩

theorem IsRead.skippable_member (read : IsRead n) (object : IsObject n members) :
    ∀ m ∈ members, Skippable m.2 := by
  cases object with
  | closed keyed =>
    intro m mem
    obtain ⟨node, known, same⟩ := keyed.exists_node mem
    exact same ▸ read.skippable node known

end Reading

namespace Record

variable {r : Record α} {field : Record β} {source : Source} {get : String → Option Node}
  {fields : List Field} {seen : List String}

/-- The nodes found by name make up this record. -/
structure Gives (r : Record α) (source : Source) (get : String → Option Node) (a : α) : Prop where
  check : ∀ f ∈ r.fields, ∀ n, get f.name = some n → f.check source n = .ok ()
  build : r.build source get = .ok a

theorem gives_pure (a : α) : (Record.pure a).Gives source get a := ⟨nofun, rfl⟩

theorem Gives.and {r : Record (β → α)} {g : β → α} {b : β} (gives : r.Gives source get g)
    (more : field.Gives source get b) : (r.and field).Gives source get (g b) where
  check f mem := by
    rcases List.mem_append.1 mem with old | new
    · exact gives.check f old
    · exact more.check f new
  build := by
    simp only [Record.and, gives.build, more.build]
    rfl

variable {γ : Type} {holds : Node → γ → Prop} {given : Option γ}

theorem gives_filled (absent : α) (fill : γ → α)
    (stated : Option.Rel holds (get name) given)
    (decoded : ∀ n g, get name = some n → holds n g → d source n = .ok (fill g)) :
    (orElse name d absent).Gives source get ((given.map fill).getD absent) where
  check f mem n found := by
    obtain rfl := List.mem_singleton.1 mem
    have here : ∃ g, d source n = .ok (fill g) := by
      rw [found] at stated
      cases stated with
      | some holds => exact ⟨_, decoded n _ found holds⟩
    obtain ⟨g, here⟩ := here
    exact congrArg (Except.map fun _ => ()) here
  build := by
    cases found : get name with
    | none =>
      rw [found] at stated
      cases stated
      simp only [orElse, found]
      rfl
    | some n =>
      rw [found] at stated
      cases stated with
      | some holds =>
        simp only [orElse, found]
        exact decoded n _ found holds

theorem gives_orElse (absent : γ) {d : Decoder γ} (stated : Option.Rel holds (get name) given)
    (decoded : ∀ n g, holds n g → d source n = .ok g) :
    (orElse name d absent).Gives source get (given.getD absent) := by
  have gives := gives_filled absent id stated fun n g _ => decoded n g
  rwa [Option.map_id, id] at gives

theorem findMember_keyed (keyed : Keyed nodes members) (name : String) :
    findMember nodes name = members.lookup name := by
  induction keyed with
  | nil => rfl
  | cons key after n _ ih => rw [findMember_cons, lookup_member, ih]

theorem checkMembers_skippable (keyed : Keyed nodes members)
    (skippable : ∀ m ∈ members, Skippable m.2) (fresh : ∀ m ∈ members, m.1 ∉ seen)
    (nodup : (members.map (·.1)).Nodup)
    (check : ∀ f ∈ fields, ∀ n, (f.name, n) ∈ members → f.check source n = .ok ()) :
    checkMembers fields source seen nodes = .ok () := by
  induction keyed generalizing seen with
  | nil => rfl
  | @cons nodes members key after n keyed ih =>
    obtain ⟨new, others⟩ := List.nodup_cons.1 nodup
    obtain ⟨⟨-, rest, skipped⟩, later⟩ := List.forall_mem_cons.1 skippable
    obtain ⟨unseen, distinct⟩ := List.forall_mem_cons.1 fresh
    have checks : ∀ f ∈ fields, ∀ w, (f.name, w) ∈ members → f.check source w = .ok () :=
      fun f mem w old => check f mem w (List.mem_cons_of_mem _ old)
    cases found : fields.find? (·.name = key) with
    | none =>
      rw [checkMembers, found]
      simp only [skipped]
      exact ih later distinct others checks
    | some f =>
      have named : f.name = key := by simpa using List.find?_some found
      have checked : f.check source n = .ok () :=
        check f (List.mem_of_find?_eq_some found) n (named ▸ List.mem_cons_self)
      -- No later key has been seen either when this one is added to those that have.
      have next : checkMembers fields source (key :: seen) nodes = .ok () := by
        refine ih later (fun m mem again => ?_) others checks
        rcases List.mem_cons.1 again with same | old
        · exact new (List.mem_map.2 ⟨m, mem, same⟩)
        · exact distinct m mem old
      rw [checkMembers, found]
      simp only [if_neg unseen]
      cases n with
      | absent fault => cases skipped
      | _ => simp only [checked, next]

theorem decoder_object (expected : String) (read : IsRead n) (object : IsObject n members)
    (nodup : (members.map (·.1)).Nodup) (gives : r.Gives source (members.lookup ·) a) :
    r.decoder expected source n = .ok a := by
  have skippable := read.skippable_member object
  cases object with
  | @closed start after skipped nodes members keyed =>
    have checked : checkMembers r.fields source [] nodes = .ok () := by
      refine checkMembers_skippable keyed skippable (fun _ _ => List.not_mem_nil) nodup ?_
      intro f mem n known
      exact gives.check f mem n ((lookup_eq_some_iff nodup).2 known)
    have found : findMember nodes = (members.lookup ·) := funext (findMember_keyed keyed)
    simp only [decoder, ofMembers, checked, found, gives.build]

end Record

theorem isRead_read (text : List Char) : IsRead (Node.read text) := ⟨_, _, _, rfl⟩

end SessionCourier.Json
