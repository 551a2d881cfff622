import Mathlib.Tactic.SplitIfs
import SessionCourier.Json.Printer

set_option autoImplicit false

namespace SessionCourier.Json

variable {c : Char} {as bs : List Char}

section Parts

variable {α : Type} {write : α → List Char} {a : α} {items : List α}

theorem length_le_flatMap (written : ∀ a, write a ≠ []) (items : List α) :
    items.length ≤ (items.flatMap write).length := by
  induction items with
  | nil => exact Nat.le_refl 0
  | cons a items ih =>
    have one := List.length_pos_iff.2 (written a)
    rw [List.flatMap_cons, List.length_append, List.length_cons]
    omega

theorem length_le_flatMap_of_mem (write : α → List Char) (mem : a ∈ items) :
    (write a).length ≤ (items.flatMap write).length := by
  rw [List.flatMap_def]
  exact (List.sublist_flatten_of_mem (List.mem_map_of_mem mem)).length_le

theorem length_joined (write : α → List Char) (a : α) (items : List α) :
    let text := write a ++ items.flatMap fun b => ',' :: write b
    (a :: items).length ≤ text.length + 1 ∧ ∀ b ∈ a :: items, (write b).length ≤ text.length := by
  intro text
  have size : text.length = (write a).length + (items.flatMap fun b => ',' :: write b).length :=
    List.length_append
  have count := length_le_flatMap (fun b => List.cons_ne_nil ',' (write b)) items
  constructor
  · rw [List.length_cons]
    omega
  · intro b mem
    rcases List.mem_cons.1 mem with rfl | later
    · omega
    · have within := length_le_flatMap_of_mem (fun b => ',' :: write b) later
      rw [List.length_cons] at within
      omega

end Parts

namespace Value

def writeMoreItems (vs : List Value) : List Char := vs.flatMap fun v => ',' :: v.write

theorem writeItems_cons (v : Value) (vs : List Value) :
    writeItems (v :: vs) = v.write ++ writeMoreItems vs := by
  induction vs generalizing v with
  | nil => simp [writeItems, writeMoreItems]
  | cons w vs ih =>
    rw [writeItems, ih w, writeMoreItems, writeMoreItems, List.flatMap_cons, List.cons_append]
    exact nofun

theorem length_writeItems (vs : List Value) :
    vs.length ≤ (writeItems vs).length + 1 ∧ ∀ v ∈ vs, v.write.length ≤ (writeItems vs).length := by
  cases vs with
  | nil => exact ⟨Nat.zero_le _, nofun⟩
  | cons v vs =>
    rw [writeItems_cons]
    exact length_joined write v vs

def writeMember (m : String × Value) : List Char := writeString m.1 ++ ':' :: m.2.write

def writeMoreMembers (ms : List (String × Value)) : List Char :=
  ms.flatMap fun m => ',' :: writeMember m

theorem writeMembers_cons (m : String × Value) (ms : List (String × Value)) :
    writeMembers (m :: ms) = writeMember m ++ writeMoreMembers ms := by
  induction ms generalizing m with
  | nil => simp [writeMembers, writeMoreMembers, writeMember]
  | cons n ms ih =>
    rw [writeMembers, ih n, writeMoreMembers, writeMoreMembers, List.flatMap_cons, List.cons_append,
      writeMember.eq_def m, List.append_assoc, List.cons_append]
    exact List.cons_ne_nil n ms

theorem length_writeMember (m : String × Value) :
    (writeMember m).length = (writeString m.1).length + m.2.write.length + 1 := by
  rw [writeMember, List.length_append, List.length_cons, Nat.add_assoc]

theorem length_writeMembers (ms : List (String × Value)) :
    ms.length ≤ (writeMembers ms).length + 1 ∧
      ∀ m ∈ ms, (writeMember m).length ≤ (writeMembers ms).length := by
  cases ms with
  | nil => exact ⟨Nat.zero_le _, nofun⟩
  | cons m ms =>
    rw [writeMembers_cons]
    exact length_joined writeMember m ms

end Value

def Printable (cs : List Char) : Prop := ∀ c ∈ cs, 0x20 ≤ c.toNat

@[simp] theorem printable_nil : Printable [] := nofun

@[simp] theorem printable_cons : Printable (c :: as) ↔ 0x20 ≤ c.toNat ∧ Printable as :=
  List.forall_mem_cons

@[simp] theorem printable_append : Printable (as ++ bs) ↔ Printable as ∧ Printable bs :=
  List.forall_mem_append

theorem printable_flatMap {α : Type} {write : α → List Char} {items : List α}
    (all : ∀ a ∈ items, Printable (write a)) : Printable (items.flatMap write) := by
  intro c mem
  obtain ⟨a, old, mem⟩ := List.mem_flatMap.1 mem
  exact all a old c mem

@[simp] theorem printable_toDigits (n : Nat) : Printable (Nat.toDigits 10 n) := by
  intro c mem
  have digit := Nat.isDigit_of_mem_toDigits (by decide) (by decide) mem
  rw [Char.isDigit, Bool.and_eq_true, decide_eq_true_eq, decide_eq_true_eq] at digit
  exact Nat.le_trans (by decide : 0x20 ≤ '0'.toNat) digit.1

theorem printable_digitChar : ∀ d < 16, 0x20 ≤ d.digitChar.toNat := by decide

theorem printable_escaped (c : Char) : Printable (escaped c) := by
  rw [escaped]
  split_ifs with _ _ _ _ _ _ _ control
  all_goals simp only [printable_cons, printable_nil, and_true]
  any_goals decide
  · have high := printable_digitChar (c.toNat / 16) (by omega)
    have low := printable_digitChar (c.toNat % 16) (by omega)
    exact ⟨by decide, by decide, by decide, by decide, high, low⟩
  · exact Nat.le_of_not_lt control

@[simp] theorem printable_writeString (text : String) : Printable (writeString text) := by
  have inside := printable_flatMap fun c (_ : c ∈ text.toList) => printable_escaped c
  simp [writeString, inside]

@[simp] theorem printable_writeInteger (i : Int) : Printable (writeInteger i) := by
  rw [writeInteger]
  split_ifs <;> simp

section Floats

variable {digits : List Char}

@[simp] theorem printable_zeros (n : Nat) : Printable (Layout.zeros n) := by
  intro c mem
  rw [List.eq_of_mem_replicate mem]
  decide

theorem printable_pointed (printable : Printable digits) (places : Nat) :
    Printable (Layout.pointed digits places) := by
  have padded : Printable (Layout.zeros (places + 1 - digits.length) ++ digits) := by
    simp [printable]
  refine printable_append.2 ⟨fun c mem => padded c (List.mem_of_mem_take mem), ?_⟩
  exact printable_cons.2 ⟨by decide, fun c mem => padded c (List.mem_of_mem_drop mem)⟩

theorem printable_scientific (printable : Printable digits) (power : Int) :
    Printable (Layout.scientific digits power) := by
  have exponent :
      Printable ((if 0 ≤ power then '+' else '-') :: Nat.toDigits 10 power.natAbs) := by
    split_ifs <;> simp
  match digits with
  | [] => exact printable_nil
  | [d] =>
    simp only [printable_cons] at printable exponent
    simp [Layout.scientific, printable, exponent]
  | d :: e :: more =>
    simp only [printable_cons] at printable exponent
    simp [Layout.scientific, printable, exponent]

@[simp] theorem printable_magnitude (l : Layout) (x : Float) : Printable (l.magnitude x) := by
  have keep : Printable (if l.keepZero then ['.', '0'] else []) := by
    split_ifs <;> simp
  rw [Layout.magnitude]
  split
  · exact printable_cons.2 ⟨by decide, keep⟩
  · rw [Layout.decimal]
    split
    · rw [Layout.writtenOut]
      split
      · simp [keep]
      · exact printable_pointed (printable_toDigits _) _
    · exact printable_scientific (printable_toDigits _) _

theorem printable_writeFloat (x : Float) : Printable (writeFloat x) := by
  rw [writeFloat]
  split
  · simp
  · rw [Layout.render]
    split
    · simp
    · simp only [String.toList_ofList, printable_append]
      refine ⟨?_, ?_⟩ <;> split <;> simp

end Floats

mutual

theorem printable_write : ∀ v : Value, Printable v.write
  | .null => by simp [Value.write]
  | .boolean b => by cases b <;> simp [Value.write, writeBoolean]
  | .integer i => printable_writeInteger i
  | .float x => printable_writeFloat x
  | .string text => printable_writeString text
  | .list items => by simp [Value.write, printable_writeItems items]
  | .object members => by simp [Value.write, printable_writeMembers members]

theorem printable_writeItems : ∀ vs : List Value, Printable (Value.writeItems vs)
  | [] => printable_nil
  | [v] => by simp [Value.writeItems, printable_write v]
  | v :: w :: vs => by simp [Value.writeItems, printable_write v, printable_writeItems (w :: vs)]

theorem printable_writeMembers : ∀ ms : List (String × Value), Printable (Value.writeMembers ms)
  | [] => printable_nil
  | [(k, v)] => by simp [Value.writeMembers, printable_write v]
  | (k, v) :: m :: ms => by
    simp [Value.writeMembers, printable_write v, printable_writeMembers (m :: ms)]

end

end SessionCourier.Json
