import SessionCourier.Proofs.Json.Printing
import SessionCourier.Wire.Service

set_option autoImplicit false

namespace SessionCourier.Wire

variable {text : String} {b : UInt8} {bytes : List UInt8}

theorem toList_loop (bs : ByteArray) (i : Nat) (read : List UInt8) :
    ByteArray.toList.loop bs i read = read.reverse ++ bs.data.toList.drop i := by
  fun_induction ByteArray.toList.loop bs i read with
  | case1 i read more ih =>
    have within : i < bs.data.toList.length := by simpa using more
    rw [ih, List.drop_eq_getElem_cons within]
    simp [ByteArray.get!, more]
  | case2 i read done =>
    rw [List.drop_eq_nil_of_le (by simpa using Nat.le_of_not_lt done), List.append_nil]

theorem toList_data (bs : ByteArray) : bs.toList = bs.data.toList := by
  rw [ByteArray.toList, toList_loop, List.drop_zero]
  rfl

theorem bytesOf_eq (text : String) : bytesOf text = text.toList.flatMap String.utf8EncodeChar := by
  rw [bytesOf, toList_data, String.toUTF8_eq_toByteArray, ← String.utf8Encode_toList,
    List.utf8Encode, List.toList_data_toByteArray]

theorem bytesOf_append (first second : String) :
    bytesOf (first ++ second) = bytesOf first ++ bytesOf second := by
  rw [bytesOf_eq, bytesOf_eq, bytesOf_eq, String.toList_append, List.flatMap_append]

theorem textOf?_bytesOf (text : String) : textOf? (bytesOf text) = some text := by
  have whole : (⟨(bytesOf text).toArray⟩ : ByteArray) = text.toByteArray := by
    rw [bytesOf, toList_data, String.toUTF8_eq_toByteArray, Array.toArray_toList]
  rw [textOf?, whole, String.fromUTF8?, dif_pos text.isValidUTF8]
  rfl

theorem lineOf_eq (text : String) : lineOf text = bytesOf (text ++ "\n") := by
  have ending : bytesOf "\n" = [newline] := by
    rw [bytesOf_eq]
    rfl
  rw [lineOf, bytesOf_append, ending]

theorem textOf?_lineOf (text : String) : textOf? (lineOf text) = some (text ++ "\n") := by
  rw [lineOf_eq, textOf?_bytesOf]

theorem high_of_mark (bits : UInt8) {mark : UInt8} (high : 0x80 ≤ mark.toNat) :
    0x80 ≤ (bits ||| mark).toNat := by
  rw [UInt8.toNat_or]
  exact Nat.le_trans high Nat.right_le_or

theorem byte_of_char {c : Char} (mem : b ∈ String.utf8EncodeChar c) :
    0x80 ≤ b.toNat ∨ b.toNat = c.toNat := by
  rcases c.utf8Size_eq with one | two | three | four
  · right
    have ascii : c.val.toNat ≤ 127 := Char.utf8Size_eq_one_iff.1 one
    rw [String.utf8EncodeChar_eq_singleton one, List.mem_singleton] at mem
    rw [mem, UInt32.toNat_toUInt8, Nat.mod_eq_of_lt (by omega)]
    rfl
  all_goals left
  · rw [String.utf8EncodeChar_eq_cons_cons two] at mem
    simp only [List.mem_cons, List.not_mem_nil, or_false] at mem
    rcases mem with rfl | rfl <;> exact high_of_mark _ (by decide)
  · rw [String.utf8EncodeChar_eq_cons_cons_cons three] at mem
    simp only [List.mem_cons, List.not_mem_nil, or_false] at mem
    rcases mem with rfl | rfl | rfl <;> exact high_of_mark _ (by decide)
  · rw [String.utf8EncodeChar_eq_cons_cons_cons_cons four] at mem
    simp only [List.mem_cons, List.not_mem_nil, or_false] at mem
    rcases mem with rfl | rfl | rfl | rfl <;> exact high_of_mark _ (by decide)

theorem bytesOf_printable (printable : Json.Printable text.toList) :
    ∀ b ∈ bytesOf text, 0x20 ≤ b.toNat := by
  intro b mem
  rw [bytesOf_eq] at mem
  obtain ⟨c, old, mem⟩ := List.mem_flatMap.1 mem
  have shown := printable c old
  rcases byte_of_char mem with high | same
  · omega
  · omega

theorem splitLines_cons (free : newline ∉ bytes) (rest : List UInt8) :
    splitLines (bytes ++ newline :: rest) = (bytes ++ [newline]) :: splitLines rest := by
  induction bytes with
  | nil => simp [splitLines]
  | cons b bytes ih =>
    obtain ⟨other, later⟩ := not_or.1 (mt List.mem_cons.2 free)
    rw [List.cons_append, splitLines, if_neg (Ne.symm other), ih later]
    rfl

theorem takeLine_line (free : newline ∉ bytes) (limit : Nat) (rest : List UInt8) :
    takeLine limit (bytes ++ newline :: rest) =
      ((bytes ++ [newline]).take limit, (bytes ++ [newline]).drop limit ++ rest) := by
  induction bytes generalizing limit with
  | nil => cases limit <;> simp [takeLine]
  | cons b bytes ih =>
    obtain ⟨other, later⟩ := not_or.1 (mt List.mem_cons.2 free)
    cases limit with
    | zero => simp [takeLine]
    | succ limit =>
      rw [List.cons_append, takeLine, if_neg (Ne.symm other), ih later]
      rfl

theorem chomp_whole (kept : bytes.getLast? ≠ some carriageReturn) :
    chomp (bytes ++ [newline]) = bytes := by
  rw [chomp, List.reverse_append, List.reverse_singleton, List.singleton_append]
  cases before : bytes.reverse with
  | nil =>
    obtain rfl := List.reverse_eq_nil_iff.1 before
    rfl
  | cons c earlier =>
    have other : c ≠ carriageReturn := by
      rintro rfl
      rw [List.getLast?_eq_head?_reverse, before] at kept
      exact kept rfl
    simp only [if_true, if_neg other]
    rw [← before, List.reverse_reverse]

variable (printable : Json.Printable text.toList)

include printable

theorem newline_not_mem : newline ∉ bytesOf text := by
  intro mem
  have shown := bytesOf_printable printable newline mem
  exact absurd shown (by decide)

theorem chomp_lineOf : chomp (lineOf text) = bytesOf text := by
  refine chomp_whole fun last => ?_
  have shown := bytesOf_printable printable carriageReturn (List.mem_of_getLast? last)
  exact absurd shown (by decide)

theorem splitLines_lineOf (rest : List UInt8) :
    splitLines (lineOf text ++ rest) = lineOf text :: splitLines rest := by
  rw [lineOf, List.append_assoc, List.singleton_append]
  exact splitLines_cons (newline_not_mem printable) rest

theorem textLines_lineOf (rest : List UInt8) :
    textLines (lineOf text ++ rest) = text :: textLines rest := by
  simp [textLines, splitLines_lineOf printable, chomp_lineOf printable, textOf?_bytesOf]

theorem read_lineOf (limit : Nat) :
    (Incoming.empty.receive (lineOf text)).read limit =
      (some ((lineOf text).take limit), ⟨(lineOf text).drop limit, false⟩) := by
  have taken : takeLine limit (lineOf text) =
      ((lineOf text).take limit, (lineOf text).drop limit) := by
    have line := takeLine_line (newline_not_mem printable) limit []
    rwa [List.append_nil] at line
  have complete : ((lineOf text).take limit).getLast? = some newline ∨
      ((lineOf text).take limit).length = limit := by
    rcases Nat.le_total limit (lineOf text).length with short | enough
    · exact .inr (List.length_take_of_le short)
    · rw [List.take_of_length_le enough, lineOf, List.getLast?_concat]
      exact .inl rfl
  simp only [Incoming.read, Incoming.receive, Incoming.empty, List.nil_append, taken]
  rw [if_pos (complete.imp_right .inl)]

omit printable

theorem splitLines_lines {lines : List String} (all : ∀ t ∈ lines, Json.Printable t.toList) :
    splitLines (lines.flatMap lineOf) = lines.map lineOf := by
  induction lines with
  | nil => rfl
  | cons t lines ih =>
    rw [List.flatMap_cons, splitLines_lineOf (all t List.mem_cons_self),
      ih fun u mem => all u (List.mem_cons_of_mem t mem), List.map_cons]

theorem textLines_lines {lines : List String} (all : ∀ t ∈ lines, Json.Printable t.toList) :
    textLines (lines.flatMap lineOf) = lines := by
  induction lines with
  | nil => rfl
  | cons t lines ih =>
    rw [List.flatMap_cons, textLines_lineOf (all t List.mem_cons_self),
      ih fun u mem => all u (List.mem_cons_of_mem t mem)]

end SessionCourier.Wire
