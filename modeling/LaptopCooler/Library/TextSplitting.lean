import LaptopCooler.Library.Text
import Mathlib.Data.List.TakeDrop
import Mathlib.Data.List.TakeWhile

/-! # Splitting text at ASCII characters

An ASCII byte of a UTF-8 encoding is an ASCII character of the text. Text may
therefore be split in its bytes as well as in its characters: the pieces between
the occurrences of an ASCII character are encoded by the pieces between the
occurrences of its byte (`Text.split_bytes`), and bytes that are cut at an ASCII
byte are text on both sides if they are text (`Text.exists_cut`).
-/

namespace Text

/-! ## ASCII bytes -/

/-- Every byte of a longer encoding has its high bit set. -/
theorem utf8EncodeChar_of_mem_ascii {character : Char} {byte : UInt8}
    (member : byte ∈ String.utf8EncodeChar character) (ascii : byte ≤ 127) :
    String.utf8EncodeChar character = [byte] := by
  have high (low : UInt8) {mark : UInt8} (marked : 128 ≤ mark) : byte ≠ low ||| mark := by
    rintro rfl
    have above : mark ≤ low ||| mark := by
      rw [UInt8.le_iff_toNat_le, UInt8.toNat_or]
      exact Nat.right_le_or
    exact absurd (UInt8.le_trans marked (UInt8.le_trans above ascii)) (by decide)
  rcases character.utf8Size_eq with size | size | size | size
  · rw [String.utf8EncodeChar_eq_singleton size] at member ⊢
    rw [List.mem_singleton.mp member]
  · rw [String.utf8EncodeChar_eq_cons_cons size] at member
    simp [high] at member
  · rw [String.utf8EncodeChar_eq_cons_cons_cons size] at member
    simp [high] at member
  · rw [String.utf8EncodeChar_eq_cons_cons_cons_cons size] at member
    simp [high] at member

/-- An ASCII character is one byte. -/
theorem utf8EncodeChar_ascii {character : Char} (ascii : character.val ≤ 127) :
    String.utf8EncodeChar character = [character.val.toUInt8] :=
  String.utf8EncodeChar_eq_singleton (Char.utf8Size_eq_one_iff.mpr ascii)

theorem toUInt8_ascii {character : Char} (ascii : character.val ≤ 127) :
    character.val.toUInt8 ≤ 127 := by
  rw [UInt32.le_iff_toNat_le] at ascii
  rw [UInt8.le_iff_toNat_le, UInt32.toNat_toUInt8]
  exact Nat.le_trans (Nat.mod_le _ _) ascii

theorem bytes_ofList (characters : List Char) :
    bytes (String.ofList characters) = characters.flatMap String.utf8EncodeChar := by
  rw [bytes_eq_flatMap, String.toList_ofList]

@[simp] theorem bytes_append (left right : String) :
    bytes (left ++ right) = bytes left ++ bytes right := by
  simp only [bytes_eq_flatMap, String.toList_append, List.flatMap_append]

/-- The bytes of an ASCII character occur only where the character does. -/
theorem toUInt8_mem_bytes_iff {text : String} {character : Char} (ascii : character.val ≤ 127) :
    character.val.toUInt8 ∈ bytes text ↔ character ∈ text.toList := by
  refine ⟨fun member => ?_, fun member => toUInt8_mem_bytes member ascii⟩
  rw [bytes_eq_flatMap] at member
  obtain ⟨other, inside, encoded⟩ := List.mem_flatMap.mp member
  have single := utf8EncodeChar_of_mem_ascii encoded (toUInt8_ascii ascii)
  rw [← utf8EncodeChar_ascii ascii] at single
  have same : bytes (String.ofList [other]) = bytes (String.ofList [character]) := by
    simp only [bytes_ofList, List.flatMap_singleton, single]
  have equal := congrArg String.toList (bytes_injective same)
  rw [String.toList_ofList, String.toList_ofList, List.singleton_inj] at equal
  rwa [← equal]

/-! ## Cutting at an ASCII byte -/

private theorem exists_cut_characters {byte : UInt8} (ascii : byte ≤ 127) {right : List UInt8}
    (characters : List Char) : ∀ {left : List UInt8},
      characters.flatMap String.utf8EncodeChar = left ++ byte :: right →
      ∃ before after : List Char, before.flatMap String.utf8EncodeChar = left ∧
        after.flatMap String.utf8EncodeChar = right := by
  induction characters with
  | nil =>
      intro left cut
      simp at cut
  | cons character rest ih =>
      intro left cut
      rw [List.flatMap_cons, List.append_eq_append_iff] at cut
      rcases cut with ⟨remaining, rfl, later⟩ | ⟨inside, encoded, later⟩
      · obtain ⟨before, after, rfl, rfl⟩ := ih later
        exact ⟨character :: before, after, List.flatMap_cons, rfl⟩
      · cases inside with
        | nil =>
            obtain ⟨_, after, _, rfl⟩ := @ih [] later.symm
            exact ⟨[character], after, by simpa using encoded, rfl⟩
        | cons first others =>
            -- The character is the ASCII byte itself.
            obtain ⟨rfl, rfl⟩ := List.cons_eq_cons.mp later
            have member : byte ∈ String.utf8EncodeChar character := by simp [encoded]
            rw [utf8EncodeChar_of_mem_ascii member ascii] at encoded
            obtain ⟨rfl, rfl⟩ : left = [] ∧ others = [] := by
              have lengths := congrArg List.length encoded
              simp only [List.length_append, List.length_cons, List.length_nil] at lengths
              exact ⟨List.length_eq_zero_iff.mp (by omega), List.length_eq_zero_iff.mp (by omega)⟩
            exact ⟨[], rest, rfl, rfl⟩

/-- **Text cut at an ASCII byte is text on both sides.** -/
theorem exists_cut {text : String} {left right : List UInt8} {byte : UInt8} (ascii : byte ≤ 127)
    (cut : bytes text = left ++ byte :: right) :
    ∃ before after : String, bytes before = left ∧ bytes after = right := by
  rw [bytes_eq_flatMap] at cut
  obtain ⟨before, after, same, rest⟩ := exists_cut_characters ascii text.toList cut
  exact ⟨String.ofList before, String.ofList after, by rw [bytes_ofList, same],
    by rw [bytes_ofList, rest]⟩

/-! ## Splitting once -/

theorem splitOnce_eq_some_iff {separator : Char} {text before after : String} :
    splitOnce separator text = some (before, after) ↔
      separator ∉ before.toList ∧ text.toList = before.toList ++ separator :: after.toList := by
  unfold splitOnce
  rw [List.span_eq_takeWhile_dropWhile]
  constructor
  · have whole := @List.takeWhile_append_dropWhile _ (· ≠ separator) text.toList
    have absent : separator ∉ text.toList.takeWhile (· ≠ separator) := fun member => by
      simpa using List.mem_takeWhile_imp member
    have stop := List.head?_dropWhile_not (· ≠ separator) text.toList
    cases dropped : text.toList.dropWhile (· ≠ separator) with
    | nil => exact fun found => (Option.some_ne_none _ found.symm).elim
    | cons first rest =>
        intro found
        obtain ⟨rfl, rfl⟩ := Prod.mk.inj (Option.some.inj found)
        rw [dropped] at whole stop
        obtain rfl : first = separator := by simpa using stop
        rw [String.toList_ofList, String.toList_ofList]
        exact ⟨absent, whole.symm⟩
  · rintro ⟨absent, whole⟩
    have all : ∀ character ∈ before.toList, decide (character ≠ separator) = true :=
      fun character member => decide_eq_true fun same => absent (same ▸ member)
    rw [whole, List.takeWhile_append_of_pos all, List.dropWhile_append_of_pos all]
    simp

/-- Splitting once, in the bytes. -/
theorem splitOnce_eq_some_iff_bytes {separator : Char} (ascii : separator.val ≤ 127)
    {text before after : String} :
    splitOnce separator text = some (before, after) ↔
      separator.val.toUInt8 ∉ bytes before ∧
        bytes text = bytes before ++ separator.val.toUInt8 :: bytes after := by
  have joined : bytes (before ++ String.ofList [separator] ++ after) =
      bytes before ++ separator.val.toUInt8 :: bytes after := by
    simp only [bytes_append, bytes_ofList, List.flatMap_singleton, utf8EncodeChar_ascii ascii,
      List.append_assoc, List.singleton_append]
  have whole : text.toList = before.toList ++ separator :: after.toList ↔
      text = before ++ String.ofList [separator] ++ after := by
    rw [← String.toList_inj]
    simp
  rw [splitOnce_eq_some_iff, toUInt8_mem_bytes_iff ascii, ← joined, bytes_injective.eq_iff, whole]

/-! ## Splitting everywhere -/

theorem not_mem_of_mem_splitOn {α : Type} [DecidableEq α] {separator : α} {whole piece : List α}
    (member : piece ∈ whole.splitOn separator) : separator ∉ piece := by
  induction whole generalizing piece with
  | nil =>
      rw [List.splitOn_nil, List.mem_singleton] at member
      simp [member]
  | cons first rest ih =>
      rw [List.splitOn_cons_eq_if_modifyHead] at member
      split at member
      · rcases List.mem_cons.mp member with rfl | later
        · exact List.not_mem_nil
        · exact ih later
      next differs =>
        cases pieces : rest.splitOn separator with
        | nil => simp [pieces] at member
        | cons head others =>
            rw [pieces, List.modifyHead_cons, List.mem_cons] at member
            rcases member with rfl | later
            · have absent := ih (by rw [pieces]; exact List.mem_cons_self)
              simp only [beq_iff_eq] at differs
              simpa [absent] using Ne.symm differs
            · exact ih (by rw [pieces]; exact List.mem_cons_of_mem _ later)

theorem flatMap_intercalate {α β : Type} (encode : α → List β) (separator : List α)
    (pieces : List (List α)) :
    (separator.intercalate pieces).flatMap encode =
      (separator.flatMap encode).intercalate (pieces.map fun piece => piece.flatMap encode) := by
  induction pieces with
  | nil => rfl
  | cons first rest ih =>
      cases rest with
      | nil => simp
      | cons second others =>
          simp only [List.map_cons, List.intercalate_cons_cons, List.flatMap_append] at ih ⊢
          rw [ih]

theorem bytes_intercalate (separator : String) (pieces : List String) :
    bytes (separator.intercalate pieces) = (bytes separator).intercalate (pieces.map bytes) := by
  rw [bytes_eq_flatMap, String.toList_intercalate, flatMap_intercalate, ← bytes_eq_flatMap,
    List.map_map]
  congr 1
  exact List.map_congr_left fun piece _ => (bytes_eq_flatMap piece).symm

/-- **Splitting text is splitting its bytes.** -/
theorem split_bytes {separator : Char} (ascii : separator.val ≤ 127) (text : String) :
    (split separator text).map bytes = (bytes text).splitOn separator.val.toUInt8 := by
  have whole : bytes text =
      [separator.val.toUInt8].intercalate ((split separator text).map bytes) := by
    have pieces := congrArg (List.flatMap String.utf8EncodeChar)
      (@List.intercalate_splitOn _ text.toList _ _ separator)
    rw [flatMap_intercalate, ← bytes_eq_flatMap, List.flatMap_singleton,
      utf8EncodeChar_ascii ascii] at pieces
    rw [← pieces, split, List.map_map]
    congr 1
    exact List.map_congr_left fun piece _ => (bytes_ofList piece).symm
  have absent : ∀ piece ∈ (split separator text).map bytes,
      separator.val.toUInt8 ∉ piece := by
    intro encoded member
    obtain ⟨piece, inside, rfl⟩ := List.mem_map.mp member
    obtain ⟨characters, found, rfl⟩ := List.mem_map.mp inside
    rw [toUInt8_mem_bytes_iff ascii, String.toList_ofList]
    exact not_mem_of_mem_splitOn found
  have nonempty : (split separator text).map bytes ≠ [] := by
    simp [split, List.splitOn_ne_nil]
  conv_rhs => rw [whole]
  rw [List.splitOn_intercalate separator.val.toUInt8 absent nonempty]

end Text
