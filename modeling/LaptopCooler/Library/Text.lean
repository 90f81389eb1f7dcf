import Mathlib.Data.List.Basic
import Mathlib.Data.Nat.Notation
import Mathlib.Data.Int.Notation
import Mathlib.Tactic.Common

/-! # Text as Rust's standard library reads it

A string slice is a sequence of characters with a UTF-8 encoding
(`Text.bytes`, `Text.ofBytes?`). This module has the parts of the string
library that parsers use: splitting at ASCII whitespace, at a separator and into
lines, trimming, and reading decimal integers. The two facts about them that
connect a formatter with a parser are that a sequence of terminated words splits
into these words (`Text.splitAsciiWhitespace_words`) and that the decimal
rendering of a number reads back as that number (`Text.parseUnsigned_toString`,
`Text.parseSigned_toString`).
-/

namespace Text

/-! ## Encoding -/

/-- The UTF-8 bytes of a string. -/
def bytes (text : String) : List UInt8 := text.toByteArray.data.toList

/-- `str::from_utf8`: the string with the given bytes, if there is one. -/
def ofBytes? (encoded : List UInt8) : Option String := String.fromUTF8? ⟨encoded.toArray⟩

/-- Decoding inverts encoding. -/
@[simp] theorem ofBytes?_bytes (text : String) : ofBytes? (bytes text) = some text := by
  have valid : text.toByteArray.IsValidUTF8 := text.isValidUTF8
  simp only [ofBytes?, bytes, Array.toArray_toList, String.fromUTF8?, valid, ↓reduceDIte]
  rfl

/-- Encoding inverts decoding. -/
theorem bytes_of_ofBytes? {encoded : List UInt8} {text : String}
    (decoded : ofBytes? encoded = some text) : bytes text = encoded := by
  unfold ofBytes? String.fromUTF8? at decoded
  split at decoded
  · obtain rfl := Option.some.inj decoded
    rfl
  · exact (Option.some_ne_none _ decoded.symm).elim

theorem bytes_injective : Function.Injective bytes := by
  intro left right same
  have decoded := ofBytes?_bytes left
  rw [same, ofBytes?_bytes] at decoded
  exact (Option.some.inj decoded).symm

theorem length_bytes (text : String) : (bytes text).length = text.utf8ByteSize := rfl

theorem bytes_eq_flatMap (text : String) :
    bytes text = text.toList.flatMap String.utf8EncodeChar := by
  have encoded : text.toByteArray = text.toList.utf8Encode := by
    rw [← String.toByteArray_ofList, String.ofList_toList]
  rw [bytes, encoded, List.utf8Encode, List.data_toByteArray]

/-- An ASCII character of a string is one of its bytes. -/
theorem toUInt8_mem_bytes {text : String} {character : Char} (member : character ∈ text.toList)
    (ascii : character.val ≤ 127) : character.val.toUInt8 ∈ bytes text := by
  rw [bytes_eq_flatMap]
  refine List.mem_flatMap.mpr ⟨character, member, ?_⟩
  rw [String.utf8EncodeChar_eq_singleton (Char.utf8Size_eq_one_iff.mpr ascii)]
  exact List.mem_singleton_self _

/-- `u8::is_ascii_alphanumeric` -/
def isAsciiAlphanumeric (byte : UInt8) : Bool :=
  (48 ≤ byte && byte ≤ 57) || (65 ≤ byte && byte ≤ 90) || (97 ≤ byte && byte ≤ 122)

/-- `u8::is_ascii_hexdigit` -/
def isAsciiHexdigit (byte : UInt8) : Bool :=
  (48 ≤ byte && byte ≤ 57) || (65 ≤ byte && byte ≤ 70) || (97 ≤ byte && byte ≤ 102)

/-! ## Splitting -/

/-- Space, tab, line feed, form feed and carriage return. -/
def isAsciiWhitespace (character : Char) : Bool :=
  character = ' ' ∨ character = '\t' ∨ character = '\n' ∨ character = '\x0c' ∨ character = '\r'

/-- `str::split_ascii_whitespace`: the maximal runs of other characters. -/
def splitAsciiWhitespace (text : String) : List String :=
  ((text.toList.splitOnP isAsciiWhitespace).filter (· ≠ [])).map String.ofList

/-- A non-empty run of characters other than whitespace. -/
def IsWord (characters : List Char) : Prop :=
  characters ≠ [] ∧ ∀ character ∈ characters, isAsciiWhitespace character = false

/-- **Terminated words split into themselves.** -/
theorem splitAsciiWhitespace_words (words : List (List Char × Char))
    (shaped : ∀ word ∈ words, IsWord word.1 ∧ isAsciiWhitespace word.2 = true) :
    splitAsciiWhitespace (String.ofList (words.flatMap fun word => word.1 ++ [word.2])) =
      words.map fun word => String.ofList word.1 := by
  have pieces : ((words.flatMap fun word => word.1 ++ [word.2]).splitOnP isAsciiWhitespace).filter
      (· ≠ []) = words.map Prod.fst := by
    induction words with
    | nil => rfl
    | cons word rest ih =>
        obtain ⟨⟨nonempty, solid⟩, terminated⟩ := shaped word List.mem_cons_self
        have remaining := ih fun other member => shaped other (List.mem_cons_of_mem word member)
        rw [List.flatMap_cons, List.append_assoc, List.singleton_append,
          List.splitOnP_append_cons_of_forall_mem solid _ terminated, List.filter_cons, remaining]
        simp [nonempty]
  rw [splitAsciiWhitespace, String.toList_ofList, pieces, List.map_map]
  rfl

/-- `char::is_whitespace`: the Unicode property White_Space. -/
def isWhitespace (character : Char) : Bool :=
  let code := character.toNat
  (9 ≤ code ∧ code ≤ 13) ∨ code = 0x20 ∨ code = 0x85 ∨ code = 0xA0 ∨ code = 0x1680 ∨
    (0x2000 ≤ code ∧ code ≤ 0x200A) ∨ code = 0x2028 ∨ code = 0x2029 ∨ code = 0x202F ∨
    code = 0x205F ∨ code = 0x3000

/-- `str::trim`: drop whitespace at both ends. -/
def trim (text : String) : String :=
  String.ofList
    (((text.toList.dropWhile isWhitespace).reverse.dropWhile isWhitespace).reverse)

/-- `str::split_once` at a character: what stands before and after its first occurrence. -/
def splitOnce (separator : Char) (text : String) : Option (String × String) :=
  match text.toList.span (· ≠ separator) with
  | (_, []) => none
  | (before, _ :: after) => some (String.ofList before, String.ofList after)

/-- `str::split` at a character. -/
def split (separator : Char) (text : String) : List String :=
  (text.toList.splitOn separator).map String.ofList

/-- The pieces between the occurrences of a carriage return and a line feed. -/
private def splitCharactersAtCrLf : List Char → List (List Char)
  | [] => [[]]
  | '\r' :: '\n' :: rest => [] :: splitCharactersAtCrLf rest
  | character :: rest => (splitCharactersAtCrLf rest).modifyHead (character :: ·)

/-- `str::split` at `"\r\n"`. -/
def splitAtCrLf (text : String) : List String :=
  (splitCharactersAtCrLf text.toList).map String.ofList

/-- No carriage return is followed by a line feed. -/
def CrLfFree (characters : List Char) : Prop := ¬ ['\r', '\n'].IsInfix characters

theorem CrLfFree.tail {character : Char} {rest : List Char}
    (free : CrLfFree (character :: rest)) : CrLfFree rest :=
  fun found => free (found.trans (List.suffix_cons character rest).isInfix)

theorem crLfFree_nil : CrLfFree [] := fun found => by simpa using found.length_le

theorem crLfFree_of_not_mem {characters : List Char} (absent : '\r' ∉ characters) :
    CrLfFree characters :=
  fun found => absent (found.subset List.mem_cons_self)

theorem crLfFree_cons_iff {character : Char} {rest : List Char} :
    CrLfFree (character :: rest) ↔
      ¬ (character = '\r' ∧ rest.head? = some '\n') ∧ CrLfFree rest := by
  rw [CrLfFree, List.infix_cons_iff, not_or, CrLfFree]
  refine and_congr (not_congr ?_) Iff.rfl
  cases rest <;> simp [List.cons_prefix_cons, eq_comm]

/-- A line end ends the first piece. -/
private theorem splitCharactersAtCrLf_append {line : List Char} (free : CrLfFree line)
    (rest : List Char) :
    splitCharactersAtCrLf (line ++ '\r' :: '\n' :: rest) = line :: splitCharactersAtCrLf rest := by
  induction line with
  | nil => rfl
  | cons character line ih =>
      obtain ⟨apart, later⟩ := crLfFree_cons_iff.mp free
      have continued := ih later
      rw [List.cons_append, splitCharactersAtCrLf, continued]
      · rfl
      · rintro others rfl same
        refine apart ⟨rfl, ?_⟩
        cases line with
        | nil => cases same
        | cons second line => exact congrArg some (List.cons.inj same).1

private theorem splitCharactersAtCrLf_of_free {line : List Char} (free : CrLfFree line) :
    splitCharactersAtCrLf line = [line] := by
  induction line with
  | nil => rfl
  | cons character line ih =>
      obtain ⟨apart, later⟩ := crLfFree_cons_iff.mp free
      rw [splitCharactersAtCrLf, ih later]
      · rfl
      · rintro others rfl rfl
        exact apart ⟨rfl, rfl⟩

/-- **Joined pieces are split again.** -/
theorem splitAtCrLf_intercalate {pieces : List String} (nonempty : pieces ≠ [])
    (free : ∀ piece ∈ pieces, CrLfFree piece.toList) :
    splitAtCrLf ("\r\n".intercalate pieces) = pieces := by
  have characters : splitCharactersAtCrLf (['\r', '\n'].intercalate (pieces.map String.toList)) =
      pieces.map String.toList := by
    induction pieces with
    | nil => exact (nonempty rfl).elim
    | cons first rest ih =>
        obtain ⟨here, later⟩ := List.forall_mem_cons.mp free
        cases rest with
        | nil => simpa using splitCharactersAtCrLf_of_free here
        | cons second others =>
            have continued := ih (List.cons_ne_nil _ _) later
            rw [List.map_cons, List.map_cons, List.intercalate_cons_cons] at *
            rw [List.append_assoc]
            exact (splitCharactersAtCrLf_append here _).trans (congrArg _ continued)
  rw [splitAtCrLf, String.toList_intercalate]
  exact (congrArg (List.map String.ofList) characters).trans (by simp)

/-- Every list of characters is pieces joined by line ends that stand nowhere else. -/
private theorem exists_pieces_characters (characters : List Char) : ∃ first others,
    (∀ piece ∈ first :: others, CrLfFree piece) ∧
      ['\r', '\n'].intercalate (first :: others) = characters := by
  induction characters with
  | nil => exact ⟨[], [], by simp [crLfFree_nil], rfl⟩
  | cons character rest ih =>
      obtain ⟨first, others, free, joined⟩ := ih
      obtain ⟨here, later⟩ := List.forall_mem_cons.mp free
      by_cases ended : character = '\r' ∧ rest.head? = some '\n'
      · obtain ⟨rfl, feed⟩ := ended
        -- The line feed is the first character of the first piece, and a line ends before it.
        cases first with
        | nil =>
            rw [← joined] at feed
            cases others <;> simp [List.intercalate_cons_cons] at feed
        | cons second first =>
            rw [← joined, List.intercalate_cons_cons_left] at feed
            obtain rfl := Option.some.inj feed
            refine ⟨[], first :: others, ?_, ?_⟩
            · exact List.forall_mem_cons.mpr
                ⟨crLfFree_nil, List.forall_mem_cons.mpr ⟨here.tail, later⟩⟩
            · rw [← joined, List.intercalate_cons_cons_left, List.intercalate_cons_cons]
              rfl
      · refine ⟨character :: first, others, List.forall_mem_cons.mpr ⟨?_, later⟩, ?_⟩
        · refine crLfFree_cons_iff.mpr ⟨fun both => ended ⟨both.1, ?_⟩, here⟩
          cases first with
          | nil => cases both.2
          | cons second first =>
              rw [← joined, List.intercalate_cons_cons_left]
              exact both.2
        · rw [List.intercalate_cons_cons_left, joined]

/-- **Every text is pieces joined** by line ends that stand nowhere else. -/
theorem exists_pieces (text : String) : ∃ pieces : List String, pieces ≠ [] ∧
    (∀ piece ∈ pieces, CrLfFree piece.toList) ∧ "\r\n".intercalate pieces = text := by
  obtain ⟨first, others, free, joined⟩ := exists_pieces_characters text.toList
  refine ⟨(first :: others).map String.ofList, by simp, ?_, ?_⟩
  · intro piece member
    obtain ⟨characters, inside, rfl⟩ := List.mem_map.mp member
    rw [String.toList_ofList]
    exact free characters inside
  · rw [← String.toList_inj, String.toList_intercalate, ← joined]
    simp [List.map_map, Function.comp_def]

/-- `str::eq_ignore_ascii_case` -/
def eqIgnoreAsciiCase (left right : String) : Bool :=
  left.toList.map Char.toLower = right.toList.map Char.toLower

/-- A line without the carriage return that may end it. -/
private def stripCarriageReturn (line : List Char) : List Char :=
  if line.getLast? = some '\r' then line.dropLast else line

/-- `str::lines`: the pieces between line feeds, without a final empty piece and
without a carriage return before the line feed. -/
def lines (text : String) : List String :=
  match (text.toList.splitOn '\n').reverse with
  | [] => []
  | last :: before =>
      before.reverse.map (fun line => String.ofList (stripCarriageReturn line)) ++
        if last = [] then [] else [String.ofList last]

/-- The text of lines that are each ended by a line feed. -/
def unlines (written : List String) : String :=
  String.ofList (written.flatMap fun line => line.toList ++ ['\n'])

private theorem splitOn_unlines {written : List String}
    (plain : ∀ line ∈ written, '\n' ∉ line.toList) :
    (unlines written).toList.splitOn '\n' = written.map String.toList ++ [[]] := by
  rw [unlines, String.toList_ofList]
  induction written with
  | nil => rfl
  | cons line rest ih =>
      have remaining := ih fun other member => plain other (List.mem_cons_of_mem line member)
      rw [List.flatMap_cons, List.append_assoc, List.singleton_append,
        List.splitOn_append_cons_self_of_not_mem (plain line List.mem_cons_self), remaining]
      rfl

/-- Whitespace at the end is trimmed. -/
private theorem trim_append_whitespace (line : List Char) {character : Char}
    (blank : isWhitespace character = true) :
    trim (String.ofList (line ++ [character])) = trim (String.ofList line) := by
  have alone : [character].dropWhile isWhitespace = [] := by simp [blank]
  simp only [trim, String.toList_ofList, List.dropWhile_append, alone]
  split
  · next none => rw [List.isEmpty_iff.mp none]
  · rw [List.reverse_append, List.reverse_singleton, List.singleton_append,
      List.dropWhile_cons_of_pos blank]

private theorem trim_stripCarriageReturn (line : List Char) :
    trim (String.ofList (stripCarriageReturn line)) = trim (String.ofList line) := by
  unfold stripCarriageReturn
  split
  · next ended =>
      have whole : line = line.dropLast ++ ['\r'] := (List.dropLast_append_getLast? '\r' ended).symm
      have blank : isWhitespace '\r' = true := rfl
      rw [whole, List.dropLast_concat, trim_append_whitespace _ blank]
  · rfl

/-- **Written lines are read back**, apart from a carriage return that trimming drops. -/
theorem map_trim_lines_unlines {written : List String}
    (plain : ∀ line ∈ written, '\n' ∉ line.toList) :
    (lines (unlines written)).map trim = written.map trim := by
  rw [lines, splitOn_unlines plain]
  simp only [List.reverse_append, List.reverse_singleton, List.singleton_append,
    List.reverse_reverse, ↓reduceIte, List.append_nil, List.map_map]
  refine List.map_congr_left fun line _ => ?_
  rw [Function.comp_apply, Function.comp_apply, trim_stripCarriageReturn, String.ofList_toList]

/-! ## Decimal integers -/

/-- The value of a non-empty run of decimal digits. -/
def digitsValue? (digits : List Char) : Option ℕ :=
  if digits ≠ [] ∧ digits.all Char.isDigit then some (Nat.ofDigitChars 10 digits 0) else none

/-- `str::parse` for an unsigned type with the given maximum. -/
def parseUnsigned (maximum : ℕ) (text : String) : Option ℕ :=
  (match text.toList with
    | '+' :: digits => digitsValue? digits
    | digits => digitsValue? digits).filter (· ≤ maximum)

/-- `str::parse` for a signed type with the given bounds. -/
def parseSigned (minimum maximum : ℤ) (text : String) : Option ℤ :=
  (match text.toList with
    | '+' :: digits => (digitsValue? digits).map Int.ofNat
    | '-' :: digits => (digitsValue? digits).map fun value => -Int.ofNat value
    | digits => (digitsValue? digits).map Int.ofNat).filter fun value =>
      minimum ≤ value ∧ value ≤ maximum

theorem parseUnsigned_le {maximum value : ℕ} {text : String}
    (read : parseUnsigned maximum text = some value) : value ≤ maximum := by
  have kept := (Option.filter_eq_some_iff.mp read).2
  simpa using kept

/-- The digits of a number read back as the number. -/
theorem digitsValue?_toDigits (value : ℕ) : digitsValue? (Nat.toDigits 10 value) = some value := by
  have digits : (Nat.toDigits 10 value).all Char.isDigit = true :=
    List.all_eq_true.mpr fun _ member =>
      Nat.isDigit_of_mem_toDigits (by decide) (by decide) member
  simp [digitsValue?, Nat.toDigits_ne_nil, digits]

private theorem toDigits_head {value : ℕ} {head : Char} {rest : List Char}
    (digits : Nat.toDigits 10 value = head :: rest) : head.isDigit = true :=
  Nat.isDigit_of_mem_toDigits (by decide) (by decide) (digits ▸ List.mem_cons_self)

/-- **Rendering and reading an unsigned number.** -/
theorem parseUnsigned_toString {maximum value : ℕ} (bounded : value ≤ maximum) :
    parseUnsigned maximum (toString value) = some value := by
  have digits := digitsValue?_toDigits value
  have rendered : (toString value).toList = Nat.toDigits 10 value := Nat.toList_repr
  simp only [parseUnsigned, rendered]
  split
  · next head =>
      have := toDigits_head head
      contradiction
  · rw [digits, Option.filter_some]
    simp [bounded]

theorem toString_negSucc (value : ℕ) :
    (toString (Int.negSucc value)).toList = '-' :: Nat.toDigits 10 (value + 1) := by
  change (("-" : String) ++ Nat.repr (value + 1)).toList = _
  rw [String.toList_append, Nat.toList_repr]
  rfl

/-- **Rendering and reading a signed number.** -/
theorem parseSigned_toString {minimum maximum value : ℤ} (above : minimum ≤ value)
    (below : value ≤ maximum) : parseSigned minimum maximum (toString value) = some value := by
  cases value with
  | ofNat magnitude =>
      have digits := digitsValue?_toDigits magnitude
      have rendered : (toString (Int.ofNat magnitude)).toList = Nat.toDigits 10 magnitude :=
        Nat.toList_repr
      simp only [parseSigned, rendered]
      split
      · next head =>
          have := toDigits_head head
          contradiction
      · next head =>
          have := toDigits_head head
          contradiction
      · rw [digits, Option.map_some, Option.filter_some]
        simp only [above, below, and_self, decide_true, ↓reduceIte]
  | negSucc magnitude =>
      have digits := digitsValue?_toDigits (magnitude + 1)
      simp only [parseSigned, toString_negSucc, digits, Option.map_some, Option.filter_some]
      have negated : -Int.ofNat (magnitude + 1) = Int.negSucc magnitude := rfl
      simp only [negated, above, below, and_self, decide_true, ↓reduceIte]

/-- A decimal rendering is a word. -/
theorem isWord_toDigits (value : ℕ) : IsWord (Nat.toDigits 10 value) := by
  refine ⟨Nat.toDigits_ne_nil, fun character member => ?_⟩
  have digit := Nat.isDigit_of_mem_toDigits (by decide) (by decide) member
  by_contra space
  simp only [isAsciiWhitespace, Bool.not_eq_false, decide_eq_true_eq] at space
  rcases space with rfl | rfl | rfl | rfl | rfl <;> simp at digit

theorem isWord_toString (value : ℕ) : IsWord (toString value).toList := by
  have rendered : (toString value).toList = Nat.toDigits 10 value := Nat.toList_repr
  rw [rendered]
  exact isWord_toDigits value

theorem isWord_toString_int (value : ℤ) : IsWord (toString value).toList := by
  cases value with
  | ofNat magnitude => exact isWord_toString magnitude
  | negSucc magnitude =>
      rw [toString_negSucc]
      refine ⟨List.cons_ne_nil _ _, fun character member => ?_⟩
      rcases List.mem_cons.mp member with rfl | digit
      · rfl
      · exact (isWord_toDigits (magnitude + 1)).2 character digit

end Text
