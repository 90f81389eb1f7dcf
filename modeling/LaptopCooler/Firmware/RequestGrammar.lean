import LaptopCooler.Firmware.FormEncoding
import LaptopCooler.Firmware.SetupRequest

/-! # The grammar of a setup request

The head of a request is its lines, each ended by a line end, and an empty line.
The parser finds it as the bytes up to the first empty line
(`LaptopCooler.Firmware.head_iff`). It reads the form page and the configurations
to save out of exactly the requests of the grammar
(`LaptopCooler.Firmware.setup_request_grammar`).
-/

namespace LaptopCooler.Firmware

open Fallible

/-! ## The head -/

/-- A line of a head: not empty, and without a line end in it. -/
def IsLine (line : String) : Prop := line ≠ "" ∧ Text.CrLfFree line.toList

/-- The lines of a head as they are sent, with the empty line. -/
def encodeHead (lines : List String) : String := "\r\n".intercalate (lines ++ ["", ""])

/-- The end of a head. -/
def headEnd : String := "\r\n\r\n"

theorem bytes_headEnd : Text.bytes headEnd = headerTerminator := by rfl

theorem crLfFree_empty : Text.CrLfFree "".toList := Text.crLfFree_nil

/-- The end of a head is an empty piece. -/
theorem intercalate_empty_piece {before after : List String} (beforeNonempty : before ≠ [])
    (afterNonempty : after ≠ []) : "\r\n".intercalate (before ++ "" :: after) =
      "\r\n".intercalate before ++ headEnd ++ "\r\n".intercalate after := by
  rw [String.intercalate_append_of_ne_nil beforeNonempty (List.cons_ne_nil _ _),
    String.intercalate_cons_of_ne_nil afterNonempty,
    show headEnd = "\r\n" ++ ("" ++ "\r\n") from rfl]
  simp only [String.append_assoc]

theorem splitAtCrLf_headEnd {before after : List String} (beforeNonempty : before ≠ [])
    (afterNonempty : after ≠ []) (free : ∀ piece ∈ before ++ after, Text.CrLfFree piece.toList) :
    Text.splitAtCrLf ("\r\n".intercalate before ++ headEnd ++ "\r\n".intercalate after) =
      before ++ "" :: after := by
  rw [← intercalate_empty_piece beforeNonempty afterNonempty]
  refine Text.splitAtCrLf_intercalate (by simp) ?_
  intro piece member
  rcases List.mem_append.mp member with inBefore | inAfter
  · exact free piece (List.mem_append_left _ inBefore)
  · rcases List.mem_cons.mp inAfter with rfl | later
    · exact crLfFree_empty
    · exact free piece (List.mem_append_right _ later)

theorem encodeHead_eq {lines : List String} (nonempty : lines ≠ []) :
    encodeHead lines = "\r\n".intercalate lines ++ headEnd := by
  rw [encodeHead, String.intercalate_append_of_ne_nil nonempty (List.cons_ne_nil _ _),
    String.append_assoc]
  rfl

theorem splitAtCrLf_encodeHead {lines : List String} (nonempty : lines ≠ [])
    (free : ∀ line ∈ lines, Text.CrLfFree line.toList) :
    Text.splitAtCrLf (encodeHead lines) = lines ++ ["", ""] := by
  have ended : encodeHead lines =
      "\r\n".intercalate lines ++ headEnd ++ "\r\n".intercalate [""] := by
    rw [encodeHead_eq nonempty, String.intercalate_singleton, String.append_empty]
  rw [ended]
  refine splitAtCrLf_headEnd nonempty (List.cons_ne_nil _ _) ?_
  intro piece member
  rcases List.mem_append.mp member with inside | last
  · exact free piece inside
  · obtain rfl := List.mem_singleton.mp last
    exact crLfFree_empty

/-- The end of a head in the bytes of a text is one in the text. -/
theorem exists_headEnd {text : String} {left right : List UInt8}
    (cut : Text.bytes text = left ++ headerTerminator ++ right) :
    ∃ before after : String, Text.bytes before = left ∧ Text.bytes after = right ∧
      text = before ++ headEnd ++ after := by
  rw [headerTerminator, List.append_assoc, List.cons_append] at cut
  obtain ⟨before, first, rfl, firstBytes⟩ := Text.exists_cut (by decide) cut
  obtain ⟨_, second, _, secondBytes⟩ := @Text.exists_cut first [] _ 10 (by decide) firstBytes
  obtain ⟨_, third, _, thirdBytes⟩ := @Text.exists_cut second [] _ 13 (by decide) secondBytes
  obtain ⟨_, after, _, rfl⟩ := @Text.exists_cut third [] _ 10 (by decide) thirdBytes
  refine ⟨before, after, rfl, rfl, Text.bytes_injective ?_⟩
  rw [cut, Text.bytes_append, Text.bytes_append, bytes_headEnd, headerTerminator]
  simp

/-- A window of the bytes cuts them. -/
theorem cut_of_window {bytes window : List UInt8} {index : ℕ}
    (here : (bytes.drop index).take window.length = window) :
    bytes = bytes.take index ++ window ++ bytes.drop (index + window.length) := by
  conv_lhs => rw [← List.take_append_drop index bytes,
    ← List.take_append_drop window.length (bytes.drop index), here, List.drop_drop]
  rw [List.append_assoc]

/-- Among the pieces of a head only the last two are empty. -/
private theorem eq_lines_of_empty_piece {lines left right : List String}
    (proper : ∀ line ∈ lines, IsLine line) (followed : right ≠ [])
    (pieces : left ++ "" :: right = lines ++ ["", ""]) : left = lines := by
  have sizes := congrArg List.length pieces
  have more := List.length_pos_of_ne_nil followed
  simp only [List.length_append, List.length_cons, List.length_nil] at sizes
  have reached : ¬ left.length < lines.length := by
    intro short
    have here : (lines ++ ["", ""])[left.length]? = some "" := by
      rw [← pieces, List.getElem?_append_right (Nat.le_refl _), Nat.sub_self]
      rfl
    rw [List.getElem?_append_left short] at here
    exact (proper "" (List.mem_of_getElem? here)).1 rfl
  exact List.append_inj_left pieces (by omega)

/-- **The empty line is the first** in the head of a request. -/
theorem findBytes_encodeHead {lines : List String} (nonempty : lines ≠ [])
    (proper : ∀ line ∈ lines, IsLine line) (rest : List UInt8) :
    findBytes (Text.bytes (encodeHead lines) ++ rest) headerTerminator =
      some (Text.bytes ("\r\n".intercalate lines)).length := by
  have shape : Text.bytes (encodeHead lines) =
      Text.bytes ("\r\n".intercalate lines) ++ headerTerminator := by
    rw [encodeHead_eq nonempty, Text.bytes_append, bytes_headEnd]
  have size : headerTerminator.length = 4 := rfl
  have total : (Text.bytes (encodeHead lines)).length =
      (Text.bytes ("\r\n".intercalate lines)).length + 4 := by
    rw [shape, List.length_append, size]
  refine findBytes_eq_some_iff.mpr ⟨?_, ?_, ?_⟩
  · rw [List.length_append, total, size]
    omega
  · rw [take_drop_append (by rw [total, size]), shape, List.drop_left]
    rfl
  · intro earlier before here
    rw [take_drop_append (by rw [total, size]; omega)] at here
    obtain ⟨left, right, leftBytes, _, cut⟩ := exists_headEnd (cut_of_window here)
    obtain ⟨leftPieces, leftNonempty, leftFree, rfl⟩ := Text.exists_pieces left
    obtain ⟨rightPieces, rightNonempty, rightFree, rfl⟩ := Text.exists_pieces right
    have pieces := splitAtCrLf_encodeHead nonempty fun line member => (proper line member).2
    rw [cut, splitAtCrLf_headEnd leftNonempty rightNonempty] at pieces
    · obtain rfl := eq_lines_of_empty_piece proper rightNonempty pieces
      have whole := congrArg List.length leftBytes
      rw [List.length_take, total] at whole
      omega
    · intro piece member
      rcases List.mem_append.mp member with inLeft | inRight
      · exact leftFree piece inLeft
      · exact rightFree piece inRight

/-- **What ends with the first empty line** is a head, unless it begins with one. -/
theorem exists_lines {bytes : List UInt8} {index : ℕ} {text : String}
    (found : findBytes bytes headerTerminator = some index)
    (read : Text.ofBytes? (bytes.take (index + 4)) = some text)
    (begun : (Text.splitAtCrLf text).head? ≠ some "") :
    ∃ lines, lines ≠ [] ∧ (∀ line ∈ lines, IsLine line) ∧ text = encodeHead lines := by
  obtain ⟨inside, here, earliest⟩ := findBytes_eq_some_iff.mp found
  have size : headerTerminator.length = 4 := rfl
  have textBytes := Text.bytes_of_ofBytes? read
  have ended : Text.bytes text = bytes.take index ++ headerTerminator ++ [] := by
    rw [textBytes, List.take_add, List.append_nil, ← size, here]
  obtain ⟨before, after, beforeBytes, afterBytes, cut⟩ := exists_headEnd ended
  obtain rfl : after = "" := Text.bytes_injective (by rw [afterBytes]; rfl)
  obtain ⟨lines, nonempty, free, rfl⟩ := Text.exists_pieces before
  rw [String.append_empty, ← encodeHead_eq nonempty] at cut
  refine ⟨lines, nonempty, fun line member => ⟨?_, free line member⟩, cut⟩
  rintro rfl
  obtain ⟨first, second, rfl⟩ := List.append_of_mem member
  cases first with
  | nil =>
      rw [cut, splitAtCrLf_encodeHead nonempty free] at begun
      exact begun rfl
  | cons start first =>
      -- An empty line between the others would end the head before it ends.
      have windowed : Text.bytes text ++ bytes.drop (index + 4) =
          Text.bytes ("\r\n".intercalate (start :: first)) ++ (headerTerminator ++
            (Text.bytes ("\r\n".intercalate (second ++ ["", ""])) ++ bytes.drop (index + 4))) := by
        have shape : encodeHead (start :: first ++ "" :: second) =
            "\r\n".intercalate (start :: first) ++ headEnd ++
              "\r\n".intercalate (second ++ ["", ""]) := by
          rw [encodeHead, List.append_assoc]
          exact intercalate_empty_piece (List.cons_ne_nil _ _) (by simp)
        rw [cut, shape, Text.bytes_append, Text.bytes_append, bytes_headEnd]
        simp only [List.append_assoc]
      rw [textBytes, List.take_append_drop] at windowed
      have sooner : (Text.bytes ("\r\n".intercalate (start :: first))).length < index := by
        have whole := congrArg List.length beforeBytes
        rw [String.intercalate_append_of_ne_nil (List.cons_ne_nil _ _) (List.cons_ne_nil _ _),
          Text.bytes_append, Text.bytes_append, List.length_append, List.length_append,
          List.length_take] at whole
        have lineEnd : (Text.bytes "\r\n").length = 2 := rfl
        omega
      refine earliest _ sooner ?_
      rw [windowed, List.drop_left, List.take_left]

/-! ## The header lines -/

/-- The value that the line gives to the header, if it is a line of that header. -/
def headerValue (name line : String) : Option String :=
  (Text.splitOnce ':' line).bind fun field =>
    if Text.eqIgnoreAsciiCase field.1 name then some (Text.trim field.2) else none

/-- The values that the lines give to the header. -/
def headerValues (name : String) (lines : List String) : List String :=
  lines.filterMap (headerValue name)

/-- The content type is that of a form. -/
def isFormType (value : String) : Bool :=
  (Text.split ';' value).head?.map Text.trim = some "application/x-www-form-urlencoded"

/-- What the lines make of what the lines before have said. -/
structure ReadsHeaders (usizeMax : ℕ) (start final : Headers) (lines : List String) : Prop where
  fields : ∀ line ∈ lines, (Text.splitOnce ':' line).isSome = true
  plain : headerValues "transfer-encoding" lines = []
  length : (headerValues "content-length" lines = [] ∧ final.contentLength = start.contentLength) ∨
    start.contentLength = none ∧ ∃ value length, headerValues "content-length" lines = [value] ∧
      Text.parseUnsigned usizeMax value = some length ∧ final.contentLength = some length
  kind : final.validContentType =
    (((headerValues "content-type" lines).getLast?.map isFormType).getD start.validContentType)

/-- A name is not that of two headers. -/
theorem eqIgnoreAsciiCase_false {name first second : String}
    (differ : Text.eqIgnoreAsciiCase first second = false)
    (same : Text.eqIgnoreAsciiCase name first = true) :
    Text.eqIgnoreAsciiCase name second = false := by
  unfold Text.eqIgnoreAsciiCase at *
  rw [decide_eq_false_iff_not] at *
  rw [decide_eq_true_eq] at same
  exact fun other => differ (same.symm.trans other)

variable {usizeMax : ℕ}

/-- The last of several counts, the first if it is the last. -/
theorem lastOrDefault_cons {α β : Type} (judge : α → β) (standing : β) (first : α)
    (rest : List α) : ((first :: rest).getLast?.map judge).getD standing =
      (rest.getLast?.map judge).getD (judge first) := by
  rw [List.getLast?_cons]
  cases rest.getLast? <;> rfl

section Turn

variable {start final : Headers} {line name value : String} {rest : List String}

/-- The values of a header, by whether the first line is one of that header. -/
theorem headerValues_cons (found : Text.splitOnce ':' line = some (name, value))
    (header : String) : headerValues header (line :: rest) =
      if Text.eqIgnoreAsciiCase name header then Text.trim value :: headerValues header rest
      else headerValues header rest := by
  have here : headerValue header line =
      if Text.eqIgnoreAsciiCase name header then some (Text.trim value) else none := by
    rw [headerValue, found]
    rfl
  rw [headerValues, List.filterMap_cons, here]
  split <;> simp_all [headerValues]

/-- One more line with a colon. -/
theorem colons_cons (found : Text.splitOnce ':' line = some (name, value)) :
    (∀ other ∈ line :: rest, (Text.splitOnce ':' other).isSome = true) ↔
      ∀ other ∈ rest, (Text.splitOnce ':' other).isSome = true := by
  rw [List.forall_mem_cons, found]
  exact and_iff_right rfl

/-- The turn of a content length. -/
theorem readsHeaders_length (found : Text.splitOnce ':' line = some (name, value))
    (isLength : Text.eqIgnoreAsciiCase name "content-length" = true) :
    ReadsHeaders usizeMax start final (line :: rest) ↔
      ∃ next, start.parseLine usizeMax line = .ok next ∧
        ReadsHeaders usizeMax next final rest := by
  have noType := @eqIgnoreAsciiCase_false _ _ "content-type" (by rfl) isLength
  have noCoding := @eqIgnoreAsciiCase_false _ _ "transfer-encoding" (by rfl) isLength
  have lengths := @headerValues_cons _ _ _ rest found "content-length"
  have types := @headerValues_cons _ _ _ rest found "content-type"
  have codings := @headerValues_cons _ _ _ rest found "transfer-encoding"
  simp only [isLength, noType, noCoding, if_true, Bool.false_eq_true, if_false]
    at lengths types codings
  have turn : ∀ next, start.parseLine usizeMax line = .ok next ↔
      start.contentLength = none ∧ ∃ length,
        Text.parseUnsigned usizeMax (Text.trim value) = some length ∧
        next = { start with contentLength := some length } := by
    intro next
    simp only [Headers.parseLine, found, okOr_some, ok_bind, isLength, if_true, throw, throwThe,
      MonadExceptOf.throw, error_bind, guard_eq_ok_iff, bind_eq_ok_iff, okOr_eq_ok_iff, pure,
      Except.pure, Except.ok.injEq, @eq_comm _ _ next, Option.not_isSome_iff_eq_none]
  constructor
  · rintro ⟨fields, plain, ⟨none, _⟩ | ⟨vacant, _, length, single, read, given⟩, kind⟩
    · rw [lengths] at none
      cases none
    · rw [lengths] at single
      obtain ⟨rfl, others⟩ := List.cons.inj single
      exact ⟨_, (turn _).mpr ⟨vacant, length, read, rfl⟩, (colons_cons found).mp fields,
        codings ▸ plain, Or.inl ⟨others, given⟩, types ▸ kind⟩
  · rintro ⟨next, taken, fields, plain, length, kind⟩
    obtain ⟨vacant, count, read, rfl⟩ := (turn next).mp taken
    rcases length with ⟨others, given⟩ | ⟨unset, _⟩
    · exact ⟨(colons_cons found).mpr fields, codings.trans plain,
        Or.inr ⟨vacant, _, count, lengths.trans (congrArg _ others), read, given⟩,
        by rw [types]; exact kind⟩
    · cases unset

/-- The turn of a content type. -/
theorem readsHeaders_type (found : Text.splitOnce ':' line = some (name, value))
    (noLength : Text.eqIgnoreAsciiCase name "content-length" = false)
    (isType : Text.eqIgnoreAsciiCase name "content-type" = true) :
    ReadsHeaders usizeMax start final (line :: rest) ↔
      ∃ next, start.parseLine usizeMax line = .ok next ∧
        ReadsHeaders usizeMax next final rest := by
  have noCoding := @eqIgnoreAsciiCase_false _ _ "transfer-encoding" (by rfl) isType
  have lengths := @headerValues_cons _ _ _ rest found "content-length"
  have types := @headerValues_cons _ _ _ rest found "content-type"
  have codings := @headerValues_cons _ _ _ rest found "transfer-encoding"
  simp only [noLength, isType, noCoding, if_true, Bool.false_eq_true, if_false]
    at lengths types codings
  have turn : start.parseLine usizeMax line =
      .ok { start with validContentType := isFormType (Text.trim value) } := by
    simp only [Headers.parseLine, found, okOr_some, ok_bind, noLength, isType, Bool.false_eq_true,
      if_false, if_true]
    rfl
  -- The last content type counts, and this one if it is the last.
  have kinds : ((headerValues "content-type" (line :: rest)).getLast?.map
      isFormType).getD start.validContentType =
        ((headerValues "content-type" rest).getLast?.map isFormType).getD
          (isFormType (Text.trim value)) := by
    rw [types, lastOrDefault_cons]
  rw [turn]
  constructor
  · rintro ⟨fields, plain, length, kind⟩
    refine ⟨{ start with validContentType := isFormType (Text.trim value) }, rfl,
      (colons_cons found).mp fields, ?_, ?_, ?_⟩
    · rwa [codings] at plain
    · rwa [lengths] at length
    · rw [kind, kinds]
  · rintro ⟨next, taken, fields, plain, length, kind⟩
    obtain rfl := Except.ok.inj taken
    refine ⟨(colons_cons found).mpr fields, codings.trans plain, ?_, ?_⟩
    · rw [lengths]
      exact length
    · rw [kind, kinds]

/-- The turn of a transfer encoding, which is refused. -/
theorem readsHeaders_coding (found : Text.splitOnce ':' line = some (name, value))
    (noLength : Text.eqIgnoreAsciiCase name "content-length" = false)
    (noType : Text.eqIgnoreAsciiCase name "content-type" = false)
    (isCoding : Text.eqIgnoreAsciiCase name "transfer-encoding" = true) :
    ReadsHeaders usizeMax start final (line :: rest) ↔
      ∃ next, start.parseLine usizeMax line = .ok next ∧
        ReadsHeaders usizeMax next final rest := by
  have turn : start.parseLine usizeMax line = .error .unsupportedTransferEncoding := by
    simp only [Headers.parseLine, found, okOr_some, ok_bind, noLength, noType, isCoding,
      Bool.false_eq_true, if_false, if_true]
    rfl
  rw [turn]
  constructor
  · intro reads
    have plain := reads.plain
    rw [headerValues_cons found, if_pos isCoding] at plain
    cases plain
  · rintro ⟨_, taken, _⟩
    cases taken

/-- The turn of another header, which is passed over. -/
theorem readsHeaders_other (found : Text.splitOnce ':' line = some (name, value))
    (noLength : Text.eqIgnoreAsciiCase name "content-length" = false)
    (noType : Text.eqIgnoreAsciiCase name "content-type" = false)
    (noCoding : Text.eqIgnoreAsciiCase name "transfer-encoding" = false) :
    ReadsHeaders usizeMax start final (line :: rest) ↔
      ∃ next, start.parseLine usizeMax line = .ok next ∧
        ReadsHeaders usizeMax next final rest := by
  have turn : start.parseLine usizeMax line = .ok start := by
    simp only [Headers.parseLine, found, okOr_some, ok_bind, noLength, noType, noCoding,
      Bool.false_eq_true, if_false]
    rfl
  have lengths := @headerValues_cons _ _ _ rest found "content-length"
  have types := @headerValues_cons _ _ _ rest found "content-type"
  have codings := @headerValues_cons _ _ _ rest found "transfer-encoding"
  simp only [noLength, noType, noCoding, Bool.false_eq_true, if_false] at lengths types codings
  rw [turn]
  constructor
  · rintro ⟨fields, plain, length, kind⟩
    exact ⟨_, rfl, (colons_cons found).mp fields, codings ▸ plain, lengths ▸ length,
      types ▸ kind⟩
  · rintro ⟨next, taken, fields, plain, length, kind⟩
    obtain rfl := Except.ok.inj taken
    exact ⟨(colons_cons found).mpr fields, codings.trans plain, by rw [lengths]; exact length,
      by rw [types]; exact kind⟩

/-- One turn of the loop over the header lines. -/
theorem readsHeaders_cons_iff :
    ReadsHeaders usizeMax start final (line :: rest) ↔
      ∃ next, start.parseLine usizeMax line = .ok next ∧
        ReadsHeaders usizeMax next final rest := by
  cases found : Text.splitOnce ':' line with
  | none =>
      constructor
      · intro reads
        have field := reads.fields line List.mem_cons_self
        rw [found] at field
        cases field
      · rintro ⟨next, turn, _⟩
        rw [Headers.parseLine, found] at turn
        cases turn
  | some field =>
      cases isLength : Text.eqIgnoreAsciiCase field.1 "content-length" with
      | true => exact readsHeaders_length found isLength
      | false =>
          cases isType : Text.eqIgnoreAsciiCase field.1 "content-type" with
          | true => exact readsHeaders_type found isLength isType
          | false =>
              cases isCoding : Text.eqIgnoreAsciiCase field.1 "transfer-encoding" with
              | true => exact readsHeaders_coding found isLength isType isCoding
              | false => exact readsHeaders_other found isLength isType isCoding

end Turn

/-- **The loop over the header lines.** -/
theorem foldlM_parseLine_eq_ok_iff {start final : Headers} {lines : List String} :
    lines.foldlM (Headers.parseLine usizeMax) start = .ok final ↔
      ReadsHeaders usizeMax start final lines := by
  induction lines generalizing start with
  | nil =>
      constructor
      · intro done
        obtain rfl := Except.ok.inj done
        exact ⟨by simp, rfl, Or.inl ⟨rfl, rfl⟩, rfl⟩
      · rintro ⟨_, _, length | ⟨_, _, _, given, _⟩, kind⟩
        · obtain ⟨contentLength, validContentType⟩ := final
          obtain ⟨_, rfl⟩ := length
          obtain rfl := kind
          rfl
        · cases given
  | cons line rest ih =>
      rw [List.foldlM_cons, bind_eq_ok_iff, readsHeaders_cons_iff]
      simp only [ih]

/-! ## The request -/

/-- **Parsing a request from its head on.** -/
theorem parseRequest_of_head {first : String} {headers : List String}
    (proper : ∀ line ∈ first :: headers, IsLine line) (rest : List UInt8) (capacity : ℕ) :
    parseRequest usizeMax (Text.bytes (encodeHead (first :: headers)) ++ rest) capacity =
      if first = "GET / HTTP/1.1" ∨ first = "GET / HTTP/1.0" then .ok (some .showForm)
      else if "GET ".toList.isPrefixOf first.toList then .ok (some .notFound)
      else if first ≠ "POST /save HTTP/1.1" ∧ first ≠ "POST /save HTTP/1.0" then
        .ok (some .notFound)
      else headers.foldlM (Headers.parseLine usizeMax) .empty >>= fun read =>
        parseBody usizeMax (Text.bytes (encodeHead (first :: headers)) ++ rest) capacity
          (Text.bytes (encodeHead (first :: headers))).length read := by
  have nonempty : first :: headers ≠ [] := List.cons_ne_nil _ _
  have size : (Text.bytes ("\r\n".intercalate (first :: headers))).length + 4 =
      (Text.bytes (encodeHead (first :: headers))).length := by
    rw [encodeHead_eq nonempty, Text.bytes_append, bytes_headEnd, List.length_append]
    rfl
  have kept : (headers ++ ["", ""]).filter (· ≠ "") = headers := by
    rw [List.filter_append]
    have all : headers.filter (· ≠ "") = headers := List.filter_eq_self.mpr fun line member =>
      decide_eq_true (proper line (List.mem_cons_of_mem _ member)).1
    rw [all]
    simp
  simp only [parseRequest, findBytes_encodeHead nonempty proper rest, Option.map_some, size,
    List.take_left, Text.ofBytes?_bytes, okOr_some, ok_bind,
    splitAtCrLf_encodeHead nonempty fun line member => (proper line member).2,
    List.cons_append, List.head?_cons, List.tail_cons, kept, pure, Except.pure]

/-- What the parser reads as the form page or a configuration has a head. -/
theorem exists_head {bytes : List UInt8} {capacity : ℕ} {request : Request}
    (parsed : parseRequest usizeMax bytes capacity = .ok (some request))
    (known : request ≠ .notFound) : ∃ first headers rest,
      (∀ line ∈ first :: headers, IsLine line) ∧
        bytes = Text.bytes (encodeHead (first :: headers)) ++ rest := by
  unfold parseRequest at parsed
  cases found : findBytes bytes headerTerminator with
  | none =>
      rw [found] at parsed
      simp only [Option.map_none] at parsed
      split at parsed <;> cases parsed
  | some index =>
      simp only [found, Option.map_some, bind_eq_ok_iff, okOr_eq_ok_iff] at parsed
      obtain ⟨text, read, requestLine, begun, chosen⟩ := parsed
      have nonempty : requestLine ≠ "" := by
        rintro rfl
        simp [pure, Except.pure] at chosen
        exact known chosen.symm
      obtain ⟨lines, some, proper, rfl⟩ := exists_lines found read (by
        rw [begun]
        exact fun same => nonempty (Option.some.inj same))
      obtain ⟨first, headers, rfl⟩ := List.exists_cons_of_ne_nil some
      refine ⟨first, headers, bytes.drop (index + 4), proper, ?_⟩
      rw [Text.bytes_of_ofBytes? read, List.take_append_drop]

/-- A request to save the configuration: a line to post, header lines with one content length,
a last content type of a form and no transfer encoding, and a body of that length. -/
def SaveRequest (usizeMax capacity : ℕ) (bytes : List UInt8) (config : DeviceConfig) : Prop :=
  ∃ (first : String) (headers : List String) (length type : String) (body rest : List UInt8),
    (first = "POST /save HTTP/1.1" ∨ first = "POST /save HTTP/1.0") ∧
    (∀ line ∈ headers, IsLine line ∧ (Text.splitOnce ':' line).isSome = true) ∧
    headerValues "transfer-encoding" headers = [] ∧
    headerValues "content-length" headers = [length] ∧
    Text.parseUnsigned usizeMax length = some body.length ∧
    (headerValues "content-type" headers).getLast? = some type ∧ isFormType type = true ∧
    bytes = Text.bytes (encodeHead (first :: headers)) ++ (body ++ rest) ∧
    (Text.bytes (encodeHead (first :: headers))).length + body.length ≤ usizeMax ∧
    (Text.bytes (encodeHead (first :: headers))).length + body.length ≤ capacity ∧
    (Text.ofBytes? body).isSome = true ∧ EncodesForm body config

/-- A request for the form page. -/
def FormPageRequest (bytes : List UInt8) : Prop :=
  ∃ (first : String) (headers : List String) (rest : List UInt8),
    (first = "GET / HTTP/1.1" ∨ first = "GET / HTTP/1.0") ∧ (∀ line ∈ headers, IsLine line) ∧
    bytes = Text.bytes (encodeHead (first :: headers)) ++ rest

/-- The lines of a request that are compared are lines. -/
theorem isLine_of_known {first : String}
    (known : (first = "GET / HTTP/1.1" ∨ first = "GET / HTTP/1.0") ∨
      first = "POST /save HTTP/1.1" ∨ first = "POST /save HTTP/1.0") : IsLine first := by
  rcases known with (rfl | rfl) | rfl | rfl <;>
    exact ⟨by decide, Text.crLfFree_of_not_mem (by decide)⟩

/-- A body is not a request for the form page. -/
theorem parseBody_ne_showForm (bytes : List UInt8) (capacity headerEnd : ℕ) (read : Headers) :
    parseBody usizeMax bytes capacity headerEnd read ≠ .ok (some .showForm) := by
  intro parsed
  simp only [parseBody, bind_eq_ok_iff, throw, throwThe, MonadExceptOf.throw, error_bind,
    guard_eq_ok_iff] at parsed
  obtain ⟨_, _, _, _, _, continued⟩ := parsed
  split at continued
  · cases continued
  · obtain ⟨_, _, _, same⟩ := (guard_eq_ok_iff.mp continued).imp_right bind_eq_ok_iff.mp
    cases same

/-- The body is as long as the headers say, and a form. -/
theorem parseBody_eq_save_iff {head rest : List UInt8} {capacity : ℕ} {read : Headers}
    {config : DeviceConfig} :
    parseBody usizeMax (head ++ rest) capacity head.length read = .ok (some (.save config)) ↔
      ∃ body later, rest = body ++ later ∧ read.contentLength = some body.length ∧
        head.length + body.length ≤ usizeMax ∧ head.length + body.length ≤ capacity ∧
        read.validContentType = true ∧ parseForm body = .ok config := by
  have taken : ∀ count, ((head ++ rest).take (head.length + count)).drop head.length =
      rest.take count := by
    intro count
    rw [List.take_length_add_append, List.drop_left]
  simp only [parseBody, checkedAdd, bind_eq_ok_iff, okOr_eq_ok_iff, throw, throwThe,
    MonadExceptOf.throw, error_bind, guard_eq_ok_iff]
  constructor
  · rintro ⟨length, given, total, sum, fits, continued⟩
    split at sum
    · next small =>
        obtain rfl := Option.some.inj sum
        split at continued
        · cases continued
        · next complete =>
            simp only [guard_eq_ok_iff, not_not, bind_eq_ok_iff, taken] at continued
            obtain ⟨typed, parsed, form, same⟩ := continued
            obtain rfl : parsed = config := by
              injection same with same
              injection same with same
              injection same
            have within : length ≤ rest.length := by
              rw [List.length_append] at complete
              omega
            have size : (rest.take length).length = length := by
              rw [List.length_take, Nat.min_eq_left within]
            refine ⟨rest.take length, rest.drop length, (List.take_append_drop _ _).symm, ?_⟩
            rw [size]
            exact ⟨given, small, Nat.not_lt.mp fits, typed, form⟩
    · cases sum
  · rintro ⟨body, later, rfl, given, small, fits, typed, form⟩
    refine ⟨body.length, given, head.length + body.length, if_pos small, Nat.not_lt.mpr fits, ?_⟩
    rw [if_neg (by simp), guard_eq_ok_iff, not_not]
    refine ⟨typed, bind_eq_ok_iff.mpr ⟨config, ?_, rfl⟩⟩
    rw [taken, List.take_left]
    exact form

/-- What a head that is not the form page's leads to. -/
theorem parseRequest_eq_save_iff {first : String} {headers : List String}
    (proper : ∀ line ∈ first :: headers, IsLine line) {rest : List UInt8} {capacity : ℕ}
    {config : DeviceConfig} :
    parseRequest usizeMax (Text.bytes (encodeHead (first :: headers)) ++ rest) capacity =
        .ok (some (.save config)) ↔
      (first = "POST /save HTTP/1.1" ∨ first = "POST /save HTTP/1.0") ∧
        ∃ read, ReadsHeaders usizeMax .empty read headers ∧
          parseBody usizeMax (Text.bytes (encodeHead (first :: headers)) ++ rest) capacity
            (Text.bytes (encodeHead (first :: headers))).length read =
              .ok (some (.save config)) := by
  rw [parseRequest_of_head proper]
  constructor
  · intro parsed
    split at parsed
    · cases parsed
    · split at parsed
      · cases parsed
      · split at parsed
        · cases parsed
        · next posted =>
            obtain ⟨read, reads, body⟩ := bind_eq_ok_iff.mp parsed
            refine ⟨?_, read, foldlM_parseLine_eq_ok_iff.mp reads, body⟩
            rwa [not_and_or, not_not, not_not] at posted
  · rintro ⟨posted, read, reads, body⟩
    have ungotten : ¬ (first = "GET / HTTP/1.1" ∨ first = "GET / HTTP/1.0") := by
      rcases posted with rfl | rfl <;> decide
    have unread : "GET ".toList.isPrefixOf first.toList = false := by
      rcases posted with rfl | rfl <;> decide
    have known : ¬ (first ≠ "POST /save HTTP/1.1" ∧ first ≠ "POST /save HTTP/1.0") := by
      rcases posted with rfl | rfl <;> decide
    rw [if_neg ungotten, unread, if_neg Bool.false_ne_true, if_neg known]
    exact bind_eq_ok_iff.mpr ⟨read, foldlM_parseLine_eq_ok_iff.mpr reads, body⟩

/-- **The grammar of setup requests.** The parser reads the form page and a configuration to save
out of exactly the requests of the grammar. -/
theorem setup_request_grammar (usizeMax capacity : ℕ) (bytes : List UInt8) :
    (∀ config, parseRequest usizeMax bytes capacity = .ok (some (.save config)) ↔
      SaveRequest usizeMax capacity bytes config) ∧
    (parseRequest usizeMax bytes capacity = .ok (some .showForm) ↔ FormPageRequest bytes) := by
  constructor
  · intro config
    constructor
    · intro parsed
      obtain ⟨first, headers, rest, proper, rfl⟩ := exists_head parsed (by simp)
      obtain ⟨posted, read, reads, body⟩ := (parseRequest_eq_save_iff proper).mp parsed
      obtain ⟨content, later, rfl, given, small, fits, typed, form⟩ := parseBody_eq_save_iff.mp body
      obtain ⟨fields, plain, length, kind⟩ := reads
      obtain ⟨_, unset⟩ | ⟨_, value, count, single, parsedLength, set⟩ := length
      · rw [given] at unset
        cases unset
      · obtain rfl := Option.some.inj (set.symm.trans given)
        cases last : (headerValues "content-type" headers).getLast? with
        | none =>
            rw [typed, last] at kind
            cases kind
        | some type =>
            rw [typed, last] at kind
            obtain ⟨text, encodes⟩ := parseForm_eq_ok_iff.mp form
            exact ⟨first, headers, value, type, content, later, posted,
              fun line member => ⟨proper line (List.mem_cons_of_mem _ member), fields line member⟩,
              plain, single, parsedLength, last, kind.symm, rfl, small, fits, text, encodes⟩
    · rintro ⟨first, headers, value, type, content, later, posted, lines, plain, single,
        parsedLength, last, typed, rfl, small, fits, text, encodes⟩
      have proper : ∀ line ∈ first :: headers, IsLine line := List.forall_mem_cons.mpr
        ⟨isLine_of_known (Or.inr posted), fun line member => (lines line member).1⟩
      refine (parseRequest_eq_save_iff proper).mpr
        ⟨posted, ⟨some content.length, true⟩, ⟨?_, plain, ?_, ?_⟩, ?_⟩
      · exact fun line member => (lines line member).2
      · exact Or.inr ⟨rfl, value, _, single, parsedLength, rfl⟩
      · rw [last]
        exact typed.symm
      · exact parseBody_eq_save_iff.mpr ⟨content, later, rfl, rfl, small, fits, rfl,
          parseForm_eq_ok_iff.mpr ⟨text, encodes⟩⟩
  · constructor
    · intro parsed
      obtain ⟨first, headers, rest, proper, rfl⟩ := exists_head parsed (by simp)
      rw [parseRequest_of_head proper] at parsed
      split at parsed
      · next gotten =>
          exact ⟨first, headers, rest, gotten,
            fun line member => proper line (List.mem_cons_of_mem _ member), rfl⟩
      · split at parsed
        · cases parsed
        · split at parsed
          · cases parsed
          · obtain ⟨read, _, body⟩ := bind_eq_ok_iff.mp parsed
            exact (parseBody_ne_showForm _ _ _ read body).elim
    · rintro ⟨first, headers, rest, gotten, lines, rfl⟩
      have proper : ∀ line ∈ first :: headers, IsLine line :=
        List.forall_mem_cons.mpr ⟨isLine_of_known (Or.inl gotten), lines⟩
      rw [parseRequest_of_head proper, if_pos gotten]

end LaptopCooler.Firmware
