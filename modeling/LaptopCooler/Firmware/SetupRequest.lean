import LaptopCooler.Firmware.Provisioning
import LaptopCooler.Library.IncrementalParser
import Mathlib.Data.List.Range

/-! # Reading a setup request

The read loop of `setup_http_server` in `src/main.rs`, which parses what the
request buffer holds each time more of the request arrives. More bytes do not
change what the parser has decided, and it decides on a full buffer
(`LaptopCooler.Firmware.parseRequest_stable`,
`LaptopCooler.Firmware.parseRequest_decisive`). The answer to a request therefore
does not depend on how the request was cut
(`LaptopCooler.Firmware.answer_independent_of_cuts`).
-/

namespace LaptopCooler.Firmware

open Fallible IncrementalParser

/-! ## The read loop -/

/-- The length of `request_buffer`. -/
def requestBufferLen : ℕ := 2048

/-- The exits of the read loop. -/
inductive ReadExit where
  | bufferFull
  | ended
  | parsed (result : Except RequestError Request)
  | failed

/-- The result that the loop breaks with. -/
def ReadExit.parsedRequest : ReadExit → Except RequestError Request
  | .bufferFull => .error .requestTooLarge
  | .ended => .error .invalidRequest
  | .parsed result => result
  | .failed => .error .invalidRequest

/-- The read loop with the bytes that the buffer holds. It has no exit while it waits for
the next read. -/
def readRequest (usizeMax : ℕ) (buffer : List UInt8) : List (Read UInt8) → Option ReadExit
  | [] => if buffer.length = requestBufferLen then some .bufferFull else none
  | read :: reads =>
      if buffer.length = requestBufferLen then some .bufferFull else
      match read with
      | .ended => some .ended
      | .received chunk =>
          match parseRequest usizeMax (buffer ++ chunk) requestBufferLen with
          | .ok (some request) => some (.parsed (.ok request))
          | .ok none => readRequest usizeMax (buffer ++ chunk) reads
          | .error error => some (.parsed (.error error))
      | .failed => some .failed

/-! ## Finding the end of the headers -/

theorem findBytes_eq_some_iff {haystack needle : List UInt8} {index : ℕ} :
    findBytes haystack needle = some index ↔
      index + needle.length ≤ haystack.length ∧
        (haystack.drop index).take needle.length = needle ∧
        ∀ earlier < index, (haystack.drop earlier).take needle.length ≠ needle := by
  simp only [findBytes, List.find?_range_eq_some, List.mem_range, decide_eq_true_eq,
    Bool.not_eq_true', decide_eq_false_iff_not]
  constructor
  · rintro ⟨found, inside, first⟩
    exact ⟨by omega, found, first⟩
  · rintro ⟨inside, found, first⟩
    exact ⟨found, by omega, first⟩

/-- More bytes do not change the window at a position before their end. -/
theorem take_drop_append {haystack more : List UInt8} {index length : ℕ}
    (inside : index + length ≤ haystack.length) :
    ((haystack ++ more).drop index).take length = (haystack.drop index).take length := by
  rw [List.drop_append_of_le_length (by omega), List.take_append_of_le_length]
  rw [List.length_drop]
  omega

/-- What is found first stays first. -/
theorem findBytes_append {haystack needle : List UInt8} {index : ℕ}
    (found : findBytes haystack needle = some index) (more : List UInt8) :
    findBytes (haystack ++ more) needle = some index := by
  obtain ⟨inside, here, first⟩ := findBytes_eq_some_iff.mp found
  refine findBytes_eq_some_iff.mpr ⟨?_, ?_, fun earlier before => ?_⟩
  · rw [List.length_append]
    omega
  · rwa [take_drop_append inside]
  · rw [take_drop_append (by omega)]
    exact first earlier before

/-! ## What is decided -/

/-- The request is complete when the body is. -/
theorem parseBody_settles (usizeMax : ℕ) (bytes more : List UInt8) (capacity headerEnd : ℕ)
    (headers : Headers) :
    Settles (parseBody usizeMax bytes capacity headerEnd headers)
      (parseBody usizeMax (bytes ++ more) capacity headerEnd headers) := by
  simp only [parseBody, throw, throwThe, MonadExceptOf.throw, error_bind]
  refine .bind _ fun bodyLength _ => .bind _ fun totalLength _ => .ite (.refl _) ?_
  by_cases incomplete : bytes.length < totalLength
  · rw [if_pos incomplete]
    exact .of_pending
  · have complete : ¬ (bytes ++ more).length < totalLength := by
      rw [List.length_append]
      omega
    rw [if_neg incomplete, if_neg complete,
      List.take_append_of_le_length (Nat.not_lt.mp incomplete)]
    exact .refl _

/-- **More bytes do not change what the parser has decided.** -/
theorem parseRequest_stable (usizeMax capacity : ℕ) :
    Stable capacity fun bytes => parseRequest usizeMax bytes capacity := by
  intro bytes more fits
  change Settles (parseRequest usizeMax bytes capacity)
    (parseRequest usizeMax (bytes ++ more) capacity)
  cases found : findBytes bytes headerTerminator with
  | none =>
      -- Before the headers end only a full buffer is decided, and that is all of the input.
      intro decided
      have full : bytes.length = capacity := by
        by_contra room
        exact decided (by simp [parseRequest, found, room])
      have nothing : more = [] := by
        rw [List.length_append] at fits
        exact List.length_eq_zero_iff.mp (by omega)
      rw [nothing, List.append_nil]
  | some index =>
      have inside : index + 4 ≤ bytes.length := (findBytes_eq_some_iff.mp found).1
      simp only [parseRequest, found, findBytes_append found more, Option.map_some,
        List.take_append_of_le_length inside]
      refine .bind _ fun text _ => .bind _ fun requestLine _ =>
        .ite (.refl _) (.ite (.refl _) (.ite (.refl _) (.bind _ fun headers _ => ?_)))
      exact parseBody_settles usizeMax bytes more capacity _ headers

/-- A full buffer holds the whole body, or the body is too large. -/
theorem parseBody_decides {usizeMax capacity headerEnd : ℕ} {bytes : List UInt8}
    (full : bytes.length = capacity) (headers : Headers) :
    Decides (parseBody usizeMax bytes capacity headerEnd headers) := by
  simp only [parseBody, throw, throwThe, MonadExceptOf.throw, error_bind]
  refine .bind _ fun bodyLength _ => .bind _ fun totalLength _ =>
    .ite (fun _ => .error _) fun fits => .ite (fun incomplete => ?_) fun _ =>
      .ite (fun _ => .error _) fun _ => .bind _ fun config _ => .answer _
  omega

/-- **The parser decides on a full buffer.** -/
theorem parseRequest_decisive (usizeMax capacity : ℕ) :
    Decisive capacity fun bytes => parseRequest usizeMax bytes capacity := by
  intro bytes full
  change Decides (parseRequest usizeMax bytes capacity)
  cases found : findBytes bytes headerTerminator with
  | none =>
      simp only [parseRequest, found, Option.map_none, full, if_true]
      exact .error _
  | some index =>
      simp only [parseRequest, found, Option.map_some]
      exact .bind _ fun text _ => .bind _ fun requestLine _ =>
        .ite (fun _ => .answer _) fun _ => .ite (fun _ => .answer _) fun _ =>
          .ite (fun _ => .answer _) fun _ => .bind _ fun headers _ =>
            parseBody_decides full headers

/-! ## The answer to a stream -/

/-- The answer to a request that arrives as a stream of bytes. -/
def answer (usizeMax : ℕ) (stream : List UInt8) : Except RequestError Request :=
  (verdict requestBufferLen (fun bytes => parseRequest usizeMax bytes requestBufferLen)
    stream).getD (.error .invalidRequest)

/-- A stream that ends undecided is an invalid request. -/
theorem answer_of_pending {usizeMax : ℕ} {buffer : List UInt8}
    (fits : buffer.length ≤ requestBufferLen)
    (pending : decided (parseRequest usizeMax buffer requestBufferLen) = none) :
    answer usizeMax buffer = .error .invalidRequest := by
  rw [answer, verdict_of_pending fits pending, Option.getD_none]

/-- One turn of the loop that receives bytes, with room in the buffer. -/
theorem readRequest_received {usizeMax : ℕ} {buffer chunk : List UInt8} {reads : List (Read UInt8)}
    (room : buffer.length ≠ requestBufferLen) :
    readRequest usizeMax buffer (.received chunk :: reads) =
      match decided (parseRequest usizeMax (buffer ++ chunk) requestBufferLen) with
      | some result => some (.parsed result)
      | none => readRequest usizeMax (buffer ++ chunk) reads := by
  rw [readRequest, if_neg room]
  rcases parseRequest usizeMax (buffer ++ chunk) requestBufferLen with error | _ | request <;> rfl

/-- **The loop answers every stream.** However the rest of a stream is cut, a buffer that is
not decided yet leads to the answer to the whole stream, before the buffer is full. -/
theorem readRequest_of_cut {usizeMax room : ℕ} {stream : List UInt8} {reads : List (Read UInt8)}
    (cut : Cut room stream reads) : ∀ {buffer : List UInt8},
      buffer.length + room = requestBufferLen →
      decided (parseRequest usizeMax buffer requestBufferLen) = none →
      ∃ exit, readRequest usizeMax buffer reads = some exit ∧ exit ≠ .bufferFull ∧
        exit.parsedRequest = answer usizeMax (buffer ++ stream) := by
  have stable := parseRequest_stable usizeMax requestBufferLen
  have decisive := parseRequest_decisive usizeMax requestBufferLen
  induction cut with
  | full stream reads =>
      intro buffer room pending
      exact absurd (decisive.length_lt (by omega) pending) (by omega)
  | ended room =>
      intro buffer whole pending
      have space := decisive.length_lt (by omega) pending
      refine ⟨.ended, by rw [readRequest, if_neg (Nat.ne_of_lt space)], nofun, ?_⟩
      rw [List.append_nil, answer_of_pending (Nat.le_of_lt space) pending, ReadExit.parsedRequest]
  | failed room =>
      intro buffer whole pending
      have space := decisive.length_lt (by omega) pending
      refine ⟨.failed, by rw [readRequest, if_neg (Nat.ne_of_lt space)], nofun, ?_⟩
      rw [List.append_nil, answer_of_pending (Nat.le_of_lt space) pending, ReadExit.parsedRequest]
  | @received room chunk stream reads nonempty fits later ih =>
      intro buffer whole pending
      have space := decisive.length_lt (by omega) pending
      have length : (buffer ++ chunk).length = buffer.length + chunk.length := List.length_append
      rw [readRequest_received (Nat.ne_of_lt space), ← List.append_assoc]
      cases result : decided (parseRequest usizeMax (buffer ++ chunk) requestBufferLen) with
      | none => exact ih (by omega) result
      | some decision =>
          refine ⟨.parsed decision, rfl, nofun, ?_⟩
          rw [answer, stable.verdict_of_decided (by omega) result]
          rfl

/-- **The answer does not depend on how the request is cut.** Whichever way the reads cut a
stream that ends or stalls, the loop breaks with the same request or error, and not because
the buffer is full. The parser keeps what it has decided when more bytes follow, and it
decides on a full buffer. -/
theorem answer_independent_of_cuts (usizeMax : ℕ) :
    (∀ (stream : List UInt8) (first second : List (Read UInt8)),
      Cut requestBufferLen stream first → Cut requestBufferLen stream second →
      ∃ firstExit secondExit, readRequest usizeMax [] first = some firstExit ∧
        readRequest usizeMax [] second = some secondExit ∧
        firstExit.parsedRequest = secondExit.parsedRequest ∧
        firstExit ≠ .bufferFull ∧ secondExit ≠ .bufferFull) ∧
    (∀ (capacity : ℕ) (bytes more : List UInt8), (bytes ++ more).length ≤ capacity →
      parseRequest usizeMax bytes capacity ≠ .ok none →
      parseRequest usizeMax (bytes ++ more) capacity = parseRequest usizeMax bytes capacity) ∧
    ∀ (capacity : ℕ) (bytes : List UInt8), bytes.length = capacity →
      parseRequest usizeMax bytes capacity ≠ .ok none := by
  refine ⟨fun stream first second firstCut secondCut => ?_, parseRequest_stable usizeMax,
    parseRequest_decisive usizeMax⟩
  have empty : ([] : List UInt8).length + requestBufferLen = requestBufferLen := Nat.zero_add _
  have pending : decided (parseRequest usizeMax [] requestBufferLen) = none := rfl
  obtain ⟨firstExit, firstRead, firstNotFull, firstAnswer⟩ :=
    readRequest_of_cut firstCut empty pending
  obtain ⟨secondExit, secondRead, secondNotFull, secondAnswer⟩ :=
    readRequest_of_cut secondCut empty pending
  exact ⟨firstExit, secondExit, firstRead, secondRead, firstAnswer.trans secondAnswer.symm,
    firstNotFull, secondNotFull⟩

/-- `GET / HTTP/1.1` and two line ends. -/
def formPageRequest : List UInt8 :=
  [71, 69, 84, 32, 47, 32, 72, 84, 84, 80, 47, 49, 46, 49, 13, 10, 13, 10]

/-- A request in one read and in two, and with a byte after its end. -/
theorem formPageRequest_cut :
    (∃ whole halves,
      readRequest 4294967295 [] [.received formPageRequest, .ended] = some whole ∧
        readRequest 4294967295 []
          [.received (formPageRequest.take 16), .received (formPageRequest.drop 16), .failed] =
            some halves ∧
        whole.parsedRequest = halves.parsedRequest ∧
        whole ≠ .bufferFull ∧ halves ≠ .bufferFull) ∧
    parseRequest 4294967295 (formPageRequest ++ [0]) 2048 =
      parseRequest 4294967295 formPageRequest 2048 := by
  have whole : Cut requestBufferLen formPageRequest [.received formPageRequest, .ended] :=
    @Cut.received _ _ formPageRequest [] _ (by decide) (by decide) (.ended _)
  have halves : Cut requestBufferLen (formPageRequest.take 16 ++ (formPageRequest.drop 16 ++ []))
      [.received (formPageRequest.take 16), .received (formPageRequest.drop 16), .failed] :=
    .received (by decide) (by decide) (.received (by decide) (by decide) (.failed _))
  obtain ⟨independent, stable, _⟩ := answer_independent_of_cuts 4294967295
  exact ⟨independent formPageRequest _ _ whole halves,
    stable 2048 formPageRequest [0] (by decide) (by decide)⟩

end LaptopCooler.Firmware
