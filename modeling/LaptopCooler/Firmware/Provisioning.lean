import LaptopCooler.Firmware.Config

/-! # Parsing a setup request

The model of `src/provisioning.rs`. The parser sees what has arrived of an HTTP
request so far and answers with a request, with an error, or with nothing while
the request is incomplete. Byte strings are lists and a position in one is the
rest of it from there.
-/

namespace LaptopCooler.Firmware

open Fallible

inductive Request where
  | showForm
  | save (config : DeviceConfig)
  | notFound
  deriving DecidableEq

inductive RequestError where
  | invalidRequest
  | unsupportedTransferEncoding
  | missingContentLength
  | invalidContentLength
  | unsupportedContentType
  | requestTooLarge
  | invalidForm
  | invalidEncoding
  | invalidUtf8
  | invalidConfig
  deriving DecidableEq

/-! ## The form -/

def hexValue (byte : UInt8) : Option UInt8 :=
  if 48 ≤ byte ∧ byte ≤ 57 then some (byte - 48)
  else if 97 ≤ byte ∧ byte ≤ 102 then some (byte - 97 + 10)
  else if 65 ≤ byte ∧ byte ≤ 70 then some (byte - 65 + 10)
  else none

/-- Pushing a decoded byte, which is not NUL, onto a vector with a capacity. -/
def pushDecoded (capacity : ℕ) (decoded : List UInt8) (byte : UInt8) :
    Except RequestError (List UInt8) := do
  if byte = 0 then throw .invalidEncoding
  if decoded.length = capacity then throw .invalidForm
  return decoded ++ [byte]

/-- The loop of `decode_component` over the bytes that are left. -/
def decodeBytes (capacity : ℕ) (decoded : List UInt8) :
    List UInt8 → Except RequestError (List UInt8)
  | [] => .ok decoded
  | byte :: rest =>
      if byte = 37 then -- `%`
        match rest with
        | high :: low :: rest => do
            let high ← okOr (hexValue high) .invalidEncoding
            let low ← okOr (hexValue low) .invalidEncoding
            let decoded ← pushDecoded capacity decoded (high <<< 4 ||| low)
            decodeBytes capacity decoded rest
        | _ => .error .invalidEncoding
      else do
        let decoded ← pushDecoded capacity decoded (if byte = 43 then 32 else byte) -- `+`
        decodeBytes capacity decoded rest

def decodeComponent (capacity : ℕ) (encoded : String) :
    Except RequestError (BoundedString capacity) := do
  let decoded ← decodeBytes capacity [] (Text.bytes encoded)
  let value ← okOr (Text.ofBytes? decoded) .invalidUtf8
  okOr (BoundedString.pushStr capacity value) .invalidForm

/-- The fields that `parse_form` has seen. -/
@[ext] structure Form where
  ssid : Option (BoundedString maxSsidLen)
  password : Option (BoundedString maxPasswordLen)
  token : Option (BoundedString maxTokenLen)
  deriving DecidableEq

def Form.empty : Form := ⟨none, none, none⟩

/-- One turn of the loop of `parse_form`. -/
def Form.parseField (form : Form) (field : String) : Except RequestError Form := do
  let (name, value) ← okOr (Text.splitOnce '=' field) .invalidForm
  if name = "ssid" ∧ form.ssid = none then
    let ssid ← decodeComponent maxSsidLen value
    return { form with ssid := some ssid }
  else if name = "password" ∧ form.password = none then
    let password ← decodeComponent maxPasswordLen value
    return { form with password := some password }
  else if name = "token" ∧ form.token = none then
    let token ← decodeComponent maxTokenLen value
    return { form with token := some token }
  else
    throw .invalidForm

def parseForm (body : List UInt8) : Except RequestError DeviceConfig := do
  let body ← okOr (Text.ofBytes? body) .invalidUtf8
  let form ← (Text.split '&' body).foldlM Form.parseField .empty
  let ssid ← okOr form.ssid .invalidForm
  let password ← okOr form.password .invalidForm
  let token ← okOr form.token .invalidForm
  (DeviceConfig.new ssid.text password.text token.text).mapError fun _ => .invalidConfig

/-! ## The request -/

/-- The position of the first window that is the needle. -/
def findBytes (haystack needle : List UInt8) : Option ℕ :=
  (List.range (haystack.length + 1 - needle.length)).find? fun index =>
    (haystack.drop index).take needle.length = needle

/-- Two line ends: the empty line after the headers. -/
def headerTerminator : List UInt8 := [13, 10, 13, 10]

/-- `checked_add` of a type with the given maximum. -/
def checkedAdd (maximum left right : ℕ) : Option ℕ :=
  if left + right ≤ maximum then some (left + right) else none

/-- What the header lines have said so far. -/
structure Headers where
  contentLength : Option ℕ
  validContentType : Bool
  deriving DecidableEq

def Headers.empty : Headers := ⟨none, false⟩

/-- One turn of the loop of `parse_request` over the header lines. -/
def Headers.parseLine (usizeMax : ℕ) (headers : Headers) (line : String) :
    Except RequestError Headers := do
  let (name, value) ← okOr (Text.splitOnce ':' line) .invalidRequest
  let value := Text.trim value
  if Text.eqIgnoreAsciiCase name "content-length" then
    if headers.contentLength.isSome then throw .invalidContentLength
    let length ← okOr (Text.parseUnsigned usizeMax value) .invalidContentLength
    return { headers with contentLength := some length }
  else if Text.eqIgnoreAsciiCase name "content-type" then
    let kind := (Text.split ';' value).head?.map Text.trim
    return { headers with validContentType := kind = some "application/x-www-form-urlencoded" }
  else if Text.eqIgnoreAsciiCase name "transfer-encoding" then
    throw .unsupportedTransferEncoding
  else
    return headers

/-- The end of `parse_request`, when the headers are known. -/
def parseBody (usizeMax : ℕ) (bytes : List UInt8) (capacity headerEnd : ℕ) (headers : Headers) :
    Except RequestError (Option Request) := do
  let bodyLength ← okOr headers.contentLength .missingContentLength
  let totalLength ← okOr (checkedAdd usizeMax headerEnd bodyLength) .requestTooLarge
  if totalLength > capacity then throw .requestTooLarge
  if bytes.length < totalLength then return none
  if ¬ headers.validContentType then throw .unsupportedContentType
  let config ← parseForm ((bytes.take totalLength).drop headerEnd)
  return some (.save config)

/-- `parse_request` on a target whose `usize` has the given maximum. -/
def parseRequest (usizeMax : ℕ) (bytes : List UInt8) (capacity : ℕ) :
    Except RequestError (Option Request) :=
  match (findBytes bytes headerTerminator).map (· + 4) with
  | none => if bytes.length = capacity then .error .requestTooLarge else .ok none
  | some headerEnd => do
      let text ← okOr (Text.ofBytes? (bytes.take headerEnd)) .invalidUtf8
      let lines := Text.splitAtCrLf text
      let requestLine ← okOr lines.head? .invalidRequest
      if requestLine = "GET / HTTP/1.1" ∨ requestLine = "GET / HTTP/1.0" then
        return some .showForm
      if "GET ".toList.isPrefixOf requestLine.toList then return some .notFound
      if requestLine ≠ "POST /save HTTP/1.1" ∧ requestLine ≠ "POST /save HTTP/1.0" then
        return some .notFound
      let headers ← (lines.tail.filter (· ≠ "")).foldlM (Headers.parseLine usizeMax) .empty
      parseBody usizeMax bytes capacity headerEnd headers

end LaptopCooler.Firmware
