import LaptopCooler.Firmware.Provisioning
import LaptopCooler.Library.TextSplitting

/-! # Percent-encoded components

The grammar that a component of the setup form is encoded in
(`LaptopCooler.Firmware.Encodes`). The decoder accepts exactly the encodings of
texts that fit (`LaptopCooler.Firmware.decodeComponent_eq_ok_iff`), and every text
without NUL has an encoding (`LaptopCooler.Firmware.exists_encodes`).
-/

namespace LaptopCooler.Firmware

open Fallible

/-! ## Encoded bytes -/

/-- A hexadecimal digit of either case and its value. -/
def IsHexDigit (digit : UInt8) (value : ℕ) : Prop :=
  value < 10 ∧ digit.toNat = 48 + value ∨
    10 ≤ value ∧ value < 16 ∧ (digit.toNat = 55 + value ∨ digit.toNat = 87 + value)

instance (digit : UInt8) (value : ℕ) : Decidable (IsHexDigit digit value) :=
  inferInstanceAs (Decidable (_ ∨ _))

/-- The units of an encoded text and the bytes they stand for: a byte that is not `&`, `+`,
`%` or NUL stands for itself, `+` for a space, and `%` with two digits for the byte with that
value. -/
inductive Encodes : List UInt8 → List UInt8 → Prop where
  | nil : Encodes [] []
  | literal {byte : UInt8} {encoded decoded : List UInt8}
      (plain : byte ≠ 38 ∧ byte ≠ 43 ∧ byte ≠ 37 ∧ byte ≠ 0) (rest : Encodes encoded decoded) :
      Encodes (byte :: encoded) (byte :: decoded)
  | plus {encoded decoded : List UInt8} (rest : Encodes encoded decoded) :
      Encodes (43 :: encoded) (32 :: decoded)
  | percent {high low byte : UInt8} {highValue lowValue : ℕ} {encoded decoded : List UInt8}
      (highDigit : IsHexDigit high highValue) (lowDigit : IsHexDigit low lowValue)
      (value : byte.toNat = 16 * highValue + lowValue) (nonzero : byte ≠ 0)
      (rest : Encodes encoded decoded) :
      Encodes (37 :: high :: low :: encoded) (byte :: decoded)

theorem hexValue_eq_some_iff {digit value : UInt8} :
    hexValue digit = some value ↔ IsHexDigit digit value.toNat := by
  simp only [hexValue, IsHexDigit, UInt8.le_iff_toNat_le, UInt8.reduceToNat]
  split_ifs with decimal lower upper
  · rw [Option.some.injEq, ← UInt8.toNat_inj, UInt8.toNat_sub]
    simp only [UInt8.reduceToNat]
    omega
  · rw [Option.some.injEq, ← UInt8.toNat_inj, UInt8.toNat_add, UInt8.toNat_sub]
    simp only [UInt8.reduceToNat]
    omega
  · rw [Option.some.injEq, ← UInt8.toNat_inj, UInt8.toNat_add, UInt8.toNat_sub]
    simp only [UInt8.reduceToNat]
    omega
  · refine iff_of_false id ?_
    omega

theorem IsHexDigit.lt {digit : UInt8} {value : ℕ} (isDigit : IsHexDigit digit value) :
    value < 16 := by
  unfold IsHexDigit at isDigit
  omega

theorem hexValue_of_isHexDigit {digit : UInt8} {value : ℕ} (isDigit : IsHexDigit digit value) :
    ∃ found, hexValue digit = some found ∧ found.toNat = value := by
  have small : (UInt8.ofNat value).toNat = value := by
    rw [UInt8.toNat_ofNat']
    exact Nat.mod_eq_of_lt (Nat.lt_trans isDigit.lt (by decide))
  exact ⟨UInt8.ofNat value, hexValue_eq_some_iff.mpr (by rwa [small]), small⟩

/-- The byte of two digits. -/
theorem toNat_shiftLeft_or {high low : UInt8} (highSmall : high.toNat < 16)
    (lowSmall : low.toNat < 16) : (high <<< 4 ||| low).toNat = 16 * high.toNat + low.toNat := by
  have shifted : (high <<< 4).toNat = high.toNat <<< 4 := by
    simp only [UInt8.toNat_shiftLeft, UInt8.reduceToNat, Nat.reduceMod, Nat.reducePow,
      Nat.shiftLeft_eq]
    omega
  rw [UInt8.toNat_or, shifted, ← Nat.shiftLeft_add_eq_or_of_lt lowSmall, Nat.shiftLeft_eq]
  omega

/-! ## What has an encoding -/

/-- Plain bytes stand for themselves. -/
theorem Encodes.self {plain : List UInt8}
    (plainBytes : ∀ byte ∈ plain, byte ≠ 38 ∧ byte ≠ 43 ∧ byte ≠ 37 ∧ byte ≠ 0) :
    Encodes plain plain := by
  induction plain with
  | nil => exact .nil
  | cons byte rest ih =>
      exact .literal (plainBytes byte List.mem_cons_self)
        (ih fun other member => plainBytes other (List.mem_cons_of_mem byte member))

/-- No unit stands for NUL. -/
theorem Encodes.nonzero {encoded decoded : List UInt8} (encodes : Encodes encoded decoded) :
    0 ∉ decoded := by
  induction encodes with
  | nil => exact List.not_mem_nil
  | literal plain rest ih => simp [ih, plain.2.2.2.symm]
  | plus rest ih => simp [ih]
  | percent highDigit lowDigit value nonzero rest ih => simp [ih, nonzero.symm]

/-- No unit has an `&`. -/
theorem Encodes.separated {encoded decoded : List UInt8} (encodes : Encodes encoded decoded) :
    38 ∉ encoded := by
  have digit {byte : UInt8} {value : ℕ} (isDigit : IsHexDigit byte value) : byte ≠ 38 := by
    rintro rfl
    simp only [IsHexDigit, UInt8.reduceToNat] at isDigit
    omega
  induction encodes with
  | nil => exact List.not_mem_nil
  | literal plain rest ih => simp [ih, plain.1.symm]
  | plus rest ih => simp [ih]
  | percent highDigit lowDigit value nonzero rest ih =>
      simp [ih, (digit highDigit).symm, (digit lowDigit).symm]

/-- Every value of a digit has a digit character. -/
theorem exists_hexDigit : ∀ value < 16, ∃ character : Char, ∃ digit : UInt8,
    String.utf8EncodeChar character = [digit] ∧ IsHexDigit digit value := by
  have ascii : ∀ value < 16, (Nat.digitChar value).val ≤ 127 := by decide
  have digits : ∀ value < 16, IsHexDigit (Nat.digitChar value).val.toUInt8 value := by decide
  intro value small
  exact ⟨Nat.digitChar value, _, Text.utf8EncodeChar_ascii (ascii value small), digits value small⟩

/-- Bytes other than NUL may all be written with `%`. -/
theorem exists_encodes (decoded : List UInt8) (nonzero : 0 ∉ decoded) :
    ∃ encoded : String, Encodes (Text.bytes encoded) decoded := by
  induction decoded with
  | nil => exact ⟨"", .nil⟩
  | cons byte rest ih =>
      rw [List.mem_cons, not_or] at nonzero
      obtain ⟨encoded, encodes⟩ := ih nonzero.2
      have bounded := byte.toNat_lt
      obtain ⟨highCharacter, high, highEncoded, highDigit⟩ :=
        exists_hexDigit (byte.toNat / 16) (by omega)
      obtain ⟨lowCharacter, low, lowEncoded, lowDigit⟩ :=
        exists_hexDigit (byte.toNat % 16) (by omega)
      have escape : Text.bytes (String.ofList ['%', highCharacter, lowCharacter] ++ encoded) =
          37 :: high :: low :: Text.bytes encoded := by
        have percent : String.utf8EncodeChar '%' = [37] := Text.utf8EncodeChar_ascii (by decide)
        simp only [Text.bytes_append, Text.bytes_ofList, List.flatMap_cons, List.flatMap_nil,
          percent, highEncoded, lowEncoded, List.cons_append, List.nil_append]
      refine ⟨String.ofList ['%', highCharacter, lowCharacter] ++ encoded, ?_⟩
      rw [escape]
      exact .percent highDigit lowDigit (by omega) (Ne.symm nonzero.1) encodes

/-! ## The decoding loop -/

theorem pushDecoded_eq_ok_iff {capacity : ℕ} {decoded result : List UInt8} {byte : UInt8} :
    pushDecoded capacity decoded byte = .ok result ↔
      byte ≠ 0 ∧ decoded.length ≠ capacity ∧ result = decoded ++ [byte] := by
  simp only [pushDecoded, throw, throwThe, MonadExceptOf.throw, error_bind, guard_eq_ok_iff, pure,
    Except.pure, Except.ok.injEq]
  rw [@eq_comm _ _ result]

section

variable (capacity : ℕ) (decoded : List UInt8)

theorem decodeBytes_cons {byte : UInt8} (plain : byte ≠ 37) (rest : List UInt8) :
    decodeBytes capacity decoded (byte :: rest) =
      (do let decoded ← pushDecoded capacity decoded (if byte = 43 then 32 else byte)
          decodeBytes capacity decoded rest) := by
  rw [decodeBytes.eq_def]
  exact if_neg plain

theorem decodeBytes_percent (high low : UInt8) (rest : List UInt8) :
    decodeBytes capacity decoded (37 :: high :: low :: rest) =
      (do let highValue ← okOr (hexValue high) .invalidEncoding
          let lowValue ← okOr (hexValue low) .invalidEncoding
          let decoded ← pushDecoded capacity decoded (highValue <<< 4 ||| lowValue)
          decodeBytes capacity decoded rest) := by
  rw [decodeBytes.eq_def]
  exact if_pos rfl

/-- Two bytes have to follow a `%`. -/
theorem decodeBytes_percent_short {rest : List UInt8} (short : rest.length < 2) :
    decodeBytes capacity decoded (37 :: rest) = .error .invalidEncoding := by
  rw [decodeBytes.eq_def]
  match rest, short with
  | [], _ => rfl
  | [_], _ => rfl

end

/-- What the decoding loop accepts is an encoding. -/
theorem encodes_of_decodeBytes {capacity : ℕ} (decoded encoded : List UInt8) :
    ∀ {result : List UInt8}, 38 ∉ encoded → decoded.length ≤ capacity →
      decodeBytes capacity decoded encoded = .ok result →
      ∃ added, Encodes encoded added ∧ result = decoded ++ added ∧ result.length ≤ capacity := by
  induction decoded, encoded using decodeBytes.induct with
  | case1 decoded =>
      intro result separated fits accepted
      rw [decodeBytes] at accepted
      obtain rfl := Except.ok.inj accepted
      exact ⟨[], .nil, (List.append_nil _).symm, fits⟩
  | case2 decoded high low rest ih =>
      intro result separated fits accepted
      simp only [decodeBytes_percent, bind_eq_ok_iff, okOr_eq_ok_iff] at accepted
      obtain ⟨highValue, highDigit, lowValue, lowDigit, pushed, push, later⟩ := accepted
      rw [hexValue_eq_some_iff] at highDigit lowDigit
      obtain ⟨nonzero, room, rfl⟩ := pushDecoded_eq_ok_iff.mp push
      have longer : (decoded ++ [highValue <<< 4 ||| lowValue]).length ≤ capacity := by
        rw [List.length_append, List.length_singleton]
        omega
      have remaining : 38 ∉ rest := fun member => separated (by simp [member])
      obtain ⟨added, encodes, rfl, bounded⟩ := ih _ remaining longer later
      refine ⟨_ :: added, .percent highDigit lowDigit ?_ nonzero encodes, by simp, bounded⟩
      exact toNat_shiftLeft_or highDigit.lt lowDigit.lt
  | case3 decoded rest short =>
      intro result separated fits accepted
      have few : rest.length < 2 := by
        match rest, short with
        | [], _ => decide
        | [_], _ => simp
        | high :: low :: rest, short => exact (short high low rest rfl).elim
      rw [decodeBytes_percent_short _ _ few] at accepted
      cases accepted
  | case4 decoded byte rest plain ih =>
      intro result separated fits accepted
      simp only [decodeBytes_cons _ _ plain, bind_eq_ok_iff] at accepted
      obtain ⟨pushed, push, later⟩ := accepted
      obtain ⟨nonzero, room, rfl⟩ := pushDecoded_eq_ok_iff.mp push
      have longer : (decoded ++ [if byte = 43 then 32 else byte]).length ≤ capacity := by
        rw [List.length_append, List.length_singleton]
        omega
      have remaining : 38 ∉ rest := fun member => separated (List.mem_cons_of_mem _ member)
      obtain ⟨added, encodes, rfl, bounded⟩ := ih _ remaining longer later
      refine ⟨(if byte = 43 then 32 else byte) :: added, ?_, by simp, bounded⟩
      by_cases space : byte = 43
      · subst space
        exact .plus encodes
      · rw [if_neg space] at nonzero ⊢
        have boundary : byte ≠ 38 := fun same => separated (same ▸ List.mem_cons_self)
        exact .literal ⟨boundary, space, plain, nonzero⟩ encodes

/-- The decoding loop accepts every encoding that fits. -/
theorem decodeBytes_of_encodes {capacity : ℕ} {encoded added : List UInt8}
    (encodes : Encodes encoded added) : ∀ {decoded : List UInt8},
      (decoded ++ added).length ≤ capacity →
      decodeBytes capacity decoded encoded = .ok (decoded ++ added) := by
  have step {decoded added : List UInt8} {byte : UInt8} (nonzero : byte ≠ 0)
      (fits : (decoded ++ byte :: added).length ≤ capacity) :
      pushDecoded capacity decoded byte = .ok (decoded ++ [byte]) := by
    rw [List.length_append, List.length_cons] at fits
    exact pushDecoded_eq_ok_iff.mpr ⟨nonzero, by omega, rfl⟩
  induction encodes with
  | nil =>
      intro decoded fits
      rw [decodeBytes, List.append_nil]
  | @literal byte encoded added plain rest ih =>
      intro decoded fits
      rw [decodeBytes_cons _ _ plain.2.2.1, if_neg plain.2.1, step plain.2.2.2 fits, ok_bind,
        List.append_cons decoded byte added]
      exact ih (by rwa [← List.append_cons])
  | @plus encoded added rest ih =>
      intro decoded fits
      rw [decodeBytes_cons _ _ (by decide), if_pos rfl, step (by decide) fits, ok_bind,
        List.append_cons decoded 32 added]
      exact ih (by rwa [← List.append_cons])
  | @percent high low byte highValue lowValue encoded added highDigit lowDigit value nonzero rest
      ih =>
      intro decoded fits
      obtain ⟨high', highFound, rfl⟩ := hexValue_of_isHexDigit highDigit
      obtain ⟨low', lowFound, rfl⟩ := hexValue_of_isHexDigit lowDigit
      obtain rfl : byte = high' <<< 4 ||| low' := by
        rw [← UInt8.toNat_inj, value, toNat_shiftLeft_or highDigit.lt lowDigit.lt]
      rw [decodeBytes_percent, highFound, lowFound, okOr_some, ok_bind, okOr_some, ok_bind,
        step nonzero fits, ok_bind, List.append_cons decoded _ added]
      exact ih (by rwa [← List.append_cons])

/-- **The decoder accepts exactly the encodings of texts that fit.** -/
theorem decodeComponent_eq_ok_iff {capacity : ℕ} {encoded : String}
    {value : BoundedString capacity} (separated : 38 ∉ Text.bytes encoded) :
    decodeComponent capacity encoded = .ok value ↔
      Encodes (Text.bytes encoded) (Text.bytes value.text) := by
  simp only [decodeComponent, bind_eq_ok_iff, okOr_eq_ok_iff, BoundedString.pushStr_eq_some_iff]
  constructor
  · rintro ⟨decoded, accepted, text, read, rfl⟩
    obtain ⟨added, encodes, rfl, _⟩ :=
      encodes_of_decodeBytes [] _ separated (Nat.zero_le _) accepted
    rwa [Text.bytes_of_ofBytes? read]
  · intro encodes
    refine ⟨_, decodeBytes_of_encodes encodes value.fits, _, Text.ofBytes?_bytes _, rfl⟩

end LaptopCooler.Firmware
