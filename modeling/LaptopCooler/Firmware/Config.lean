import LaptopCooler.Library.ByteRecord
import LaptopCooler.Library.Fallible
import LaptopCooler.Library.Text

/-! # The device configuration and its stored record

The model of `src/config.rs`. A configuration is stored as a record of 256 bytes
with a checksum and, written last, a commit marker. The decoder slices the
record by lengths it reads from it; it never slices out of range
(`LaptopCooler.Firmware.decodeSliced_isSome`), it accepts exactly the records
that store a valid configuration (`LaptopCooler.Firmware.decode_eq_ok_iff`), and
the encoder's records are among them
(`LaptopCooler.Firmware.stores_encode`).
-/

namespace LaptopCooler.Firmware

open ByteRecord Fallible

def maxSsidLen : ℕ := 32
def maxPasswordLen : ℕ := 64
def maxTokenLen : ℕ := 32
def minTokenLen : ℕ := 16
def recordLen : ℕ := 256
def commitOffset : ℕ := 252

/-- `LCWF` -/
def magic : List UInt8 := [76, 67, 87, 70]

/-- `LCOK` -/
def commitMarker : List UInt8 := [76, 67, 79, 75]

def version : ℕ := 1
def crcOffset : ℕ := 16
def headerLen : ℕ := 20
def ssidOffset : ℕ := 20
def passwordOffset : ℕ := 52
def tokenOffset : ℕ := 116

inductive ConfigError where
  | missing
  | uncommitted
  | unsupportedVersion
  | corrupt
  | invalidUtf8
  | invalidSsid
  | invalidPassword
  | invalidToken
  deriving DecidableEq, Repr

/-- A string whose UTF-8 encoding fits into the capacity. -/
structure BoundedString (capacity : ℕ) where
  text : String
  fits : (Text.bytes text).length ≤ capacity
  deriving DecidableEq

/-- Pushing a string onto an empty bounded one. -/
def BoundedString.pushStr (capacity : ℕ) (text : String) : Option (BoundedString capacity) :=
  if fits : (Text.bytes text).length ≤ capacity then some ⟨text, fits⟩ else none

structure DeviceConfig where
  ssid : BoundedString maxSsidLen
  password : BoundedString maxPasswordLen
  token : BoundedString maxTokenLen
  deriving DecidableEq

/-- An ASCII letter, digit, hyphen or underscore. -/
def isTokenByte (byte : UInt8) : Bool := Text.isAsciiAlphanumeric byte || byte = 45 || byte = 95

/-- Empty, a passphrase of 8 to 63 bytes, or a key of 64 hexadecimal digits. -/
def passwordIsValid (password : String) : Bool :=
  password = "" ∨ (8 ≤ (Text.bytes password).length ∧ (Text.bytes password).length ≤ 63) ∨
    ((Text.bytes password).length = 64 ∧ (Text.bytes password).all Text.isAsciiHexdigit)

def DeviceConfig.new (ssid password token : String) : Except ConfigError DeviceConfig := do
  if ssid = "" ∨ (Text.bytes ssid).length > maxSsidLen then throw .invalidSsid
  if ¬ passwordIsValid password then throw .invalidPassword
  if (Text.bytes token).length < minTokenLen ∨ (Text.bytes token).length > maxTokenLen ∨
      ¬ (Text.bytes token).all isTokenByte then
    throw .invalidToken
  let ssidValue ← okOr (BoundedString.pushStr maxSsidLen ssid) .invalidSsid
  let passwordValue ← okOr (BoundedString.pushStr maxPasswordLen password) .invalidPassword
  let tokenValue ← okOr (BoundedString.pushStr maxTokenLen token) .invalidToken
  return ⟨ssidValue, passwordValue, tokenValue⟩

/-! ## Encoding -/

abbrev Record := Vector UInt8 recordLen

/-- One bit of the checksum's division. -/
def crcBit (crc : UInt32) : UInt32 := (crc >>> 1) ^^^ (0xedb88320 &&& (0 - (crc &&& 1)))

def crcByte (crc : UInt32) (value : UInt8) : UInt32 := crcBit^[8] (crc ^^^ value.toUInt32)

/-- The byte that enters the checksum: the checksum's own bytes count as zero. -/
def crcInput (record : Record) (index : ℕ) : UInt8 :=
  if crcOffset ≤ index ∧ index < headerLen then 0 else record[index]?.getD 0

def recordCrc (record : Record) : UInt32 :=
  ~~~ (List.range commitOffset).foldl (fun crc index => crcByte crc (crcInput record index))
    0xffffffff

namespace DeviceConfig

variable (config : DeviceConfig)

theorem ssid_room : ssidOffset + (Text.bytes config.ssid.text).length ≤ recordLen :=
  Nat.le_trans (Nat.add_le_add_left config.ssid.fits _) (by decide)

theorem password_room : passwordOffset + (Text.bytes config.password.text).length ≤ recordLen :=
  Nat.le_trans (Nat.add_le_add_left config.password.fits _) (by decide)

theorem token_room : tokenOffset + (Text.bytes config.token.text).length ≤ recordLen :=
  Nat.le_trans (Nat.add_le_add_left config.token.fits _) (by decide)

end DeviceConfig

/-- The record before its checksum is filled in. -/
def encodeUnchecked (config : DeviceConfig) (generation : UInt32) : Record :=
  let ssid := Text.bytes config.ssid.text
  let password := Text.bytes config.password.text
  let token := Text.bytes config.token.text
  let record : Record := Vector.replicate recordLen 0xff
  let record := overwrite record 0 magic (by decide)
  let record := overwrite record 4 (littleEndian 2 version) (by decide)
  let record := overwrite record 6 [UInt8.ofNat ssid.length] (by simp [recordLen])
  let record := overwrite record 7 [UInt8.ofNat password.length] (by simp [recordLen])
  let record := overwrite record 8 [UInt8.ofNat token.length] (by simp [recordLen])
  let record := overwrite record 9 [0, 0, 0] (by decide)
  let record := overwrite record 12 (littleEndian 4 generation.toNat) (by simp [recordLen])
  let record := overwrite record crcOffset [0, 0, 0, 0] (by decide)
  let record := overwrite record ssidOffset ssid config.ssid_room
  let record := overwrite record passwordOffset password config.password_room
  let record := overwrite record tokenOffset token config.token_room
  overwrite record commitOffset commitMarker (by decide)

def encode (config : DeviceConfig) (generation : UInt32) : Record :=
  let record := encodeUnchecked config generation
  overwrite record crcOffset (littleEndian 4 (recordCrc record).toNat) (by
    simp [crcOffset, recordLen])

/-! ## Decoding -/

/-- `str::from_utf8` of a slice of the record; there is no value when the slice is out of
range. -/
def textAt (record : Record) (start length : ℕ) : ExceptT ConfigError Option String :=
  ExceptT.mk ((slice? record start length).map fun bytes =>
    okOr (Text.ofBytes? bytes) .invalidUtf8)

/-- The checks of `decode` before it slices the record: the lengths of the three texts. -/
def decodeHeader (record : Record) : Except ConfigError (ℕ × ℕ × ℕ) := do
  if record.toList.all (· = 0xff) then throw .missing
  if field record commitOffset 4 ≠ commitMarker then throw .uncommitted
  if field record 0 4 ≠ magic then throw .corrupt
  if ofLittleEndian (field record 4 2) ≠ version then throw .unsupportedVersion
  let expectedChecksum := UInt32.ofNat (ofLittleEndian (field record crcOffset 4))
  if recordCrc record ≠ expectedChecksum then throw .corrupt
  let ssidLen := record[6].toNat
  let passwordLen := record[7].toNat
  let tokenLen := record[8].toNat
  if ssidLen = 0 ∨ ssidLen > maxSsidLen then throw .invalidSsid
  if passwordLen > maxPasswordLen then throw .invalidPassword
  if ¬ (minTokenLen ≤ tokenLen ∧ tokenLen ≤ maxTokenLen) then throw .invalidToken
  return (ssidLen, passwordLen, tokenLen)

/-- The texts and the generation of a record. -/
def decodeFields (record : Record) (ssidLen passwordLen tokenLen : ℕ) :
    ExceptT ConfigError Option (DeviceConfig × UInt32) := do
  let ssid ← textAt record ssidOffset ssidLen
  let password ← textAt record passwordOffset passwordLen
  let token ← textAt record tokenOffset tokenLen
  let generation := UInt32.ofNat (ofLittleEndian (field record 12 4))
  let config ← ExceptT.mk (some (DeviceConfig.new ssid password token))
  return (config, generation)

/-- `decode`, without a value where the source would slice out of range. -/
def decodeSliced (record : Record) : ExceptT ConfigError Option (DeviceConfig × UInt32) := do
  let lengths ← ExceptT.mk (some (decodeHeader record))
  decodeFields record lengths.1 lengths.2.1 lengths.2.2

/-! ## What `new` accepts -/

/-- The configurations `new` builds. -/
structure DeviceConfig.Valid (config : DeviceConfig) : Prop where
  ssid : config.ssid.text ≠ ""
  password : passwordIsValid config.password.text = true
  token_length : minTokenLen ≤ (Text.bytes config.token.text).length
  token_characters : (Text.bytes config.token.text).all isTokenByte = true

theorem BoundedString.pushStr_eq_some_iff {capacity : ℕ} {text : String}
    {value : BoundedString capacity} :
    BoundedString.pushStr capacity text = some value ↔ value.text = text := by
  unfold pushStr
  constructor
  · intro pushed
    split at pushed
    · obtain rfl := Option.some.inj pushed
      rfl
    · cases pushed
  · rintro rfl
    exact dif_pos value.fits

/-- **What `new` builds.** -/
theorem DeviceConfig.new_eq_ok_iff {ssid password token : String} {config : DeviceConfig} :
    DeviceConfig.new ssid password token = .ok config ↔
      (config.ssid.text = ssid ∧ config.password.text = password ∧ config.token.text = token) ∧
        config.Valid := by
  simp only [DeviceConfig.new, throw, throwThe, MonadExceptOf.throw, error_bind, guard_eq_ok_iff,
    bind_eq_ok_iff, okOr_eq_ok_iff, BoundedString.pushStr_eq_some_iff, pure, Except.pure,
    Except.ok.injEq, not_or, not_not, Nat.not_lt]
  constructor
  · rintro ⟨⟨named, _⟩, password, ⟨long, _, characters⟩, ssidValue, rfl, passwordValue, rfl,
      tokenValue, rfl, rfl⟩
    exact ⟨⟨rfl, rfl, rfl⟩, named, password, long, characters⟩
  · rintro ⟨⟨rfl, rfl, rfl⟩, valid⟩
    exact ⟨⟨valid.ssid, config.ssid.fits⟩, valid.password,
      ⟨valid.token_length, config.token.fits, valid.token_characters⟩, _, rfl, _, rfl, _, rfl, rfl⟩

/-- A configuration for an open network. -/
def openNetwork : DeviceConfig where
  ssid := ⟨"home", by decide⟩
  password := ⟨"", by decide⟩
  token := ⟨"0123456789abcdef", by decide⟩

theorem openNetwork_valid : openNetwork.Valid where
  ssid := by decide
  password := by decide
  token_length := by decide
  token_characters := by decide

/-- A configuration for a network with a passphrase. -/
def closedNetwork : DeviceConfig where
  ssid := ⟨"workshop", by decide⟩
  password := ⟨"correct horse", by decide⟩
  token := ⟨"fedcba9876543210", by decide⟩

theorem closedNetwork_valid : closedNetwork.Valid where
  ssid := by decide
  password := by decide
  token_length := by decide
  token_characters := by decide

/-! ## What `decode` accepts -/

/-- The record stores the configuration under the generation. -/
structure Stores (record : Record) (config : DeviceConfig) (generation : UInt32) : Prop where
  committed : field record commitOffset 4 = commitMarker
  magic : field record 0 4 = magic
  version : ofLittleEndian (field record 4 2) = version
  checksum : recordCrc record = UInt32.ofNat (ofLittleEndian (field record crcOffset 4))
  ssidLen : record[6].toNat = (Text.bytes config.ssid.text).length
  passwordLen : record[7].toNat = (Text.bytes config.password.text).length
  tokenLen : record[8].toNat = (Text.bytes config.token.text).length
  ssid : field record ssidOffset record[6].toNat = Text.bytes config.ssid.text
  password : field record passwordOffset record[7].toNat = Text.bytes config.password.text
  token : field record tokenOffset record[8].toNat = Text.bytes config.token.text
  generation : UInt32.ofNat (ofLittleEndian (field record 12 4)) = generation
  valid : config.Valid

/-- The header checks that `decode` makes. -/
structure HeaderAccepted (record : Record) : Prop where
  notErased : record.toList.all (· = 0xff) = false
  committed : field record commitOffset 4 = commitMarker
  magic : field record 0 4 = magic
  version : ofLittleEndian (field record 4 2) = version
  checksum : recordCrc record = UInt32.ofNat (ofLittleEndian (field record crcOffset 4))
  ssidLen : record[6].toNat ≠ 0 ∧ record[6].toNat ≤ maxSsidLen
  passwordLen : record[7].toNat ≤ maxPasswordLen
  tokenLen : minTokenLen ≤ record[8].toNat ∧ record[8].toNat ≤ maxTokenLen

theorem decodeHeader_eq_ok_iff {record : Record} {lengths : ℕ × ℕ × ℕ} :
    decodeHeader record = .ok lengths ↔ HeaderAccepted record ∧
      lengths = (record[6].toNat, record[7].toNat, record[8].toNat) := by
  simp only [decodeHeader, throw, throwThe, MonadExceptOf.throw, error_bind, guard_eq_ok_iff, pure,
    Except.pure, Except.ok.injEq, not_or, not_not, Nat.not_lt, Bool.not_eq_true]
  constructor
  · rintro ⟨notErased, committed, magic, version, checksum, ssidLen, passwordLen, tokenLen, rfl⟩
    exact ⟨⟨notErased, committed, magic, version, checksum, ssidLen, passwordLen, tokenLen⟩, rfl⟩
  · rintro ⟨accepted, rfl⟩
    exact ⟨accepted.notErased, accepted.committed, accepted.magic, accepted.version,
      accepted.checksum, accepted.ssidLen, accepted.passwordLen, accepted.tokenLen, rfl⟩

theorem textAt_eq_ok_iff {record : Record} {start length : ℕ} {text : String} :
    (textAt record start length).run = some (.ok text) ↔
      start + length ≤ recordLen ∧ field record start length = Text.bytes text := by
  simp only [textAt, ExceptT.run_mk, Option.map_eq_some_iff, okOr_eq_ok_iff]
  constructor
  · rintro ⟨bytes, sliced, decoded⟩
    rw [slice?, Option.ite_none_right_eq_some] at sliced
    obtain ⟨inside, same⟩ := sliced
    obtain rfl := Option.some.inj same
    exact ⟨inside, (Text.bytes_of_ofBytes? decoded).symm⟩
  · rintro ⟨inside, same⟩
    exact ⟨_, slice?_eq_some inside, by rw [same, Text.ofBytes?_bytes]⟩

theorem textAt_isSome {record : Record} {start length : ℕ} (inside : start + length ≤ recordLen) :
    (textAt record start length).run.isSome := by
  simp [textAt, slice?_eq_some inside]

/-- **The decoder never slices out of range.** -/
theorem decodeSliced_isSome (record : Record) : (decodeSliced record).run.isSome := by
  refine isSome_bind rfl fun lengths header => ?_
  obtain ⟨accepted, rfl⟩ := decodeHeader_eq_ok_iff.mp (Option.some.inj header)
  refine isSome_bind (textAt_isSome ?_) fun ssid _ =>
    isSome_bind (textAt_isSome ?_) fun password _ =>
      isSome_bind (textAt_isSome ?_) fun token _ => isSome_bind rfl fun config _ => rfl
  · exact Nat.le_trans (Nat.add_le_add_left accepted.ssidLen.2 _) (by decide)
  · exact Nat.le_trans (Nat.add_le_add_left accepted.passwordLen _) (by decide)
  · exact Nat.le_trans (Nat.add_le_add_left accepted.tokenLen.2 _) (by decide)

def decode (record : Record) : Except ConfigError (DeviceConfig × UInt32) :=
  (decodeSliced record).run.get (decodeSliced_isSome record)

theorem decode_eq_iff {record : Record} {result : Except ConfigError (DeviceConfig × UInt32)} :
    decode record = result ↔ (decodeSliced record).run = some result := by
  rw [decode, Option.eq_some_iff_get_eq, exists_prop_of_true (decodeSliced_isSome record)]

/-- **The decoder accepts exactly the records that store a valid configuration.** -/
theorem decode_eq_ok_iff {record : Record} {config : DeviceConfig} {generation : UInt32} :
    decode record = .ok (config, generation) ↔ Stores record config generation := by
  simp only [decode_eq_iff, decodeSliced, decodeFields, run_bind_eq_ok_iff, textAt_eq_ok_iff,
    ExceptT.run_mk, Option.some.injEq, decodeHeader_eq_ok_iff, DeviceConfig.new_eq_ok_iff]
  constructor
  · rintro ⟨_, ⟨header, rfl⟩, ssid, ⟨ssidRoom, ssidField⟩, password, ⟨passwordRoom, passwordField⟩,
      token, ⟨tokenRoom, tokenField⟩, built, ⟨⟨rfl, rfl, rfl⟩, valid⟩, made⟩
    obtain ⟨rfl, rfl⟩ := Prod.mk.inj (Except.ok.inj (Option.some.inj made))
    refine ⟨header.committed, header.magic, header.version, header.checksum, ?_, ?_, ?_, ssidField,
      passwordField, tokenField, rfl, valid⟩
    · rw [← ssidField, length_field _ ssidRoom]
    · rw [← passwordField, length_field _ passwordRoom]
    · rw [← tokenField, length_field _ tokenRoom]
  · intro stores
    have ssidRoom := config.ssid_room
    have passwordRoom := config.password_room
    have tokenRoom := config.token_room
    rw [← stores.ssidLen] at ssidRoom
    rw [← stores.passwordLen] at passwordRoom
    rw [← stores.tokenLen] at tokenRoom
    refine ⟨_, ⟨⟨?_, stores.committed, stores.magic, stores.version, stores.checksum, ⟨?_, ?_⟩, ?_,
      ?_, ?_⟩, rfl⟩, _, ⟨ssidRoom, stores.ssid⟩, _, ⟨passwordRoom, stores.password⟩, _,
      ⟨tokenRoom, stores.token⟩, _, ⟨⟨rfl, rfl, rfl⟩, stores.valid⟩, by rw [stores.generation]; rfl⟩
    · rw [← Bool.not_eq_true, List.all_eq_true]
      intro erased
      have marked : (76 : UInt8) ∈ field record commitOffset 4 := by
        rw [stores.committed]
        decide
      have value := erased 76 (List.mem_of_mem_drop (List.mem_of_mem_take marked))
      revert value
      decide
    · rw [stores.ssidLen, Text.length_bytes, ne_eq, String.utf8ByteSize_eq_zero_iff]
      exact stores.valid.ssid
    · rw [stores.ssidLen]
      exact config.ssid.fits
    · rw [stores.passwordLen]
      exact config.password.fits
    · rw [stores.tokenLen]
      exact stores.valid.token_length
    · rw [stores.tokenLen]
      exact config.token.fits

/-- A record without the commit marker is rejected. -/
theorem decode_of_uncommitted {record : Record}
    (unmarked : field record commitOffset 4 ≠ commitMarker)
    (config : DeviceConfig) (generation : UInt32) : decode record ≠ .ok (config, generation) :=
  fun accepted => unmarked (decode_eq_ok_iff.mp accepted).committed

/-! ## The encoder's records -/

section Encoding

variable (config : DeviceConfig) (generation : UInt32)

/-- The ranges of the record in the order the encoder writes them. -/
def layout : List (Write recordLen) :=
  [⟨0, magic, by decide⟩, ⟨4, littleEndian 2 version, by decide⟩,
    ⟨6, [UInt8.ofNat (Text.bytes config.ssid.text).length], by simp [recordLen]⟩,
    ⟨7, [UInt8.ofNat (Text.bytes config.password.text).length], by simp [recordLen]⟩,
    ⟨8, [UInt8.ofNat (Text.bytes config.token.text).length], by simp [recordLen]⟩,
    ⟨9, [0, 0, 0], by decide⟩, ⟨12, littleEndian 4 generation.toNat, by simp [recordLen]⟩,
    ⟨crcOffset, [0, 0, 0, 0], by decide⟩,
    ⟨ssidOffset, Text.bytes config.ssid.text, config.ssid_room⟩,
    ⟨passwordOffset, Text.bytes config.password.text, config.password_room⟩,
    ⟨tokenOffset, Text.bytes config.token.text, config.token_room⟩,
    ⟨commitOffset, commitMarker, by decide⟩]

theorem encodeUnchecked_eq : encodeUnchecked config generation =
    writeAll (Vector.replicate recordLen 0xff) (layout config generation) := rfl

/-- The ranges follow one another. -/
theorem layout_ordered : (layout config generation).Pairwise fun write later =>
    write.start + write.bytes.length ≤ later.start := by
  have ssidFits : (Text.bytes config.ssid.text).length ≤ 32 := config.ssid.fits
  have passwordFits : (Text.bytes config.password.text).length ≤ 64 := config.password.fits
  have tokenFits : (Text.bytes config.token.text).length ≤ 32 := config.token.fits
  simp [layout, magic, crcOffset, ssidOffset, passwordOffset, tokenOffset, commitOffset]
  omega

/-- Every range but the checksum's holds what the encoder writes there. -/
theorem field_encode {start length : ℕ} {bytes : List UInt8}
    (member : (start, bytes) ∈ (layout config generation).map fun write =>
      (write.start, write.bytes))
    (sized : bytes.length = length)
    (outside : start + length ≤ crcOffset ∨ headerLen ≤ start) :
    field (encode config generation) start length = bytes := by
  obtain ⟨write, written, range⟩ := List.mem_map.mp member
  obtain ⟨rfl, rfl⟩ := Prod.mk.inj range
  subst sized
  have kept : field (encode config generation) write.start write.bytes.length =
      field (encodeUnchecked config generation) write.start write.bytes.length :=
    field_overwrite_disjoint (by simp [crcOffset, recordLen]) outside
  rw [kept, encodeUnchecked_eq]
  exact field_writeAll (layout_ordered config generation) written

/-- The checksum does not see its own bytes. -/
theorem recordCrc_congr {record other : Record}
    (same : ∀ index < commitOffset, index < crcOffset ∨ headerLen ≤ index →
      record[index]?.getD 0 = other[index]?.getD 0) : recordCrc record = recordCrc other := by
  have inputs : ∀ index < commitOffset, crcInput record index = crcInput other index := by
    intro index below
    unfold crcInput
    split
    · rfl
    · exact same index below (by omega)
  have folds : (List.range commitOffset).foldl (fun crc index =>
      crcByte crc (crcInput record index)) 0xffffffff = (List.range commitOffset).foldl
        (fun crc index => crcByte crc (crcInput other index)) 0xffffffff := by
    apply List.foldl_ext
    intro crc index member
    rw [inputs index (List.mem_range.mp member)]
  rw [recordCrc, recordCrc, folds]

private theorem recordCrc_encode :
    recordCrc (encode config generation) = recordCrc (encodeUnchecked config generation) := by
  apply recordCrc_congr
  intro index below outside
  have inside : index < recordLen := Nat.lt_trans below (by decide)
  have untouched : (encode config generation)[index] =
      (encodeUnchecked config generation)[index] := by
    rw [encode]
    exact getElem_overwrite_outside _ inside outside
  rw [Vector.getElem?_eq_getElem inside, Vector.getElem?_eq_getElem inside, untouched]

/-- A length that fits into a byte is stored as it is. -/
private theorem toNat_ofNat_of_le {value bound : ℕ} (below : value ≤ bound) (small : bound < 256) :
    (UInt8.ofNat value).toNat = value :=
  UInt8.toNat_ofNat_of_lt' (Nat.lt_of_le_of_lt below small)

/-- **The encoder stores the configuration.** -/
theorem stores_encode (valid : config.Valid) :
    Stores (encode config generation) config generation := by
  have ssidByte : (encode config generation)[6] =
      UInt8.ofNat (Text.bytes config.ssid.text).length :=
    getElem_of_field (by decide) (field_encode config generation (by simp [layout]) rfl (by decide))
  have passwordByte : (encode config generation)[7] =
      UInt8.ofNat (Text.bytes config.password.text).length :=
    getElem_of_field (by decide) (field_encode config generation (by simp [layout]) rfl (by decide))
  have tokenByte : (encode config generation)[8] =
      UInt8.ofNat (Text.bytes config.token.text).length :=
    getElem_of_field (by decide) (field_encode config generation (by simp [layout]) rfl (by decide))
  have ssidLen : (encode config generation)[6].toNat = (Text.bytes config.ssid.text).length := by
    rw [ssidByte, toNat_ofNat_of_le config.ssid.fits (by decide)]
  have passwordLen : (encode config generation)[7].toNat =
      (Text.bytes config.password.text).length := by
    rw [passwordByte, toNat_ofNat_of_le config.password.fits (by decide)]
  have tokenLen : (encode config generation)[8].toNat = (Text.bytes config.token.text).length := by
    rw [tokenByte, toNat_ofNat_of_le config.token.fits (by decide)]
  refine ⟨?_, ?_, ?_, ?_, ssidLen, passwordLen, tokenLen, ?_, ?_, ?_, ?_, valid⟩
  · exact field_encode config generation (by simp [layout]) rfl (by decide)
  · exact field_encode config generation (by simp [layout]) rfl (by decide)
  · have stored : field (encode config generation) 4 2 = littleEndian 2 version :=
      field_encode config generation (by simp [layout]) rfl (by decide)
    rw [stored]
    exact ofLittleEndian_littleEndian (by decide)
  · have stored : field (encode config generation) crcOffset 4 =
        littleEndian 4 (recordCrc (encodeUnchecked config generation)).toNat :=
      field_overwrite_self (by simp [crcOffset, recordLen])
    rw [stored, ofLittleEndian_littleEndian (UInt32.toNat_lt _), recordCrc_encode,
      UInt32.ofNat_toNat]
  · rw [ssidLen]
    exact field_encode config generation (by simp [layout]) rfl (Or.inr (by decide))
  · rw [passwordLen]
    exact field_encode config generation (by simp [layout]) rfl (Or.inr (by decide))
  · rw [tokenLen]
    exact field_encode config generation (by simp [layout]) rfl (Or.inr (by decide))
  · have stored : field (encode config generation) 12 4 = littleEndian 4 generation.toNat :=
      field_encode config generation (by simp [layout]) rfl (by decide)
    rw [stored, ofLittleEndian_littleEndian (UInt32.toNat_lt _), UInt32.ofNat_toNat]

/-- **A stored configuration reads back.** -/
theorem decode_encode (valid : config.Valid) :
    decode (encode config generation) = .ok (config, generation) :=
  decode_eq_ok_iff.mpr (stores_encode config generation valid)

end Encoding

/-- **The codec as a whole.** What `new` builds reads back from its record under every
generation. No record makes the decoder slice out of range, and what it decodes is
accepted by `new` and reads back from a record of its own. -/
theorem record_codec :
    (∀ {ssid password token : String} {config : DeviceConfig} (generation : UInt32),
      DeviceConfig.new ssid password token = .ok config →
        decode (encode config generation) = .ok (config, generation)) ∧
    ∀ record : Record, (decodeSliced record).run = some (decode record) ∧
      ∀ {config : DeviceConfig} {generation : UInt32},
        decode record = .ok (config, generation) →
          DeviceConfig.new config.ssid.text config.password.text config.token.text = .ok config ∧
            decode (encode config generation) = .ok (config, generation) := by
  refine ⟨?_, fun record => ⟨decode_eq_iff.mp rfl, ?_⟩⟩
  · intro ssid password token config generation built
    exact decode_encode config generation (DeviceConfig.new_eq_ok_iff.mp built).2
  · intro config generation decoded
    have valid := (decode_eq_ok_iff.mp decoded).valid
    exact ⟨DeviceConfig.new_eq_ok_iff.mpr ⟨⟨rfl, rfl, rfl⟩, valid⟩,
      decode_encode config generation valid⟩

/-- The record of the open network, and what is decoded from it. -/
theorem record_codec_openNetwork :
    decode (encode openNetwork 7) = .ok (openNetwork, 7) ∧
      DeviceConfig.new "home" "" "0123456789abcdef" = .ok openNetwork := by
  have built : DeviceConfig.new "home" "" "0123456789abcdef" = .ok openNetwork :=
    DeviceConfig.new_eq_ok_iff.mpr ⟨⟨rfl, rfl, rfl⟩, openNetwork_valid⟩
  have stored := record_codec.1 7 built
  exact ⟨stored, ((record_codec.2 (encode openNetwork 7)).2 stored).1⟩

end LaptopCooler.Firmware
