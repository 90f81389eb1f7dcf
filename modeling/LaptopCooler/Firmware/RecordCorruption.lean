import LaptopCooler.Firmware.Config
import LaptopCooler.Library.ShiftRegister

/-! # Corruption of a stored record

The checksum of a record is a shift register over the bits of the record, each
byte lowest bit first, in which the checksum's own bytes count as zero
(`LaptopCooler.Firmware.wordBits_recordCrc`). Two records that the decoder accepts
therefore differ by an error whose syndrome is the difference of their stored
checksums, which a small error never is
(`LaptopCooler.Firmware.corruption_detected`).
-/

namespace LaptopCooler.Firmware

open ByteRecord ShiftRegister

/-! ## Words and bytes as bits -/

def wordBits (word : UInt32) : State 31 := fun position =>
  if word.toNat.testBit position then 1 else 0

def byteBit (byte : UInt8) (index : ℕ) : ZMod 2 := if byte.toNat.testBit index then 1 else 0

/-- The feedback of the checksum's division. -/
def crcTaps : State 31 := wordBits 0xedb88320

private theorem bit_xor (first second : Bool) :
    (if first ^^ second then 1 else 0 : ZMod 2) =
      (if first then 1 else 0) + (if second then 1 else 0) := by
  revert first second
  decide

theorem wordBits_xor (first second : UInt32) :
    wordBits (first ^^^ second) = wordBits first + wordBits second := by
  funext position
  simp only [wordBits, UInt32.toNat_xor, Nat.testBit_xor, Pi.add_apply, bit_xor]

theorem wordBits_injective : Function.Injective wordBits := by
  intro first second same
  apply UInt32.toNat_inj.mp
  apply Nat.eq_of_testBit_eq
  intro position
  by_cases inside : position < 32
  · have read := congrFun same ⟨position, inside⟩
    simp only [wordBits] at read
    cases firstBit : first.toNat.testBit position <;>
      cases secondBit : second.toNat.testBit position <;> simp_all
  · have large : 2 ^ 32 ≤ 2 ^ position := Nat.pow_le_pow_right (by decide) (by omega)
    rw [Nat.testBit_lt_two_pow (Nat.lt_of_lt_of_le first.toNat_lt large),
      Nat.testBit_lt_two_pow (Nat.lt_of_lt_of_le second.toNat_lt large)]

/-- The mask of the feedback: all ones when the lowest bit is set. -/
private theorem feedback_testBit (crc : UInt32) {position : ℕ} (inside : position < 32) :
    (0 - (crc &&& 1)).toNat.testBit position = crc.toNat.testBit 0 := by
  have lowest : (crc &&& 1).toNat = crc.toNat % 2 := by
    rw [UInt32.toNat_and]
    exact Nat.and_one_is_mod _
  rw [Nat.testBit_zero]
  rcases Nat.mod_two_eq_zero_or_one crc.toNat with even | odd
  · have clear : crc &&& 1 = 0 := UInt32.toNat_inj.mp (lowest.trans even)
    rw [clear, even]
    exact Nat.zero_testBit position
  · have set : crc &&& 1 = 1 := UInt32.toNat_inj.mp (lowest.trans odd)
    have ones : (0 - 1 : UInt32).toNat = 2 ^ 32 - 1 := by decide
    rw [set, odd, ones, Nat.testBit_two_pow_sub_one]
    simp [inside]

/-- **One step of the division is one step of the register.** -/
theorem wordBits_crcBit (crc : UInt32) : wordBits (crcBit crc) = shift crcTaps (wordBits crc) := by
  funext position
  have moved : (crc >>> 1).toNat.testBit position = crc.toNat.testBit (position + 1) := by
    rw [UInt32.toNat_shiftRight, Nat.testBit_shiftRight, Nat.add_comm]
    rfl
  have fed : (0xedb88320 &&& (0 - (crc &&& 1)) : UInt32).toNat.testBit position =
      ((0xedb88320 : UInt32).toNat.testBit position && crc.toNat.testBit 0) := by
    rw [UInt32.toNat_and, Nat.testBit_and, feedback_testBit crc position.isLt]
  have product : ∀ tap lowest : Bool, (if (tap && lowest) then 1 else 0 : ZMod 2) =
      (if lowest then 1 else 0) * (if tap then 1 else 0) := by decide
  simp only [shift_apply, crcTaps, wordBits, crcBit, UInt32.toNat_xor, Nat.testBit_xor, bit_xor,
    moved, fed, product]
  congr 1
  by_cases inside : position.val + 1 < 32
  · rw [dif_pos inside]
  · have large : 2 ^ 32 ≤ 2 ^ (position.val + 1) := Nat.pow_le_pow_right (by decide) (by omega)
    rw [dif_neg inside, Nat.testBit_lt_two_pow (Nat.lt_of_lt_of_le crc.toNat_lt large)]
    rfl

theorem wordBits_crcBit_iterate (crc : UInt32) (count : ℕ) :
    wordBits (crcBit^[count] crc) = (shift crcTaps ^ count) (wordBits crc) := by
  induction count with
  | zero => rfl
  | succ count ih =>
      rw [Function.iterate_succ_apply', wordBits_crcBit, ih, pow_succ', Module.End.mul_apply]

theorem wordBits_toUInt32 (byte : UInt8) :
    wordBits byte.toUInt32 = ∑ index ∈ Finset.range 8, byteBit byte index • cell index := by
  funext position
  have small : byte.toUInt32.toNat = byte.toNat := UInt8.toNat_toUInt32 byte
  rw [Finset.sum_apply]
  by_cases low : position.val < 8
  · rw [Finset.sum_eq_single position.val]
    · simp [wordBits, byteBit, cell, small]
    · intro other _ differ
      simp [cell, differ.symm]
    · intro absent
      exact absurd (Finset.mem_range.mpr low) absent
  · have large : 2 ^ 8 ≤ 2 ^ position.val := Nat.pow_le_pow_right (by decide) (by omega)
    rw [Finset.sum_eq_zero]
    · simp [wordBits, small, Nat.testBit_lt_two_pow (Nat.lt_of_lt_of_le byte.toNat_lt large)]
    · intro index member
      have elsewhere : position.val ≠ index := by
        have := Finset.mem_range.mp member
        omega
      simp [cell, elsewhere]

/-! ## The checksum -/

/-- The bit of the record at a position, counted over the bytes in order and in each byte
from the lowest. -/
def recordBit (record : Record) (position : ℕ) : ZMod 2 :=
  byteBit (record[position / 8]?.getD 0) (position % 8)

/-- The bits that enter the checksum. -/
def crcMessage (record : Record) (position : ℕ) : ZMod 2 :=
  byteBit (crcInput record (position / 8)) (position % 8)

/-- **The checksum's division is the register over the record's bits.** -/
theorem wordBits_foldl (record : Record) (initial : UInt32) (count : ℕ) :
    wordBits ((List.range count).foldl (fun crc index => crcByte crc (crcInput record index))
      initial) = absorb crcTaps (wordBits initial) (crcMessage record) (8 * count) := by
  induction count with
  | zero => rfl
  | succ count ih =>
      have bits : ∀ index ∈ Finset.range 8, crcMessage record (8 * count + index) =
          byteBit (crcInput record count) index := by
        intro index member
        have below := Finset.mem_range.mp member
        rw [crcMessage, Nat.mul_add_div (by decide), Nat.mul_add_mod, Nat.div_eq_of_lt below,
          Nat.mod_eq_of_lt below, Nat.add_zero]
      have sums : ∑ index ∈ Finset.range 8, crcMessage record (8 * count + index) •
            (cell index : State 31) =
          ∑ index ∈ Finset.range 8, byteBit (crcInput record count) index • cell index :=
        Finset.sum_congr rfl fun index member => by rw [bits index member]
      rw [List.range_succ, List.foldl_append, List.foldl_cons, List.foldl_nil, crcByte,
        wordBits_crcBit_iterate, wordBits_xor, ih, wordBits_toUInt32, Nat.mul_succ,
        absorb_add crcTaps _ _ _ (by decide), sums]

theorem wordBits_recordCrc (record : Record) : wordBits (recordCrc record) =
    absorb crcTaps (wordBits 0xffffffff) (crcMessage record) 2016 + wordBits 0xffffffff := by
  rw [recordCrc, ← UInt32.xor_neg_one, wordBits_xor, wordBits_foldl]
  rfl

/-- The checksum a record carries, as the record's bits. -/
theorem wordBits_checksum (record : Record) (position : Fin 32) :
    wordBits (UInt32.ofNat (ofLittleEndian (field record crcOffset 4))) position =
      recordBit record (128 + position) := by
  have length : (field record crcOffset 4).length = 4 := length_field record (by decide)
  have small : ofLittleEndian (field record crcOffset 4) < 2 ^ 32 := by
    have bound := ofLittleEndian_lt (field record crcOffset 4)
    rwa [length] at bound
  have word : position.val / 8 < 4 := by omega
  have index : (128 + position.val) / 8 = crcOffset + position / 8 := by
    unfold crcOffset
    omega
  have bit : (128 + position.val) % 8 = position % 8 := by omega
  rw [recordBit, byteBit, wordBits, UInt32.toNat_ofNat_of_lt' small, testBit_ofLittleEndian,
    getElem?_field _ _ word, index, bit]

/-! ## Differences between records -/

/-- The positions at which two records differ. -/
def differingBits (record other : Record) : Finset ℕ :=
  {position ∈ Finset.range 2048 | recordBit record position ≠ recordBit other position}

theorem byteBit_ext {first second : UInt8}
    (same : ∀ index < 8, byteBit first index = byteBit second index) : first = second := by
  apply UInt8.toNat_inj.mp
  apply Nat.eq_of_testBit_eq
  intro index
  by_cases low : index < 8
  · have read := same index low
    unfold byteBit at read
    cases firstBit : first.toNat.testBit index <;>
      cases secondBit : second.toNat.testBit index <;> simp_all
  · have large : 2 ^ 8 ≤ 2 ^ index := Nat.pow_le_pow_right (by decide) (by omega)
    rw [Nat.testBit_lt_two_pow (Nat.lt_of_lt_of_le first.toNat_lt large),
      Nat.testBit_lt_two_pow (Nat.lt_of_lt_of_le second.toNat_lt large)]

/-- Different records differ in a bit. -/
theorem differingBits_nonempty {record other : Record} (differ : record ≠ other) :
    (differingBits record other).Nonempty := by
  rw [Finset.nonempty_iff_ne_empty]
  intro empty
  apply differ
  apply Vector.ext
  intro index inside
  have within : index < 256 := inside
  apply byteBit_ext
  intro bit below
  by_contra different
  have quotient : (8 * index + bit) / 8 = index := by omega
  have remainder : (8 * index + bit) % 8 = bit := by omega
  have member : 8 * index + bit ∈ differingBits record other := by
    refine Finset.mem_filter.mpr ⟨Finset.mem_range.mpr (by omega), ?_⟩
    rw [recordBit, recordBit, quotient, remainder, Vector.getElem?_eq_getElem inside,
      Vector.getElem?_eq_getElem inside]
    exact different
  rw [empty] at member
  exact Finset.notMem_empty _ member

/-- What the checksum's message makes of a difference. -/
def messageError (record other : Record) : ℕ → ZMod 2 := crcMessage record + crcMessage other

/-- The difference of the stored checksums. -/
def storedError (record other : Record) : State 31 := fun position =>
  recordBit record (128 + position) + recordBit other (128 + position)

theorem crcMessage_eq (record : Record) {position : ℕ} (outside : position < 128 ∨ 160 ≤ position) :
    crcMessage record position = recordBit record position := by
  have elsewhere : ¬ (crcOffset ≤ position / 8 ∧ position / 8 < headerLen) := by
    unfold crcOffset headerLen
    omega
  rw [crcMessage, crcInput, if_neg elsewhere, recordBit]

theorem crcMessage_of_checksum (record : Record) {position : ℕ} (low : 128 ≤ position)
    (high : position < 160) : crcMessage record position = 0 := by
  have masked : crcOffset ≤ position / 8 ∧ position / 8 < headerLen := by
    unfold crcOffset headerLen
    omega
  rw [crcMessage, crcInput, if_pos masked]
  simp [byteBit]

/-- **Records that pass the checksum differ by an error that is its own checksum.** -/
theorem syndrome_eq_storedError {record other : Record}
    (checked : recordCrc record = UInt32.ofNat (ofLittleEndian (field record crcOffset 4)))
    (otherChecked : recordCrc other = UInt32.ofNat (ofLittleEndian (field other crcOffset 4))) :
    syndrome crcTaps (messageError record other) 2016 = storedError record other := by
  have stored : storedError record other =
      wordBits (recordCrc record) + wordBits (recordCrc other) := by
    funext position
    rw [checked, otherChecked, Pi.add_apply, wordBits_checksum, wordBits_checksum]
    rfl
  have cancelled : wordBits 0xffffffff + wordBits 0xffffffff = (0 : State 31) :=
    ZModModule.add_self _
  rw [stored, wordBits_recordCrc, wordBits_recordCrc, add_add_add_comm, cancelled, add_zero,
    absorb_add_absorb]
  rfl

/-! ## The parameters of the checksum -/

theorem crcTaps_fed : crcTaps (Fin.last 31) = 1 := by decide

private theorem wordBits_one : wordBits 1 = cell 0 := by decide

/-- The division does not come back to its lowest bit within a record. -/
theorem crcTaps_aperiodic : Aperiodic crcTaps 2016 := by
  have checked : avoids crcBit 1 2047 (crcBit 1) = true := by decide +kernel
  intro steps positive below
  obtain ⟨previous, rfl⟩ := Nat.exists_eq_add_of_lt positive
  rw [← wordBits_one, ← wordBits_crcBit_iterate]
  intro same
  have returned := wordBits_injective same
  rw [Nat.zero_add, Function.iterate_succ_apply] at returned
  have within : previous < 2047 := by omega
  exact ne_of_avoids checked within returned

/-! ## Where accepted records can differ -/

section Accepted

variable {record other : Record}

private theorem mem_differingBits {position : ℕ} : position ∈ differingBits record other ↔
    position < 2048 ∧ recordBit record position ≠ recordBit other position := by
  rw [differingBits, Finset.mem_filter, Finset.mem_range]

private theorem add_ne_zero_iff {first second : ZMod 2} : first + second ≠ 0 ↔ first ≠ second := by
  revert first second
  decide

theorem mem_errorPositions {position : ℕ} :
    position ∈ errorPositions (messageError record other) 2016 ↔
      position ∈ differingBits record other ∧ position < 2016 ∧
        (position < 128 ∨ 160 ≤ position) := by
  rw [errorPositions, Finset.mem_filter, Finset.mem_range, mem_differingBits, messageError,
    Pi.add_apply]
  by_cases outside : position < 128 ∨ 160 ≤ position
  · rw [crcMessage_eq _ outside, crcMessage_eq _ outside, add_ne_zero_iff]
    constructor
    · rintro ⟨below, differ⟩
      exact ⟨⟨by omega, differ⟩, below, outside⟩
    · rintro ⟨⟨_, differ⟩, below, _⟩
      exact ⟨below, differ⟩
  · rw [crcMessage_of_checksum _ (by omega) (by omega),
      crcMessage_of_checksum _ (by omega) (by omega)]
    simp [outside]

theorem mem_setCells {position : Fin 32} :
    position ∈ setCells (storedError record other) ↔
      128 + position.val ∈ differingBits record other := by
  rw [setCells, Finset.mem_filter, storedError, add_ne_zero_iff, mem_differingBits]
  constructor
  · rintro ⟨_, differ⟩
    exact ⟨by omega, differ⟩
  · rintro ⟨_, differ⟩
    exact ⟨Finset.mem_univ _, differ⟩

/-- Under the same commit marker, the differing bits are those of the message and those of
the stored checksum. -/
theorem card_differingBits (marked : ∀ position ∈ differingBits record other, position < 2016) :
    (differingBits record other).card =
      (errorPositions (messageError record other) 2016).card +
        (setCells (storedError record other)).card := by
  have placed : Function.Injective fun position : Fin 32 => 128 + position.val := by
    intro first second same
    exact Fin.ext (Nat.add_left_cancel same)
  have parts : differingBits record other = errorPositions (messageError record other) 2016 ∪
      (setCells (storedError record other)).image fun position : Fin 32 => 128 + position.val := by
    ext position
    rw [Finset.mem_union, mem_errorPositions, Finset.mem_image]
    constructor
    · intro member
      have below := marked position member
      by_cases outside : position < 128 ∨ 160 ≤ position
      · exact Or.inl ⟨member, below, outside⟩
      · refine Or.inr ⟨⟨position - 128, by omega⟩, mem_setCells.mpr ?_, by simp only; omega⟩
        rwa [Nat.add_sub_cancel' (by omega)]
    · rintro (⟨member, _⟩ | ⟨index, member, rfl⟩)
      · exact member
      · exact mem_setCells.mp member
  have apart : Disjoint (errorPositions (messageError record other) 2016)
      ((setCells (storedError record other)).image
        fun position : Fin 32 => 128 + position.val) := by
    rw [Finset.disjoint_left]
    intro position member image
    obtain ⟨index, _, rfl⟩ := Finset.mem_image.mp image
    have outside := (mem_errorPositions.mp member).2.2
    omega
  rw [parts, Finset.card_union_of_disjoint apart, Finset.card_image_of_injective _ placed]

/-- Accepted records carry the same commit marker. -/
theorem getElem_eq_of_committed (committed : field record commitOffset 4 = commitMarker)
    (otherCommitted : field other commitOffset 4 = commitMarker) {index : ℕ}
    (inside : index < 256) (last : 252 ≤ index) : record[index] = other[index] := by
  obtain ⟨offset, rfl⟩ := Nat.exists_eq_add_of_le last
  have below : offset < 4 := by omega
  have read := getElem?_field record commitOffset below
  have otherRead := getElem?_field other commitOffset below
  rw [committed, ← otherCommitted, otherRead] at read
  have inRecord : commitOffset + offset < recordLen := inside
  rw [Vector.getElem?_eq_getElem inRecord, Vector.getElem?_eq_getElem inRecord] at read
  exact (Option.some.inj read).symm

/-- The differing bits lie in one run of at most 32 bits inside a range of bytes. -/
def BurstInside (record other : Record) (first last : ℕ) : Prop :=
  ∃ start, ∀ position ∈ differingBits record other,
    (start ≤ position ∧ position < start + 32) ∧ 8 * first ≤ position ∧ position < 8 * last

/-- A burst in the checksummed bytes leaves a trace in the checksum alone. -/
private theorem burst_detected {start : ℕ} (differ : record ≠ other)
    (burst : ∀ position ∈ differingBits record other, start ≤ position ∧ position < start + 32)
    (message : ∀ position ∈ differingBits record other,
      position < 2016 ∧ (position < 128 ∨ 160 ≤ position)) :
    syndrome crcTaps (messageError record other) 2016 ≠ storedError record other := by
  have unstored : storedError record other = 0 := by
    funext position
    by_contra set
    have member := mem_setCells.mp (Finset.mem_filter.mpr ⟨Finset.mem_univ position, set⟩)
    have outside := (message _ member).2
    omega
  rw [unstored]
  apply syndrome_ne_zero_of_burst crcTaps crcTaps_fed
  · intro position below set
    have member : position ∈ errorPositions (messageError record other) 2016 :=
      Finset.mem_filter.mpr ⟨Finset.mem_range.mpr below, set⟩
    exact burst position (mem_errorPositions.mp member).1
  · obtain ⟨position, member⟩ := differingBits_nonempty differ
    have found := mem_errorPositions.mpr ⟨member, message position member⟩
    obtain ⟨below, set⟩ := Finset.mem_filter.mp found
    exact ⟨position, Finset.mem_range.mp below, set⟩

/-- A difference in the stored checksum alone leaves no trace in the message. -/
private theorem checksum_detected (differ : record ≠ other)
    (checksum : ∀ position ∈ differingBits record other, 128 ≤ position ∧ position < 160) :
    syndrome crcTaps (messageError record other) 2016 ≠ storedError record other := by
  have silent : errorPositions (messageError record other) 2016 = ∅ := by
    rw [Finset.eq_empty_iff_forall_notMem]
    intro position member
    obtain ⟨differs, _, outside⟩ := mem_errorPositions.mp member
    have inside := checksum position differs
    omega
  obtain ⟨position, member⟩ := differingBits_nonempty differ
  obtain ⟨low, high⟩ := checksum position member
  have stored : (⟨position - 128, by omega⟩ : Fin 32) ∈ setCells (storedError record other) := by
    rw [mem_setCells, Nat.add_sub_cancel' low]
    exact member
  rw [syndrome_eq_sum, silent, Finset.sum_empty]
  intro same
  exact (Finset.mem_filter.mp stored).2 (congrFun same _).symm

/-- **Corruption is detected.** A record that differs from an accepted one in at most two
bits, in a burst inside the bytes before, of or after the checksum, or in the commit marker is
rejected. -/
theorem corruption_detected {config : DeviceConfig} {generation : UInt32}
    (accepted : decode record = .ok (config, generation)) (differ : other ≠ record)
    (damage : (differingBits record other).card ≤ 2 ∨
      (BurstInside record other 0 16 ∨ BurstInside record other 16 20 ∨
        BurstInside record other 20 252) ∨
      ∃ (index : ℕ) (inside : index < 256), 252 ≤ index ∧ record[index] ≠ other[index]) :
    ∃ error, decode other = .error error := by
  cases decoded : decode other with
  | error error => exact ⟨error, rfl⟩
  | ok stored =>
      exfalso
      obtain ⟨otherConfig, otherGeneration⟩ := stored
      have stores := decode_eq_ok_iff.mp accepted
      have otherStores := decode_eq_ok_iff.mp decoded
      have marked : ∀ position ∈ differingBits record other, position < 2016 := by
        intro position member
        obtain ⟨inside, differs⟩ := mem_differingBits.mp member
        by_contra late
        have byte : position / 8 < 256 := by omega
        have inRecord : position / 8 < recordLen := byte
        have same := getElem_eq_of_committed stores.committed otherStores.committed byte (by omega)
        apply differs
        rw [recordBit, recordBit, Vector.getElem?_eq_getElem inRecord,
          Vector.getElem?_eq_getElem inRecord]
        exact congrArg (fun byte => byteBit byte (position % 8)) same
      have same := syndrome_eq_storedError stores.checksum otherStores.checksum
      rcases damage with few | (⟨start, burst⟩ | ⟨start, burst⟩ | ⟨start, burst⟩) |
        ⟨index, inside, last, differs⟩
      · have positive := Finset.card_pos.mpr (differingBits_nonempty differ.symm)
        rw [card_differingBits marked] at few positive
        exact syndrome_ne_of_few crcTaps_fed crcTaps_aperiodic few positive same
      · refine burst_detected differ.symm (fun position member => (burst position member).1) ?_ same
        intro position member
        have region := (burst position member).2
        omega
      · refine checksum_detected differ.symm ?_ same
        intro position member
        have region := (burst position member).2
        omega
      · refine burst_detected differ.symm (fun position member => (burst position member).1) ?_ same
        intro position member
        have region := (burst position member).2
        omega
      · exact differs (getElem_eq_of_committed stores.committed otherStores.committed inside last)

end Accepted

/-! ## Damage to one byte -/

section Byte

variable {record : Record} {index : ℕ} {value : UInt8}

/-- A byte that changes changes the record. -/
theorem set_ne_self (inside : index < recordLen) (changed : record[index] ≠ value) :
    record.set index value ≠ record := by
  intro same
  have read := congrArg (fun record : Record => record[index]) same
  rw [Vector.getElem_set_self] at read
  exact changed read.symm

/-- Flipping some bits of a byte changes it. -/
theorem ne_xor_self (byte : UInt8) {mask : UInt8} (some_ : mask ≠ 0) : byte ≠ byte ^^^ mask := by
  intro same
  have undone := congrArg (byte ^^^ ·) same
  rw [← UInt8.xor_assoc, UInt8.xor_self, UInt8.zero_xor] at undone
  exact some_ undone.symm

/-- The differing bits are those of the byte. -/
theorem mem_differingBits_set (inside : index < recordLen) {position : ℕ}
    (member : position ∈ differingBits record (record.set index value)) :
    position / 8 = index ∧ byteBit record[index] (position % 8) ≠ byteBit value (position % 8) := by
  obtain ⟨_, differs⟩ := mem_differingBits.mp member
  by_cases here : position / 8 = index
  · subst here
    rw [recordBit, recordBit, Vector.getElem?_set_self,
      Vector.getElem?_eq_getElem inside] at differs
    exact ⟨rfl, differs⟩
  · rw [recordBit, recordBit, Vector.getElem?_set_ne inside (Ne.symm here)] at differs
    exact (differs rfl).elim

/-- The damage of one byte is a burst in every range that the byte is in. -/
theorem burstInside_set (inside : index < recordLen) {first last : ℕ} (low : first ≤ index)
    (high : index < last) : BurstInside record (record.set index value) first last := by
  refine ⟨8 * index, fun position member => ?_⟩
  obtain ⟨rfl, _⟩ := mem_differingBits_set inside member
  omega

/-- Flipping the two lowest bits of a byte flips at most two bits. -/
theorem card_differingBits_flip_le_two (inside : index < recordLen) :
    (differingBits record (record.set index (record[index] ^^^ 3))).card ≤ 2 := by
  have two : differingBits record (record.set index (record[index] ^^^ 3)) ⊆
      {8 * index, 8 * index + 1} := by
    intro position member
    obtain ⟨rfl, differs⟩ := mem_differingBits_set inside member
    have low : position % 8 < 2 := by
      by_contra high
      have kept : Nat.testBit 3 (position % 8) = false :=
        Nat.testBit_lt_two_pow (Nat.lt_of_lt_of_le (by decide : 3 < 2 ^ 2)
          (Nat.pow_le_pow_right (by decide) (not_lt.mp high)))
      apply differs
      rw [byteBit, byteBit, UInt8.toNat_xor, Nat.testBit_xor, UInt8.toNat_ofNat, kept,
        Bool.xor_false]
    rw [Finset.mem_insert, Finset.mem_singleton]
    omega
  exact (Finset.card_le_card two).trans Finset.card_le_two

end Byte

/-- The open network's record with two bits flipped, with a byte inverted and with its last byte
cleared. -/
theorem corruption_detected_first :
    (∃ error, decode ((encode openNetwork 7).set 200 ((encode openNetwork 7)[200] ^^^ 3)
      (by decide)) = .error error) ∧
    (∃ error, decode ((encode openNetwork 7).set 100 ((encode openNetwork 7)[100] ^^^ 0xff)
      (by decide)) = .error error) ∧
    ∃ error, decode ((encode openNetwork 7).set 255 0 (by decide)) = .error error := by
  have accepted := decode_encode openNetwork 7 openNetwork_valid
  have marker := (stores_encode openNetwork 7 openNetwork_valid).committed
  have read := getElem?_field (encode openNetwork 7) commitOffset (by decide : 3 < 4)
  rw [marker] at read
  have last : (encode openNetwork 7)[255] = 75 := (Vector.getElem_of_getElem? read.symm).2
  generalize encode openNetwork 7 = record at *
  refine ⟨corruption_detected accepted (set_ne_self _ (ne_xor_self _ (by decide)))
      (Or.inl (card_differingBits_flip_le_two _)),
    corruption_detected accepted (set_ne_self _ (ne_xor_self _ (by decide)))
      (Or.inr (Or.inl (Or.inr (Or.inr (burstInside_set _ (by decide) (by decide)))))),
    corruption_detected accepted (set_ne_self _ ?_)
      (Or.inr (Or.inr ⟨255, by decide, by decide, ?_⟩))⟩
  · rw [last]
    decide
  · intro same
    exact absurd ((last.symm.trans same).trans (Vector.getElem_set_self _)) (by decide)

end LaptopCooler.Firmware
