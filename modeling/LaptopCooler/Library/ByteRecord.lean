import Mathlib.Data.Nat.Digits.Defs
import Mathlib.Data.Nat.Notation
import Mathlib.Tactic.Common

/-! # Records of bytes

A record is an array of bytes of a fixed length. Its fields are ranges that are
written one after another; a field reads back what was written to it last
(`ByteRecord.field_overwrite_self`, `ByteRecord.field_writeAll`).
Numbers are stored with their low byte first (`ByteRecord.ofLittleEndian_littleEndian`).
-/

namespace ByteRecord

variable {size : ℕ}

/-- The bytes of a range. -/
def field (record : Vector UInt8 size) (start length : ℕ) : List UInt8 :=
  (record.toList.drop start).take length

/-- The bytes of a range, if it lies in the record. -/
def slice? (record : Vector UInt8 size) (start length : ℕ) : Option (List UInt8) :=
  if start + length ≤ size then some (field record start length) else none

/-- Copy bytes into the record. -/
def overwrite (record : Vector UInt8 size) (start : ℕ) (bytes : List UInt8)
    (_fits : start + bytes.length ≤ size) : Vector UInt8 size :=
  Vector.ofFn fun index =>
    if inside : start ≤ index ∧ index - start < bytes.length then bytes[index - start]
    else record[index]

theorem slice?_eq_some {record : Vector UInt8 size} {start length : ℕ}
    (inside : start + length ≤ size) :
    slice? record start length = some (field record start length) :=
  if_pos inside

theorem length_field (record : Vector UInt8 size) {start length : ℕ}
    (inside : start + length ≤ size) : (field record start length).length = length := by
  simp only [field, List.length_take, List.length_drop, Vector.length_toList]
  omega

theorem getElem?_field (record : Vector UInt8 size) (start : ℕ) {length index : ℕ}
    (below : index < length) : (field record start length)[index]? = record[start + index]? := by
  simp [field, below]

/-- A field of one byte is that byte. -/
theorem getElem_of_field {record : Vector UInt8 size} {start : ℕ} {byte : UInt8}
    (inside : start < size) (single : field record start 1 = [byte]) : record[start] = byte := by
  have read := getElem?_field record start Nat.zero_lt_one
  rw [single, Nat.add_zero, Vector.getElem?_eq_getElem inside] at read
  exact (Option.some.inj read).symm

/-- Fields are equal when their bytes are. -/
theorem field_congr {record other : Vector UInt8 size} {start length : ℕ}
    (same : ∀ index (inside : index < size), start ≤ index → index < start + length →
      record[index] = other[index]) :
    field record start length = field other start length := by
  apply List.ext_getElem
  · simp [field]
  · intro index inside _
    simp only [field, List.length_take, List.length_drop, Vector.length_toList] at inside
    simp only [field, List.getElem_take, List.getElem_drop, Vector.getElem_toList]
    exact same (start + index) (by omega) (Nat.le_add_right _ _) (by omega)

section Overwrite

variable {record : Vector UInt8 size} {start : ℕ} {bytes : List UInt8}
  (fits : start + bytes.length ≤ size)

theorem getElem_overwrite_inside {index : ℕ} (below : index < bytes.length) :
    (overwrite record start bytes fits)[start + index] = bytes[index] := by
  simp [overwrite, below]

theorem getElem_overwrite_outside {index : ℕ} (inside : index < size)
    (outside : index < start ∨ start + bytes.length ≤ index) :
    (overwrite record start bytes fits)[index] = record[index] := by
  have : ¬ (start ≤ index ∧ index - start < bytes.length) := by omega
  simp [overwrite, this]

/-- **A field reads back what was written.** -/
theorem field_overwrite_self : field (overwrite record start bytes fits) start bytes.length =
    bytes := by
  apply List.ext_getElem?
  intro index
  by_cases below : index < bytes.length
  · have inside : start + index < size := by omega
    rw [getElem?_field _ _ below, Vector.getElem?_eq_getElem inside,
      getElem_overwrite_inside fits below, List.getElem?_eq_getElem below]
  · have length := length_field (overwrite record start bytes fits) fits
    rw [List.getElem?_eq_none (by omega), List.getElem?_eq_none (by omega)]

/-- A field is left alone by writes elsewhere. -/
theorem field_overwrite_disjoint {other length : ℕ}
    (disjoint : other + length ≤ start ∨ start + bytes.length ≤ other) :
    field (overwrite record start bytes fits) other length = field record other length := by
  apply field_congr
  intro index inside above below
  exact getElem_overwrite_outside fits inside (by omega)

end Overwrite

/-! ## Layouts -/

/-- Bytes for a range of the record. -/
structure Write (size : ℕ) where
  start : ℕ
  bytes : List UInt8
  fits : start + bytes.length ≤ size

/-- Write the ranges one after another. -/
def writeAll (record : Vector UInt8 size) (writes : List (Write size)) : Vector UInt8 size :=
  writes.foldl (fun record write => overwrite record write.start write.bytes write.fits) record

/-- Ranges that follow one another leave a field before them alone. -/
theorem field_writeAll_before {record : Vector UInt8 size} {writes : List (Write size)}
    {start length : ℕ} (before : ∀ write ∈ writes, start + length ≤ write.start) :
    field (writeAll record writes) start length = field record start length := by
  induction writes generalizing record with
  | nil => rfl
  | cons write rest ih =>
      have disjoint := before write List.mem_cons_self
      exact (ih fun other member => before other (List.mem_cons_of_mem write member)).trans
        (field_overwrite_disjoint write.fits (Or.inl disjoint))

/-- **Every range of a layout reads back.** -/
theorem field_writeAll {record : Vector UInt8 size} {writes : List (Write size)}
    (ordered : writes.Pairwise fun write later => write.start + write.bytes.length ≤ later.start)
    {write : Write size} (member : write ∈ writes) :
    field (writeAll record writes) write.start write.bytes.length = write.bytes := by
  induction writes generalizing record with
  | nil => exact (List.not_mem_nil member).elim
  | cons first rest ih =>
      obtain ⟨after, ordered⟩ := List.pairwise_cons.mp ordered
      rcases List.mem_cons.mp member with rfl | member
      · exact (field_writeAll_before after).trans (field_overwrite_self write.fits)
      · exact ih ordered member

/-! ## Numbers -/

/-- The low bytes of a number, lowest first. -/
def littleEndian : ℕ → ℕ → List UInt8
  | 0, _ => []
  | count + 1, value => UInt8.ofNat value :: littleEndian count (value / 256)

/-- The number with the given bytes, lowest first. -/
def ofLittleEndian (bytes : List UInt8) : ℕ := Nat.ofDigits 256 (bytes.map UInt8.toNat)

@[simp] theorem length_littleEndian (count value : ℕ) :
    (littleEndian count value).length = count := by
  induction count generalizing value with
  | zero => rfl
  | succ count ih => rw [littleEndian, List.length_cons, ih]

/-- **A stored number reads back.** -/
theorem ofLittleEndian_littleEndian {count value : ℕ} (small : value < 256 ^ count) :
    ofLittleEndian (littleEndian count value) = value := by
  induction count generalizing value with
  | zero =>
      rw [pow_zero, Nat.lt_one_iff] at small
      subst small
      rfl
  | succ count ih =>
      have rest : value / 256 < 256 ^ count := by
        rw [Nat.div_lt_iff_lt_mul (by decide)]
        rwa [pow_succ] at small
      have low : (UInt8.ofNat value).toNat = value % 256 := UInt8.toNat_ofNat'
      have digits : ofLittleEndian (littleEndian (count + 1) value) =
          (UInt8.ofNat value).toNat + 256 * ofLittleEndian (littleEndian count (value / 256)) := rfl
      rw [digits, ih rest, low, Nat.mod_add_div]

theorem ofLittleEndian_lt (bytes : List UInt8) : ofLittleEndian bytes < 256 ^ bytes.length := by
  have digits : ∀ digit ∈ bytes.map UInt8.toNat, digit < 256 := by
    intro digit member
    obtain ⟨byte, _, rfl⟩ := List.mem_map.mp member
    exact byte.toNat_lt
  have bound := Nat.ofDigits_lt_base_pow_length (by decide) digits
  rwa [List.length_map] at bound

/-- The bits of a stored number are those of its bytes. -/
theorem testBit_ofLittleEndian (bytes : List UInt8) (position : ℕ) :
    (ofLittleEndian bytes).testBit position =
      (bytes[position / 8]?.getD 0).toNat.testBit (position % 8) := by
  induction bytes generalizing position with
  | nil => simp [ofLittleEndian]
  | cons byte rest ih =>
      have digits : ofLittleEndian (byte :: rest) = 2 ^ 8 * ofLittleEndian rest + byte.toNat :=
        Nat.add_comm _ _
      rw [digits, Nat.testBit_two_pow_mul_add _ byte.toNat_lt]
      by_cases low : position < 8
      · rw [if_pos low, Nat.div_eq_of_lt low, Nat.mod_eq_of_lt low]
        rfl
      · have next : position / 8 = (position - 8) / 8 + 1 := by omega
        have same : position % 8 = (position - 8) % 8 := by omega
        rw [if_neg low, ih, next, same, List.getElem?_cons_succ]

end ByteRecord
