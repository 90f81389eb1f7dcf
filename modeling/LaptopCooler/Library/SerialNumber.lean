import Mathlib.Data.BitVec
import Mathlib.Tactic.Push

/-! # Serial numbers

A counter of fixed width that wraps around has no linear order. The serial
comparison calls a candidate newer than the current value when it lies in the
half of the circle ahead of it (`SerialNumber.Newer`). The comparison is not
transitive over the whole circle, but inside a window of half the circle it is
the order of the offsets from the start of the window
(`SerialNumber.newer_iff_offset_lt`). Consequently a left-to-right scan that
keeps the newer of two entries ends at the entry of greatest offset, in whatever
order the entries are visited (`SerialNumber.foldl_keepNewer_greatest`).
-/

namespace SerialNumber

variable {w : ℕ}

/-- The candidate differs from the current value and lies at most half the
circle ahead of it. -/
def Newer (candidate current : BitVec w) : Prop :=
  candidate ≠ current ∧ (candidate - current).toNat < 2 ^ (w - 1)

instance (candidate current : BitVec w) : Decidable (Newer candidate current) :=
  inferInstanceAs (Decidable (_ ∧ _))

/-- How far a serial number lies ahead of a base, going around the circle. -/
def offset (base serial : BitVec w) : ℕ := (serial - base).toNat

/-- The serial number lies in the half circle that starts at the base. -/
def InWindow (base serial : BitVec w) : Prop := offset base serial < 2 ^ (w - 1)

theorem offset_lt (base serial : BitVec w) : offset base serial < 2 ^ w := (serial - base).isLt

/-- Serial numbers are determined by their offsets. -/
theorem offset_inj {base left right : BitVec w} :
    offset base left = offset base right ↔ left = right := by
  constructor
  · intro same
    have equal : left - base = right - base := BitVec.eq_of_toNat_eq same
    have restored := congrArg (· + base) equal
    simpa [BitVec.sub_add_cancel] using restored
  · rintro rfl
    rfl

theorem offset_add_ofNat (base : BitVec w) (count : ℕ) :
    offset base (base + BitVec.ofNat w count) = count % 2 ^ w := by
  have cancelled : base + BitVec.ofNat w count - base = BitVec.ofNat w count := by
    rw [BitVec.add_comm, BitVec.add_sub_cancel]
  rw [offset, cancelled, BitVec.toNat_ofNat]

theorem offset_add_ofNat_of_lt (base : BitVec w) {count : ℕ} (small : count < 2 ^ w) :
    offset base (base + BitVec.ofNat w count) = count := by
  rw [offset_add_ofNat, Nat.mod_eq_of_lt small]

/-- The distance between two serial numbers in terms of their offsets. -/
theorem sub_toNat_eq (base candidate current : BitVec w) :
    (candidate - current).toNat =
      (2 ^ w - offset base current + offset base candidate) % 2 ^ w := by
  have rebased : candidate - current = (candidate - base) - (current - base) := by
    simp only [BitVec.sub_eq_add_neg, BitVec.neg_add, BitVec.neg_neg]
    rw [BitVec.add_assoc, ← BitVec.add_assoc (-base), BitVec.add_comm (-base), BitVec.add_assoc,
      BitVec.add_left_neg, BitVec.add_zero]
  rw [rebased, BitVec.toNat_sub]
  rfl

/-- **Serial order in a window.** Inside a half circle the serial comparison is
the order of the offsets from its start. -/
theorem newer_iff_offset_lt (base : BitVec w) {candidate current : BitVec w}
    (candidateInside : InWindow base candidate) (currentInside : InWindow base current) :
    Newer candidate current ↔ offset base current < offset base candidate := by
  have distinct : candidate ≠ current ↔ offset base candidate ≠ offset base current :=
    not_congr offset_inj.symm
  have candidateBound := offset_lt base candidate
  have currentBound := offset_lt base current
  unfold InWindow at candidateInside currentInside
  rw [Newer, distinct, sub_toNat_eq base]
  generalize offset base candidate = c at *
  generalize offset base current = r at *
  rcases Nat.eq_zero_or_pos w with rfl | positive
  · simp only [Nat.pow_zero, Nat.lt_one_iff] at candidateBound currentBound
    omega
  · have halves : 2 ^ w = 2 * 2 ^ (w - 1) := by
      rw [← Nat.pow_succ', Nat.succ_eq_add_one, Nat.sub_add_cancel positive]
    rw [halves] at *
    generalize 2 ^ (w - 1) = half at *
    rcases Nat.lt_trichotomy r c with below | equal | above
    · have reduced : (2 * half - r + c) % (2 * half) = c - r := by
        rw [show 2 * half - r + c = (c - r) + 2 * half by omega, Nat.add_mod_right,
          Nat.mod_eq_of_lt (by omega)]
      rw [reduced]
      omega
    · omega
    · rw [Nat.mod_eq_of_lt (by omega)]
      omega

/-- Counting on from a base, the serial comparison is the order of the counts,
as long as both stay within half the circle. -/
theorem newer_add_ofNat_iff (base : BitVec w) {candidate current : ℕ}
    (candidateSmall : candidate < 2 ^ (w - 1)) (currentSmall : current < 2 ^ (w - 1)) :
    Newer (base + BitVec.ofNat w candidate) (base + BitVec.ofNat w current) ↔
      current < candidate := by
  have le : 2 ^ (w - 1) ≤ 2 ^ w := Nat.pow_le_pow_right (by decide) (Nat.sub_le w 1)
  have candidateOffset := offset_add_ofNat_of_lt base (Nat.lt_of_lt_of_le candidateSmall le)
  have currentOffset := offset_add_ofNat_of_lt base (Nat.lt_of_lt_of_le currentSmall le)
  rw [newer_iff_offset_lt base, candidateOffset, currentOffset]
  · rw [InWindow, candidateOffset]
    exact candidateSmall
  · rw [InWindow, currentOffset]
    exact currentSmall

/-- The successor is newer, whatever the value it wraps from. -/
theorem newer_add_one (wide : 2 ≤ w) (serial : BitVec w) : Newer (serial + 1) serial := by
  have large : 1 < 2 ^ (w - 1) := Nat.one_lt_two_pow (by omega)
  have successor : Newer (serial + BitVec.ofNat w 1) (serial + BitVec.ofNat w 0) :=
    (newer_add_ofNat_iff serial large (by omega)).mpr Nat.zero_lt_one
  simpa using successor

/-! ## Scanning for the newest entry -/

section Scan

variable {ε : Type*} (serial : ε → BitVec w)

/-- One step of the scan: replace the entry held so far by a newer one. -/
def keepNewer (held : Option ε) (entry : ε) : Option ε :=
  match held with
  | none => some entry
  | some current => if Newer (serial entry) (serial current) then some entry else some current

variable {serial} {base : BitVec w}

private theorem foldl_keepNewer_some (entries : List ε) (held : ε)
    (heldInside : InWindow base (serial held))
    (inside : ∀ entry ∈ entries, InWindow base (serial entry)) :
    ∃ last, entries.foldl (keepNewer serial) (some held) = some last ∧
      (last = held ∨ last ∈ entries) ∧
      offset base (serial held) ≤ offset base (serial last) ∧
      ∀ entry ∈ entries, offset base (serial entry) ≤ offset base (serial last) := by
  induction entries generalizing held with
  | nil => exact ⟨held, rfl, Or.inl rfl, le_rfl, by simp⟩
  | cons entry rest ih =>
      have entryInside := inside entry List.mem_cons_self
      have restInside : ∀ other ∈ rest, InWindow base (serial other) :=
        fun other member => inside other (List.mem_cons_of_mem entry member)
      have compared := newer_iff_offset_lt base entryInside heldInside
      by_cases newer : Newer (serial entry) (serial held)
      · obtain ⟨last, folded, origin, above, greatest⟩ := ih entry entryInside restInside
        have ahead := compared.mp newer
        refine ⟨last, ?_, ?_, by omega, ?_⟩
        · simpa only [List.foldl_cons, keepNewer, newer, ↓reduceIte] using folded
        · rcases origin with rfl | member
          · exact Or.inr List.mem_cons_self
          · exact Or.inr (List.mem_cons_of_mem entry member)
        · intro other member
          rcases List.mem_cons.mp member with rfl | member
          · exact above
          · exact greatest other member
      · obtain ⟨last, folded, origin, above, greatest⟩ := ih held heldInside restInside
        have behind : offset base (serial entry) ≤ offset base (serial held) := by
          by_contra ahead
          exact newer (compared.mpr (by omega))
        refine ⟨last, ?_, ?_, above, ?_⟩
        · simpa only [List.foldl_cons, keepNewer, newer, ↓reduceIte] using folded
        · exact origin.imp_right (List.mem_cons_of_mem entry)
        · intro other member
          rcases List.mem_cons.mp member with rfl | member
          · omega
          · exact greatest other member

/-- **The scan finds the newest entry.** Over entries whose serial numbers share
a window, the scan returns nothing exactly on the empty list, and otherwise an
entry whose offset no other entry exceeds. -/
theorem foldl_keepNewer_greatest (entries : List ε)
    (inside : ∀ entry ∈ entries, InWindow base (serial entry)) :
    (entries = [] ∧ entries.foldl (keepNewer serial) none = none) ∨
      ∃ last ∈ entries, entries.foldl (keepNewer serial) none = some last ∧
        ∀ entry ∈ entries, offset base (serial entry) ≤ offset base (serial last) := by
  cases entries with
  | nil => exact Or.inl ⟨rfl, rfl⟩
  | cons first rest =>
      obtain ⟨last, folded, origin, above, greatest⟩ :=
        foldl_keepNewer_some rest first (inside first List.mem_cons_self)
          (fun entry member => inside entry (List.mem_cons_of_mem first member))
      refine Or.inr ⟨last, ?_, folded, ?_⟩
      · rcases origin with rfl | member
        · exact List.mem_cons_self
        · exact List.mem_cons_of_mem first member
      · intro entry member
        rcases List.mem_cons.mp member with rfl | member
        · exact above
        · exact greatest entry member

end Scan

end SerialNumber
