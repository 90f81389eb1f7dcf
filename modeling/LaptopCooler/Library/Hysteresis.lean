import Mathlib.Algebra.Order.Group.Abs
import Mathlib.Algebra.Order.Group.Defs
import Mathlib.Tactic.Linarith

/-! # Targets with hysteresis

A target is kept as long as the input stays inside a band around it, and chosen
anew from an input outside. Then the target is never further from the input than
the band or the error of the choice (`Hysteresis.abs_hold_sub_le`), inputs inside
the band leave it alone (`Hysteresis.targets_of_inside`), and behind inputs that
only rise, or only fall, the targets do so as well
(`Hysteresis.targets_ascending`, `Hysteresis.targets_descending`).
-/

namespace Hysteresis

variable {K : Type*} [CommRing K] [LinearOrder K] [IsStrictOrderedRing K]

/-- The input lies inside the band around the target. -/
def Inside (band target input : K) : Prop := target - band < input ∧ input < target + band

instance (band target input : K) : Decidable (Inside band target input) :=
  inferInstanceAs (Decidable (_ ∧ _))

/-- The target after an input. -/
def hold (band : K) (choose : K → K) (target input : K) : K :=
  if Inside band target input then target else choose input

/-- The targets after each of the inputs. -/
def targets (band : K) (choose : K → K) : K → List K → List K
  | _, [] => []
  | target, input :: rest =>
      hold band choose target input :: targets band choose (hold band choose target input) rest

variable {band : K} {choose : K → K} {target input : K} {inputs : List K}

/-- **The target is as close to the input as the band or the choice.** -/
theorem abs_hold_sub_le {tolerance : K} (close : |choose input - input| ≤ tolerance) :
    |hold band choose target input - input| ≤ max band tolerance := by
  unfold hold
  split
  · next inside =>
    refine le_max_of_le_left (abs_le.mpr ⟨?_, ?_⟩)
    · linarith [inside.2]
    · linarith [inside.1]
  · exact le_max_of_le_right close

omit [IsStrictOrderedRing K] in
/-- **Inputs inside the band leave the target alone.** -/
theorem targets_of_inside (inside : ∀ input ∈ inputs, Inside band target input) :
    targets band choose target inputs = inputs.map fun _ => target := by
  induction inputs with
  | nil => rfl
  | cons input rest ih =>
      have kept : hold band choose target input = target :=
        if_pos (inside input List.mem_cons_self)
      rw [targets, kept, ih fun later member => inside later (List.mem_cons_of_mem _ member)]
      rfl

/-! ## Inputs that drift one way -/

section Drift

variable {drift : K → K → Prop} [IsTrans K drift] {domain : Set K}

/-- The target was chosen from an input that the current one has drifted from, or the current
input is inside its band. -/
def Tracks (band : K) (choose : K → K) (drift : K → K → Prop) (domain : Set K)
    (target input : K) : Prop :=
  (∃ earlier ∈ domain, drift earlier input ∧ target = choose earlier) ∨
    (Inside band target input ∧
      ∀ later ∈ domain, drift target later → later ≠ target → drift target (choose later))

variable (reflexive : ∀ value, drift value value)
  (monotone : ∀ first ∈ domain, ∀ second ∈ domain, drift first second →
    drift (choose first) (choose second))
  (leaves : ∀ target input later, Inside band target input → drift input later →
    ¬ Inside band target later → drift target later ∧ later ≠ target)

include reflexive monotone leaves

omit [IsStrictOrderedRing K] in
/-- A drifting input takes the target along. -/
private theorem hold_drift (tracks : Tracks band choose drift domain target input) {later : K}
    (member : later ∈ domain) (moved : drift input later) :
    drift target (hold band choose target later) ∧
      Tracks band choose drift domain (hold band choose target later) later := by
  unfold hold
  split
  · next inside =>
    refine ⟨reflexive target, ?_⟩
    rcases tracks with ⟨earlier, known, drifted, chosen⟩ | ⟨_, settled⟩
    · exact Or.inl ⟨earlier, known, IsTrans.trans _ _ _ drifted moved, chosen⟩
    · exact Or.inr ⟨inside, settled⟩
  · next outside =>
    refine ⟨?_, Or.inl ⟨later, member, reflexive later, rfl⟩⟩
    rcases tracks with ⟨earlier, known, drifted, rfl⟩ | ⟨inside, settled⟩
    · exact monotone earlier known later member (IsTrans.trans _ _ _ drifted moved)
    · obtain ⟨beyond, differ⟩ := leaves target input later inside moved outside
      exact settled later member beyond differ

omit [IsStrictOrderedRing K] in
private theorem targets_drift (tracks : Tracks band choose drift domain target input)
    (members : ∀ later ∈ inputs, later ∈ domain) (drifting : (input :: inputs).Pairwise drift) :
    (target :: targets band choose target inputs).Pairwise drift := by
  induction inputs generalizing target input with
  | nil => exact List.pairwise_singleton _ _
  | cons next rest ih =>
      obtain ⟨moved, drifting⟩ := List.pairwise_cons.mp drifting
      obtain ⟨first, tracks⟩ := hold_drift reflexive monotone leaves tracks
        (members next List.mem_cons_self) (moved next List.mem_cons_self)
      have later := ih tracks (fun other member => members other (List.mem_cons_of_mem _ member))
        drifting
      refine List.pairwise_cons.mpr ⟨?_, later⟩
      intro other member
      rcases List.mem_cons.mp member with rfl | member
      · exact first
      · exact IsTrans.trans _ _ _ first ((List.pairwise_cons.mp later).1 other member)

omit [IsStrictOrderedRing K] in
/-- The targets after the first input drift as the inputs do. -/
private theorem targets_drift_of_settled
    (settled : ∀ later ∈ domain, drift target later → later ≠ target →
      drift target (choose later))
    (members : ∀ input ∈ inputs, input ∈ domain) (drifting : inputs.Pairwise drift) :
    (targets band choose target inputs).Pairwise drift := by
  cases inputs with
  | nil => exact List.Pairwise.nil
  | cons input rest =>
      have tracks : Tracks band choose drift domain (hold band choose target input) input := by
        unfold hold
        split
        · next inside => exact Or.inr ⟨inside, settled⟩
        · exact Or.inl ⟨input, members input List.mem_cons_self, reflexive input, rfl⟩
      exact targets_drift reflexive monotone leaves tracks
        (fun later member => members later (List.mem_cons_of_mem _ member)) drifting

end Drift

variable {domain : Set K}

/-- **Behind inputs that rise, the targets rise,** if a choice from above the first target
is not below it. -/
theorem targets_ascending (monotone : MonotoneOn choose domain)
    (settled : ∀ input ∈ domain, target < input → target ≤ choose input)
    (members : ∀ input ∈ inputs, input ∈ domain) (ascending : inputs.Pairwise (· ≤ ·)) :
    (targets band choose target inputs).Pairwise (· ≤ ·) := by
  refine targets_drift_of_settled (fun _ => le_rfl)
    (fun first member second other order => monotone member other order) ?_
    (fun later member order differ => settled later member (lt_of_le_of_ne order differ.symm))
    members ascending
  intro target input later inside order outside
  have beyond : target + band ≤ later :=
    not_lt.mp fun below => outside ⟨inside.1.trans_le order, below⟩
  constructor
  · linarith [inside.1, inside.2]
  · intro same
    linarith [inside.1, inside.2]

/-- **Behind inputs that fall, the targets fall,** if a choice from below the first target
is not above it. -/
theorem targets_descending (monotone : MonotoneOn choose domain)
    (settled : ∀ input ∈ domain, input < target → choose input ≤ target)
    (members : ∀ input ∈ inputs, input ∈ domain) (descending : inputs.Pairwise (· ≥ ·)) :
    (targets band choose target inputs).Pairwise (· ≥ ·) := by
  refine targets_drift_of_settled (fun _ => le_rfl)
    (fun first member second other order => monotone other member order) ?_
    (fun later member order differ => settled later member (lt_of_le_of_ne order differ))
    members descending
  intro target input later inside order outside
  have beyond : later ≤ target - band :=
    not_lt.mp fun above => outside ⟨above, lt_of_le_of_lt order inside.2⟩
  constructor
  · linarith [inside.1, inside.2]
  · intro same
    linarith [inside.1, inside.2]

end Hysteresis
