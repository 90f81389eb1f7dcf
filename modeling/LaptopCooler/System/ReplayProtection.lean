import LaptopCooler.System.AgentRun

/-! # Late copies and the sequence epoch

The network may deliver late copies of packets between two heartbeats. The firmware
orders packets only within five seconds of the last accepted one, so an admitted
interval keeps every late copy out exactly when it is not longer than that
(`LaptopCooler.System.replayProtected_iff`).
-/

namespace LaptopCooler.System

open Firmware HostAgent EventRun

/-- A packet with the command it carries. -/
structure Packet where
  bytes : List UInt8
  command : ControlCommand

/-- The arrival of the agent's packet with the given number: its original, or a late copy. -/
structure Arrival where
  millis : ℕ
  packet : ℕ
  late : Bool

/-- The arrivals still to come of a run of `count` packets, after the originals below
`delivered` and up to the time `clock`. The originals arrive spaced by the interval; between
the first and the last of them late copies of delivered packets arrive at any times. -/
inductive Replay (count start intervalMillis : ℕ) : ℕ → ℕ → List Arrival → Prop where
  | done {clock : ℕ} : Replay count start intervalMillis count clock []
  | original {delivered clock : ℕ} {rest : List Arrival} :
      delivered < count → clock ≤ start + delivered * intervalMillis →
        Replay count start intervalMillis (delivered + 1) (start + delivered * intervalMillis)
            rest →
          Replay count start intervalMillis delivered clock
            (⟨start + delivered * intervalMillis, delivered, false⟩ :: rest)
  | copy {delivered clock packet millis : ℕ} {rest : List Arrival} :
      packet < delivered → delivered < count → clock ≤ millis →
        millis ≤ start + delivered * intervalMillis →
          Replay count start intervalMillis delivered millis rest →
            Replay count start intervalMillis delivered clock (⟨millis, packet, true⟩ :: rest)

/-- What arrives, given the packets the agent sent. -/
def Arrival.delivery (sent : ℕ → Packet) (arrival : Arrival) : Delivery :=
  ⟨arrival.millis, (sent arrival.packet).bytes, (sent arrival.packet).command⟩

theorem Arrival.deliver_eq {token : String} {sent : ℕ → Packet} (arrival : Arrival)
    (carries : Carries token (sent arrival.packet).bytes (sent arrival.packet).command)
    (state : HostState) :
    deliver token state (arrival.delivery sent) =
      if state.admits (sent arrival.packet).command.sequence arrival.millis then
        (.ok (sent arrival.packet).command,
          .remembering (sent arrival.packet).command arrival.millis)
      else (.error .outOfOrder, state) :=
  state.accept_of_carries arrival.millis carries

/-- The results of the arrivals at a firmware in the given state. -/
def arrivalResults (token : String) (sent : ℕ → Packet) (state : HostState)
    (arrivals : List Arrival) : List (Except SampleError ControlCommand) :=
  outputs (deliver token) state (arrivals.map (Arrival.delivery sent))

/-- The packets are authentic and numbered consecutively. -/
def SentInOrder (token : String) (first : UInt32) (sent : ℕ → Packet) (count : ℕ) : Prop :=
  ∀ packet < count, Carries token (sent packet).bytes (sent packet).command ∧
    (sent packet).command.sequence = sequenceAfter first packet

/-- Whenever all originals are accepted, no late copy is. -/
def ReplayProtected (token : String) (first : UInt32) (intervalMillis : ℕ) : Prop :=
  ∀ (sent : ℕ → Packet) (count start : ℕ) (state : HostState) (arrivals : List Arrival),
    count < 2 ^ 31 → SentInOrder token first sent count →
    Replay count start intervalMillis 0 0 arrivals →
    (∀ index arrival, arrivals[index]? = some arrival → arrival.late = false →
      AcceptedAt (arrivalResults token sent state arrivals) index) →
    ∀ index arrival, arrivals[index]? = some arrival → arrival.late = true →
      ¬ AcceptedAt (arrivalResults token sent state arrivals) index

section Short

variable {token : String} {first : UInt32} {sent : ℕ → Packet} {count start intervalMillis : ℕ}

/-- Before the next original is due, a copy of a delivered packet is refused. -/
theorem copy_refused (small : count < 2 ^ 31) (inOrder : SentInOrder token first sent count)
    (short : intervalMillis ≤ 5000) {last packet millis : ℕ} (below : packet ≤ last)
    (inside : last < count) (due : millis ≤ start + (last + 1) * intervalMillis) :
    deliver token (.remembering (sent last).command (start + last * intervalMillis))
        ((⟨millis, packet, true⟩ : Arrival).delivery sent) =
      (.error .outOfOrder,
        .remembering (sent last).command (start + last * intervalMillis)) := by
  obtain ⟨carries, numbered⟩ := inOrder packet (Nat.lt_of_le_of_lt below inside)
  have notStale : ¬ start + last * intervalMillis + sampleTimeoutMillis < millis := by
    rw [Nat.add_mul, Nat.one_mul] at due
    simp only [sampleTimeoutMillis]
    omega
  have notNewer : sequenceIsNewer (sent packet).command.sequence (sent last).command.sequence =
      false := by
    rw [numbered, (inOrder last inside).2, Bool.eq_false_iff, ne_eq,
      sequenceIsNewer_after_iff first (by omega) (by omega)]
    exact Nat.not_lt.mpr below
  have refused : (HostState.remembering (sent last).command
      (start + last * intervalMillis)).admits (sent packet).command.sequence millis = false := by
    rw [HostState.admits_remembering, decide_eq_false notStale, notNewer, Bool.or_false]
  rw [Arrival.deliver_eq _ carries]
  exact if_neg (by simp [refused])

/-- From the state that remembers the last original, no copy is accepted. -/
private theorem copies_refused (small : count < 2 ^ 31)
    (inOrder : SentInOrder token first sent count) (short : intervalMillis ≤ 5000)
    {delivered clock : ℕ} {arrivals : List Arrival}
    (replay : Replay count start intervalMillis delivered clock arrivals) {state : HostState}
    (remembers : ∀ last, delivered = last + 1 →
      state = .remembering (sent last).command (start + last * intervalMillis))
    (originals : ∀ index arrival, arrivals[index]? = some arrival → arrival.late = false →
      AcceptedAt (arrivalResults token sent state arrivals) index) :
    ∀ index arrival, arrivals[index]? = some arrival → arrival.late = true →
      ¬ AcceptedAt (arrivalResults token sent state arrivals) index := by
  induction replay generalizing state with
  | done => simp
  | @original delivered clock rest inside _ _ ih =>
      obtain ⟨carries, _⟩ := inOrder delivered inside
      have accepted := originals 0 _ rfl rfl
      have outcome := Arrival.deliver_eq ⟨start + delivered * intervalMillis, delivered, false⟩
        carries state
      have admitted : state.admits (sent delivered).command.sequence
          (start + delivered * intervalMillis) = true := by
        by_contra refused
        obtain ⟨command, answer⟩ := accepted
        rw [if_neg refused] at outcome
        simp [arrivalResults, outcome] at answer
      rw [if_pos admitted] at outcome
      rintro (_ | index) arrival here late
      · obtain rfl := Option.some.inj here
        cases late
      · refine ih (fun last same => ?_) (fun index arrival here late => ?_) index arrival here late
        · obtain rfl : delivered = last := Nat.succ_injective same
          rw [outcome]
        · exact originals (index + 1) arrival here late
  | @copy delivered clock packet millis rest below inside _ due _ ih =>
      obtain ⟨last, rfl⟩ : ∃ last, delivered = last + 1 := ⟨delivered - 1, by omega⟩
      obtain rfl := remembers last rfl
      have refused := copy_refused small inOrder short (Nat.lt_succ_iff.mp below)
        (Nat.lt_of_succ_lt inside) due
      rintro (_ | index) arrival here late
      · rintro ⟨command, answer⟩
        simp [arrivalResults, refused] at answer
      · refine ih (fun other same => ?_) (fun index arrival here late => ?_) index arrival here late
        · rw [refused]
          exact remembers other same
        · exact originals (index + 1) arrival here late

end Short

theorem replayProtected_of_le (token : String) (first : UInt32) {intervalMillis : ℕ}
    (short : intervalMillis ≤ 5000) : ReplayProtected token first intervalMillis := by
  intro sent count start state arrivals small inOrder replay originals
  exact copies_refused small inOrder short replay (fun last absurd => by cases absurd) originals

theorem not_replayProtected_of_lt {token : String} (shaped : WellFormedToken token)
    (first : UInt32) {intervalMillis : ℕ} (long : 5000 < intervalMillis) :
    ¬ ReplayProtected token first intervalMillis := by
  intro protects
  let sent : ℕ → Packet := fun packet =>
    let delivery := heartbeat token (sequenceAfter first packet) 0
    ⟨delivery.bytes, delivery.command⟩
  have carries : ∀ packet, Carries token (sent packet).bytes (sent packet).command :=
    fun packet => heartbeat_carries shaped _ 0
  have replay : Replay 2 0 intervalMillis 0 0
      [⟨0 + 0 * intervalMillis, 0, false⟩, ⟨5001, 0, true⟩, ⟨0 + 1 * intervalMillis, 1, false⟩] :=
    .original (by decide) (Nat.zero_le _) (.copy (by decide) (by decide) (by omega) (by omega)
      (.original (by decide) (by omega) .done))
  have accepted : ∀ (state : HostState) (arrival : Arrival),
      state.admits (sent arrival.packet).command.sequence arrival.millis = true →
        deliver token state (arrival.delivery sent) = (.ok (sent arrival.packet).command,
          .remembering (sent arrival.packet).command arrival.millis) := by
    intro state arrival admitted
    rw [arrival.deliver_eq (carries arrival.packet), if_pos admitted]
  -- The copy is accepted as the start of a new epoch, and so are both originals.
  have results : arrivalResults token sent .new
      [⟨0 + 0 * intervalMillis, 0, false⟩, ⟨5001, 0, true⟩, ⟨0 + 1 * intervalMillis, 1, false⟩] =
      [.ok (sent 0).command, .ok (sent 0).command, .ok (sent 1).command] := by
    have newer : sequenceIsNewer (sent 1).command.sequence (sent 0).command.sequence = true := by
      change sequenceIsNewer (sequenceAfter first (0 + 1)) (sequenceAfter first 0) = true
      rw [sequenceAfter_succ]
      exact sequenceIsNewer_succ _
    simp only [arrivalResults, List.map_cons, List.map_nil, outputs_cons, outputs_nil]
    rw [accepted .new _ rfl, accepted _ ⟨5001, 0, true⟩ (by simp [sampleTimeoutMillis]),
      accepted _ ⟨0 + 1 * intervalMillis, 1, false⟩ (by simp [newer])]
  refine protects sent 2 0 .new _ (by decide) (fun packet _ => ⟨carries packet, rfl⟩) replay ?_ 1 _
    rfl rfl ?_
  · rw [results]
    rintro (_ | _ | _ | index) arrival here late
    · exact ⟨_, rfl⟩
    · exact ⟨_, rfl⟩
    · exact ⟨_, rfl⟩
    · simp at here
  · rw [results]
    exact ⟨_, rfl⟩

/-- **Which intervals keep replay protection.** With accepted settings, whatever the initial
sequence number, no late copy is ever accepted exactly when the interval is at most five
seconds. -/
theorem replayProtected_iff {SocketAddr : Type} {readers : ValueReaders SocketAddr}
    {contents : String} {config : AgentConfig SocketAddr}
    (configured : parseConfig readers contents = .ok config) (first : UInt32) :
    ReplayProtected config.token first config.interval.asMillis ↔
      config.interval.asMillis ≤ 5000 := by
  constructor
  · intro protects
    by_contra long
    exact not_replayProtected_of_lt (parseConfig_admitted configured).token first (not_le.mp long)
      protects
  · exact replayProtected_of_le config.token first

/-- The default interval keeps replay protection. -/
theorem default_interval_replayProtected : ReplayProtected "abcdefghijklmnop" 4294967295 1000 :=
  (replayProtected_iff parseConfig_minimal 4294967295).mpr (by decide)

/-- The longest interval is accepted, and a late copy can be accepted between two of its
heartbeats. -/
theorem slowest_interval_replayed :
    parseConfig sampleReaders "token=abcdefghijklmnop\ninterval_ms=60000\n" =
      .ok (sampleConfig 60000) ∧
    ¬ ReplayProtected (sampleConfig 60000).token 0 (sampleConfig 60000).interval.asMillis :=
  ⟨parseConfig_slowest, not_replayProtected_of_lt
    (parseConfig_admitted parseConfig_slowest).token 0 (by decide)⟩

end LaptopCooler.System
