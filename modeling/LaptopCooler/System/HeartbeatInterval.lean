import LaptopCooler.System.AgentRun

/-! # Heartbeats and the cooldown

The agent sleeps its whole interval after the work of each turn, so packets arrive
the interval and up to a second apart. An admitted interval keeps the fan running
between any two heartbeats exactly when it leaves this second below the cooldown
(`LaptopCooler.System.keepsFanRunning_iff`). The longest admitted intervals do not
(`LaptopCooler.System.slowest_heartbeat_stops_fan`).
-/

namespace LaptopCooler.System

open Firmware HostAgent EventRun

/-- A healthy run: the packets arrive in order, each gap being the interval and at most a
second of work and jitter, among polls at any times. -/
structure Heartbeats (token : String) (intervalMillis : ℕ) (events : List TimedEvent)
    (deliveries : List Delivery) : Prop where
  ordered : events.Pairwise fun first second => first.millis ≤ second.millis
  brings : Brings events deliveries
  inOrder : ∃ first, InOrder token first deliveries
  spaced : ∀ index before after, deliveries[index]? = some before →
    deliveries[index + 1]? = some after →
    before.millis + intervalMillis ≤ after.millis ∧
      after.millis ≤ before.millis + intervalMillis + 1000

/-- Whatever the firmware has seen before, every poll from the first accepted heartbeat up to
the last one finds the fan running. -/
def KeepsFanRunning (token : String) (intervalMillis : ℕ) : Prop :=
  ∀ earlier events deliveries, Heartbeats token intervalMillis events deliveries →
    ∀ index millis, events[index]? = some ⟨millis, .poll⟩ →
      let answers := outputs (controlStep token) (final (controlStep token) .new earlier) events
      (∃ command, .ok command ∈ resultsOf (answers.take index)) →
      packetsOf (events.drop index) ≠ [] →
      ∃ percent, answers[index]? = some (.duty percent) ∧ 20 ≤ percent

theorem keepsFanRunning_of_le (token : String) {intervalMillis : ℕ}
    (short : intervalMillis ≤ 59000) : KeepsFanRunning token intervalMillis := by
  intro earlier events deliveries healthy index millis polled answers accepted packetAfter
  obtain ⟨before, last, next, after, rfl, notAfter, ⟨position, acceptedAt⟩, answer⟩ :=
    poll_between healthy.brings healthy.ordered polled accepted packetAfter
  refine ⟨_, answer, ?_⟩
  obtain ⟨first, run⟩ := healthy.inOrder
  have initial : InOrder token first (before ++ [last]) := by
    have split : before ++ last :: next :: after = (before ++ [last]) ++ next :: after := by simp
    rw [split] at run
    refine ⟨fun delivery member => run.authentic delivery (List.mem_append_left _ member), ?_⟩
    intro position delivery here
    exact run.numbered position delivery
      ((List.getElem?_append_left (List.getElem?_eq_some_iff.mp here).1).trans here)
  obtain ⟨command, here⟩ := acceptedAt
  have inside : position < before.length + 1 := by
    simpa using (List.getElem?_eq_some_iff.mp here).1
  have driven := driven_of_accepted initial.authentic
    (initial.accepted_from ⟨command, here⟩ (Nat.lt_succ_iff.mp inside) (by simp))
  have gap := (healthy.spaced before.length last next (by simp) (by simp)).2
  exact driven.minDuty_le (notAfter.trans (gap.trans_eq (Nat.add_assoc _ _ _)))
    (show 0 + (intervalMillis + 1000) ≤ 60000 by omega)

theorem not_keepsFanRunning_of_lt {token : String} (shaped : WellFormedToken token)
    {intervalMillis : ℕ} (long : 59000 < intervalMillis) :
    ¬ KeepsFanRunning token intervalMillis := by
  intro keeps
  let first := heartbeat token (sequenceAfter 0 0) 0
  let second := heartbeat token (sequenceAfter 0 1) (intervalMillis + 1000)
  have authentic : Authentic token [first, second] := by
    intro delivery member
    rcases List.mem_pair.mp member with rfl | rfl <;> exact heartbeat_carries shaped _ _
  have healthy : Heartbeats token intervalMillis
      [⟨0, .packet first.bytes⟩, ⟨60001, .poll⟩, ⟨intervalMillis + 1000, .packet second.bytes⟩]
      [first, second] := by
    refine ⟨by simp; omega, rfl, ⟨0, authentic, ?_⟩, ?_⟩
    · rintro (_ | _ | index) delivery here
      · exact Option.some.inj here ▸ rfl
      · exact Option.some.inj here ▸ rfl
      · simp at here
    · rintro (_ | index) before after here there
      · obtain rfl := Option.some.inj here
        obtain rfl := Option.some.inj there
        simp only [first, second, heartbeat]
        omega
      · simp at there
  have accepted : HostState.new.accept token first.bytes 0 =
      (.ok first.command, .remembering first.command 0) :=
    HostState.new.accept_of_carries 0 (heartbeat_carries shaped _ 0)
  obtain ⟨percent, answer, running⟩ := keeps [] _ _ healthy 1 60001 rfl
    ⟨first.command, by simp [controlStep, accepted, resultsOf]⟩ (by simp [packetsOf])
  simp only [controlStep, final_nil, outputs_cons, accepted, List.getElem?_cons_succ,
    List.getElem?_cons_zero, Option.some.injEq, ControlAnswer.duty.injEq] at answer
  rw [HostState.dutyPercent_remembering, if_pos (by decide)] at answer
  subst answer
  exact absurd running (by decide)

/-- **Which intervals keep the fan running.** A healthy agent with accepted settings keeps the
fan running between its heartbeats exactly when its interval is at most 59 seconds. -/
theorem keepsFanRunning_iff {SocketAddr : Type} {readers : ValueReaders SocketAddr}
    {contents : String} {config : AgentConfig SocketAddr}
    (configured : parseConfig readers contents = .ok config) :
    KeepsFanRunning config.token config.interval.asMillis ↔ config.interval.asMillis ≤ 59000 := by
  constructor
  · intro keeps
    by_contra long
    exact not_keepsFanRunning_of_lt (parseConfig_admitted configured).token (not_le.mp long) keeps
  · exact keepsFanRunning_of_le config.token

/-- The default interval keeps the fan running. -/
theorem default_heartbeat_keeps_fan_running : KeepsFanRunning "abcdefghijklmnop" 1000 :=
  (keepsFanRunning_iff parseConfig_minimal).mpr (by decide)

/-- The longest interval is accepted, and a poll between two of its heartbeats can find the fan
stopped. -/
theorem slowest_heartbeat_stops_fan :
    parseConfig sampleReaders "token=abcdefghijklmnop\ninterval_ms=60000\n" =
      .ok (sampleConfig 60000) ∧
    ¬ KeepsFanRunning (sampleConfig 60000).token (sampleConfig 60000).interval.asMillis :=
  ⟨parseConfig_slowest, not_keepsFanRunning_of_lt (parseConfig_admitted parseConfig_slowest).token
    (by decide)⟩

end LaptopCooler.System
