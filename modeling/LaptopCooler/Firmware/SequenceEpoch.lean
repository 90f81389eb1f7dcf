import LaptopCooler.Firmware.Control
import LaptopCooler.Library.EventRun

/-! # Ordering within a sequence epoch

As long as packets keep being accepted within the sample timeout, the firmware
orders them by sequence number. Over any stretch of deliveries whose numbers
stay within 2^31 consecutive values it then accepts a packet exactly when its
number is ahead of every number delivered before
(`LaptopCooler.Firmware.accepted_iff_ahead_of_all_before`): the remembered
number is the greatest one delivered, although the comparison that maintains it
is not transitive over all 32-bit numbers.
-/

namespace LaptopCooler.Firmware

open EventRun

/-- A packet that reaches the firmware, with the command it carries. -/
structure Delivery where
  millis : ℕ
  bytes : List UInt8
  command : ControlCommand

/-- One delivery at a firmware that holds the given token. -/
def deliver (token : String) (state : HostState) (delivery : Delivery) :
    Except SampleError ControlCommand × HostState :=
  state.accept token delivery.bytes delivery.millis

/-- The delivery with the given index is accepted. -/
def AcceptedAt (results : List (Except SampleError ControlCommand)) (index : ℕ) : Prop :=
  ∃ command, results[index]? = some (.ok command)

/-- Every delivery carries its command under the token. -/
def Authentic (token : String) (deliveries : List Delivery) : Prop :=
  ∀ delivery ∈ deliveries, Carries token delivery.bytes delivery.command

theorem deliver_of_carries {token : String} {delivery : Delivery} (state : HostState)
    (carries : Carries token delivery.bytes delivery.command) :
    deliver token state delivery =
      if state.admits delivery.command.sequence delivery.millis then
        (.ok delivery.command, .remembering delivery.command delivery.millis)
      else (.error .outOfOrder, state) :=
  state.accept_of_carries delivery.millis carries

section Stretch

variable {token : String} {start : HostState} {stretch : List Delivery} {base : UInt32}

/-- The state before a delivery of the stretch. -/
private abbrev before (token : String) (start : HostState) (stretch : List Delivery) (index : ℕ) :
    HostState :=
  final (deliver token) start (stretch.take index)

/-- A delivery is accepted exactly when the state before it admits its number. -/
theorem acceptedAt_iff (authentic : Authentic token stretch) {index : ℕ} {delivery : Delivery}
    (here : stretch[index]? = some delivery) :
    AcceptedAt (outputs (deliver token) start stretch) index ↔
      (final (deliver token) start (stretch.take index)).admits delivery.command.sequence
        delivery.millis = true := by
  have carries := authentic delivery (List.mem_of_getElem? here)
  rw [AcceptedAt, outputs_getElem?, here, Option.map_some, deliver_of_carries _ carries]
  split <;> simp_all

/-- An accepted delivery is remembered. -/
theorem final_of_acceptedAt (authentic : Authentic token stretch) {index : ℕ} {delivery : Delivery}
    (here : stretch[index]? = some delivery)
    (accepted : AcceptedAt (outputs (deliver token) start stretch) index) :
    final (deliver token) start (stretch.take (index + 1)) =
      .remembering delivery.command delivery.millis := by
  have carries := authentic delivery (List.mem_of_getElem? here)
  rw [final_take_succ (deliver token) start here, deliver_of_carries _ carries,
    if_pos ((acceptedAt_iff authentic here).mp accepted)]

/-- The invariant of a stretch before the delivery with the given index: the
state remembers an accepted delivery, the last one, and no delivery so far has a
number further ahead. -/
private def RemembersGreatest (token : String) (start : HostState) (stretch : List Delivery)
    (base : UInt32) (index : ℕ) : Prop :=
  ∃ last delivery, last < index ∧ stretch[last]? = some delivery ∧
    AcceptedAt (outputs (deliver token) start stretch) last ∧
    (∀ later, last < later → later < index →
      ¬ AcceptedAt (outputs (deliver token) start stretch) later) ∧
    before token start stretch index = .remembering delivery.command delivery.millis ∧
    ∀ earlier other, earlier < index → stretch[earlier]? = some other →
      sequenceOffset base other.command.sequence ≤ sequenceOffset base delivery.command.sequence

variable (authentic : Authentic token stretch)
  (started : AcceptedAt (outputs (deliver token) start stretch) 0)
  (close : ∀ index last delivery accepted, last < index → stretch[index]? = some delivery →
    stretch[last]? = some accepted → AcceptedAt (outputs (deliver token) start stretch) last →
    (∀ later, last < later → later < index →
      ¬ AcceptedAt (outputs (deliver token) start stretch) later) →
    delivery.millis ≤ accepted.millis + sampleTimeoutMillis)
  (window : ∀ delivery ∈ stretch, sequenceOffset base delivery.command.sequence < 2 ^ 31)

include authentic close window in
/-- Under the invariant the next delivery is accepted exactly when its number is
ahead of all numbers so far. -/
private theorem acceptedAt_iff_of_remembersGreatest {index : ℕ} {delivery : Delivery}
    (remembers : RemembersGreatest token start stretch base index)
    (here : stretch[index]? = some delivery) :
    AcceptedAt (outputs (deliver token) start stretch) index ↔
      ∀ earlier other, earlier < index → stretch[earlier]? = some other →
        sequenceOffset base other.command.sequence <
          sequenceOffset base delivery.command.sequence := by
  obtain ⟨last, accepted, earlier, there, lastAccepted, rejectedSince, state, greatest⟩ := remembers
  have fresh := close index last delivery accepted earlier here there lastAccepted rejectedSince
  have notStale : decide (accepted.millis + sampleTimeoutMillis < delivery.millis) = false :=
    decide_eq_false (by omega)
  rw [acceptedAt_iff authentic here, show final (deliver token) start (stretch.take index) = _
    from state, HostState.admits_remembering, notStale, Bool.false_or,
    sequenceIsNewer_iff_offset_lt (window delivery (List.mem_of_getElem? here))
      (window accepted (List.mem_of_getElem? there))]
  constructor
  · intro ahead other others below present
    exact Nat.lt_of_le_of_lt (greatest other others below present) ahead
  · intro ahead
    exact ahead last accepted earlier there

include authentic started close window in
private theorem remembersGreatest (index : ℕ) (positive : 0 < index)
    (inside : index ≤ stretch.length) : RemembersGreatest token start stretch base index := by
  induction index with
  | zero => exact (Nat.lt_irrefl 0 positive).elim
  | succ index ih =>
      obtain ⟨delivery, here⟩ : ∃ delivery, stretch[index]? = some delivery :=
        ⟨_, List.getElem?_eq_getElem (Nat.lt_of_succ_le inside)⟩
      by_cases accepted : AcceptedAt (outputs (deliver token) start stretch) index
      · -- The accepted delivery is the new last one.
        refine ⟨index, delivery, Nat.lt_succ_self index, here, accepted, by omega,
          final_of_acceptedAt authentic here accepted, ?_⟩
        intro earlier other below present
        rcases Nat.lt_or_ge earlier index with strictly | same
        · have remembers := ih (by omega) (by omega)
          have ahead := (acceptedAt_iff_of_remembersGreatest authentic close window remembers
            here).mp accepted
          exact Nat.le_of_lt (ahead earlier other strictly present)
        · obtain rfl : earlier = index := by omega
          rw [here] at present
          rw [Option.some.inj present]
      · have positive' : 0 < index := by
          rcases Nat.eq_zero_or_pos index with rfl | positive
          · exact (accepted started).elim
          · exact positive
        have remembers := ih positive' (by omega)
        have rejected := accepted
        rw [acceptedAt_iff_of_remembersGreatest authentic close window remembers here] at rejected
        rw [acceptedAt_iff authentic here] at accepted
        have carries := authentic delivery (List.mem_of_getElem? here)
        have next := final_take_succ (deliver token) start here
        rw [deliver_of_carries _ carries, if_neg accepted] at next
        obtain ⟨last, held, earlier, there, lastAccepted, rejectedSince, state, greatest⟩ :=
          remembers
        refine ⟨last, held, by omega, there, lastAccepted, ?_, next.trans state, ?_⟩
        · intro later after below
          rcases Nat.lt_or_ge later index with strictly | same
          · exact rejectedSince later after strictly
          · obtain rfl : later = index := by omega
            rwa [acceptedAt_iff authentic here]
        · intro other others below present
          rcases Nat.lt_or_ge other index with strictly | same
          · exact greatest other others strictly present
          · obtain rfl : other = index := by omega
            rw [here] at present
            obtain rfl := Option.some.inj present
            by_contra ahead
            refine rejected fun among amongDelivery amongBelow amongPresent => ?_
            have := greatest among amongDelivery amongBelow amongPresent
            omega

end Stretch

/-- **Exact ordering within an epoch.** Take a run of authentic deliveries and a
stretch of it whose first packet is accepted, in which every later packet
arrives within the sample timeout of the packet accepted last before it, and
whose numbers lie within 2^31 consecutive values from a base. A packet of the
stretch is accepted exactly when its number is further from the base than all
numbers delivered before it in the stretch. So no number is accepted twice or
after a newer one, and deliveries in order are all accepted. -/
theorem accepted_iff_ahead_of_all_before (token : String) (state : HostState)
    (earlier stretch : List Delivery) (base : UInt32)
    (authentic : Authentic token (earlier ++ stretch))
    (started : AcceptedAt
      (outputs (deliver token) (final (deliver token) state earlier) stretch) 0)
    (close : ∀ index last delivery accepted, last < index → stretch[index]? = some delivery →
      stretch[last]? = some accepted →
      AcceptedAt (outputs (deliver token) (final (deliver token) state earlier) stretch) last →
      (∀ later, last < later → later < index → ¬ AcceptedAt
        (outputs (deliver token) (final (deliver token) state earlier) stretch) later) →
      delivery.millis ≤ accepted.millis + 5000)
    (window : ∀ delivery ∈ stretch, sequenceOffset base delivery.command.sequence < 2 ^ 31) :
    (∀ index delivery, stretch[index]? = some delivery →
      (AcceptedAt (outputs (deliver token) (final (deliver token) state earlier) stretch) index ↔
        ∀ before other, before < index → stretch[before]? = some other →
          sequenceOffset base other.command.sequence <
            sequenceOffset base delivery.command.sequence)) ∧
    (∀ first second firstDelivery secondDelivery, first < second →
      stretch[first]? = some firstDelivery → stretch[second]? = some secondDelivery →
      AcceptedAt (outputs (deliver token) (final (deliver token) state earlier) stretch) second →
      sequenceOffset base firstDelivery.command.sequence <
        sequenceOffset base secondDelivery.command.sequence) ∧
    ((stretch.Pairwise fun first second => sequenceOffset base first.command.sequence <
        sequenceOffset base second.command.sequence) →
      ∀ index < stretch.length,
        AcceptedAt (outputs (deliver token) (final (deliver token) state earlier) stretch)
          index) := by
  have authenticStretch : Authentic token stretch :=
    fun delivery member => authentic delivery (List.mem_append_right earlier member)
  have exact_order : ∀ index delivery, stretch[index]? = some delivery →
      (AcceptedAt (outputs (deliver token) (final (deliver token) state earlier) stretch) index ↔
        ∀ before other, before < index → stretch[before]? = some other →
          sequenceOffset base other.command.sequence <
            sequenceOffset base delivery.command.sequence) := by
    intro index delivery here
    rcases Nat.eq_zero_or_pos index with rfl | positive
    · exact ⟨fun _ before _ below => (Nat.not_lt_zero before below).elim, fun _ => started⟩
    · have inside := (List.getElem?_eq_some_iff.mp here).1
      exact acceptedAt_iff_of_remembersGreatest authenticStretch close window
        (remembersGreatest authenticStretch started close window index positive
          (Nat.le_of_lt inside)) here
  refine ⟨exact_order, ?_, ?_⟩
  · intro first second firstDelivery secondDelivery below firstHere secondHere accepted
    exact (exact_order second secondDelivery secondHere).mp accepted first firstDelivery below
      firstHere
  · intro increasing index inside
    refine (exact_order index _ (List.getElem?_eq_getElem inside)).mpr ?_
    intro before other below present
    obtain ⟨beforeInside, rfl⟩ := List.getElem?_eq_some_iff.mp present
    exact List.pairwise_iff_getElem.mp increasing before index beforeInside inside below

/-- The packet `LC2 abcdefghijklmnop 10 40000 35` arriving at the given time. -/
def sampleDelivery (millis : ℕ) : Delivery :=
  ⟨millis, Text.bytes "LC2 abcdefghijklmnop 10 40000 35\n", ⟨10, 40000, 35⟩⟩

theorem sampleDelivery_carries (millis : ℕ) : Carries "abcdefghijklmnop"
    (sampleDelivery millis).bytes (sampleDelivery millis).command := by
  have parsed : parseCommand "abcdefghijklmnop" (sampleDelivery 0).bytes =
      .ok (sampleDelivery 0).command := by decide
  exact (parseCommand_eq_ok_iff _ _ _).mp parsed

/-- A duplicate half a second later is rejected. -/
theorem duplicate_rejected : ¬ AcceptedAt (outputs (deliver "abcdefghijklmnop")
    (final (deliver "abcdefghijklmnop") .new []) [sampleDelivery 1000, sampleDelivery 1500]) 1 := by
  have authentic : Authentic "abcdefghijklmnop"
      ([] ++ [sampleDelivery 1000, sampleDelivery 1500]) := by
    simpa [Authentic] using ⟨sampleDelivery_carries 1000, sampleDelivery_carries 1500⟩
  have started : AcceptedAt (outputs (deliver "abcdefghijklmnop")
      (final (deliver "abcdefghijklmnop") .new []) [sampleDelivery 1000, sampleDelivery 1500]) 0 :=
    ⟨⟨10, 40000, 35⟩, by simp [deliver_of_carries, sampleDelivery_carries, HostState.admits,
      HostState.stale, HostState.new]; rfl⟩
  have exact_order := (accepted_iff_ahead_of_all_before "abcdefghijklmnop" .new []
    [sampleDelivery 1000, sampleDelivery 1500] 0 authentic started
    (by
      intro index last delivery accepted below here there _ _
      obtain ⟨inside, rfl⟩ := List.getElem?_eq_some_iff.mp here
      obtain ⟨lastInside, rfl⟩ := List.getElem?_eq_some_iff.mp there
      simp only [List.length_cons, List.length_nil] at inside
      obtain ⟨rfl, rfl⟩ : index = 1 ∧ last = 0 := by omega
      simp [sampleDelivery])
    (by simp [sampleDelivery, sequenceOffset])).1 1 (sampleDelivery 1500) rfl
  rw [exact_order]
  intro ahead
  exact Nat.lt_irrefl _ (ahead 0 (sampleDelivery 1000) Nat.zero_lt_one rfl)

end LaptopCooler.Firmware
