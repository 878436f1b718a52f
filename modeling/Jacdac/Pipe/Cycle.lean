import Jacdac.Pipe.Exchange

/-! The packets of a pipe's frame against the five bits that count them: when a
receiver that took the whole frame can tell a copy of it from the next one. -/

namespace Jacdac

section Receiving

variable {name port start counter : Nat} {others : List IPipe} {packets : List Packet} {deviceId : List UInt8} {frame copy : Frame}

theorem handleFrame_append (first second : List Packet) (ipipes : List IPipe) :
    handleFrame deviceId frame ipipes (first ++ second) =
      let (middle, calls) := handleFrame deviceId frame ipipes first
      let (last, later) := handleFrame deviceId frame middle second
      (last, calls ++ later) := by
  induction first generalizing ipipes with
  | nil => rfl
  | cons packet rest ih =>
    simp only [List.cons_append, handleFrame, ih, List.append_assoc]

/-- Packets that some other frames brought. -/
def blanks (position : Nat) : List Packet := List.replicate position ⟨0, 0, []⟩

theorem blanks_length (position : Nat) : (blanks position).length = position := List.length_replicate

theorem blanks_unclosed (position : Nat) : ∀ packet ∈ blanks position, closes packet.serviceCommand = false := by
  intro packet member
  rw [List.eq_of_mem_replicate member]
  rfl

/-- A pipe with nothing but its counter could be in any position with these bits. -/
theorem Receiving.waiting_at (portEq : portOf counter = port) (position : Nat) (next : counter % 32 = position % 32) :
    Receiving name port others (blanks position) (⟨name, counter⟩ :: others) :=
  .waiting counter portEq (by rwa [blanks_length]) (blanks_unclosed position)

theorem blanks_closesLast (closesLast : ∀ packet ∈ packets.dropLast, closes packet.serviceCommand = false)
    (position : Nat) : ∀ packet ∈ (blanks position ++ packets).dropLast, closes packet.serviceCommand = false := by
  intro packet member
  by_cases empty : packets = []
  · rw [empty, List.append_nil] at member
    exact blanks_unclosed position packet (List.mem_of_mem_dropLast member)
  · rw [List.dropLast_append_of_ne_nil empty] at member
    rcases List.mem_append.mp member with blank | inside
    · exact blanks_unclosed position packet blank
    · exact closesLast packet inside

/-- A pipe that waits for the first of these packets passes all of them on, and
nothing of a copy that follows. -/
def TakenOnce (packets : List Packet) : Prop :=
  ∀ first ∈ packets.head?, ∀ (deviceId : List UInt8) (frame copy : Frame) (name counter : Nat) (others : List IPipe),
    Addressed deviceId frame → Addressed deviceId copy → portOf counter = portOf first.serviceCommand →
    counter % 32 = first.serviceCommand % 32 → (∀ pipe ∈ others, portOf pipe.counter ≠ portOf counter) →
    ∃ after calls, handleFrame deviceId frame (⟨name, counter⟩ :: others) packets = (after, calls) ∧
      passed calls = packets ∧ handleFrame deviceId copy after packets = (after, [])

theorem TakenOnce.of_short (numbered : NumberedFrom port start packets)
    (closesLast : ∀ packet ∈ packets.dropLast, closes packet.serviceCommand = false) (short : packets.length ≤ 31) :
    TakenOnce packets := by
  intro first head deviceId frame copy name counter others addressed again portEq next foreign
  cases packets with
  | nil => cases head
  | cons packet rest =>
    have same : packet = first := Option.some.inj head
    subst same
    have place : counter % 32 = start % 32 := next.trans numbered.1.counter
    have here : portOf counter = port := portEq.trans numbered.1.port
    rw [here] at foreign
    have waiting := @Receiving.waiting_at name _ counter others here start place
    have placed : NumberedFrom port (blanks start).length (packet :: rest) := by rwa [blanks_length]
    obtain ⟨after, calls, handled, all, receiving⟩ :=
      waiting.accept_frame addressed placed (blanks_closesLast closesLast start)
    refine ⟨after, calls, handled, all, ?_⟩
    apply receiving.reject_frame foreign again numbered
    · rw [List.length_append, blanks_length]
    · rw [List.length_append, blanks_length]
      omega

theorem taken_again (numbered : NumberedFrom port start packets)
    (unclosed : ∀ packet ∈ packets, closes packet.serviceCommand = false) (long : 32 ≤ packets.length)
    (bound : packets.length < 64) (addressed : Addressed deviceId frame) (again : Addressed deviceId copy)
    (portEq : portOf counter = port) (place : counter % 32 = start % 32)
    (foreign : ∀ pipe ∈ others, portOf pipe.counter ≠ port) :
    ∃ after calls last more, handleFrame deviceId frame (⟨name, counter⟩ :: others) packets = (after, calls) ∧
      passed calls = packets ∧ handleFrame deviceId copy after packets = (last, more) ∧
      passed more = packets.drop (packets.length - 32) := by
  have closesLast : ∀ packet ∈ packets.dropLast, closes packet.serviceCommand = false :=
    fun packet member => unclosed packet (List.mem_of_mem_dropLast member)
  have waiting := @Receiving.waiting_at name _ counter others portEq start place
  have placed : NumberedFrom port (blanks start).length packets := by rwa [blanks_length]
  obtain ⟨after, calls, handled, all, receiving⟩ :=
    waiting.accept_frame addressed placed (blanks_closesLast closesLast start)
  refine ⟨after, calls, ?_⟩
  cases receiving with
  | closed closing =>
    obtain ⟨packet, member, closing⟩ := closing
    rcases List.mem_append.mp member with blank | inside
    · rw [blanks_unclosed start packet blank] at closing
      cases closing
    · rw [unclosed packet inside] at closing
      cases closing
  | waiting reached reachedPort next _ =>
    -- The counter came round: the pipe might as well wait for the packet 32 before the end.
    let skipped := packets.length - 32
    rw [List.length_append, blanks_length] at next
    have round := @Receiving.waiting_at name _ reached others reachedPort (start + skipped) (by omega)
    have split : packets.take skipped ++ packets.drop skipped = packets := List.take_append_drop skipped packets
    have length : (packets.take skipped).length = skipped := by
      rw [List.length_take]
      omega
    obtain ⟨early, late⟩ := NumberedFrom.append_iff.mp (split.symm ▸ numbered)
    have ignored : handleFrame deviceId copy (⟨name, reached⟩ :: others) (packets.take skipped) =
        (⟨name, reached⟩ :: others, []) := by
      apply round.reject_frame foreign again early
      · rw [blanks_length, length]
      · rw [blanks_length]
        omega
    have lateLast : ∀ packet ∈ (packets.drop skipped).dropLast, closes packet.serviceCommand = false :=
      fun packet member => unclosed packet (List.mem_of_mem_drop (List.mem_of_mem_dropLast member))
    rw [length] at late
    have latePlaced : NumberedFrom port (blanks (start + skipped)).length (packets.drop skipped) := by
      rwa [blanks_length]
    obtain ⟨last, more, handledAgain, passedAgain, _⟩ :=
      round.accept_frame again latePlaced (blanks_closesLast lateLast _)
    refine ⟨last, more, handled, all, ?_, passedAgain⟩
    rw [← split, handleFrame_append, ignored]
    simp only [handledAgain, List.nil_append]

end Receiving

end Jacdac
