import Jacdac.Pipe.DeliveryInvariant

namespace Jacdac

open OPipe (CallOutcome)
open Exchange (closePacket)

theorem OPipe.jdOpipeHandlePacket_outcome {pipe : OPipe} {ack : OPipe.Ack}
    (handled : pipe.jdOpipeHandlePacket now ack = .ok next)
    (matched : (ack.isCrcAck && pipe.acknowledges ack) = true) :
    CallOutcome now { pipe with currRetry := 0, frame := jdResetFrame pipe.frame } next
      (closePacket pipe next) := by
  rcases OPipe.jdOpipeHandlePacket_cases handled with
    ⟨ignored, _⟩ | ⟨_, ⟨waiting, rfl⟩ | ⟨unsent, _, sent⟩ | ⟨notWaiting, _, rfl⟩⟩
  · exact absurd (ignored.symm.trans matched) Bool.false_ne_true
  · rw [closePacket, if_neg (by simp [waiting])]
    exact .unlinked
  · exact jdOpipeSendClosePkt_outcome sent (.inr unsent)
  · rw [closePacket, if_neg (by simp [notWaiting])]
    exact .kept

theorem OPipe.jdOpipeHandlePacket_ignored {pipe : OPipe} {ack : OPipe.Ack}
    (handled : pipe.jdOpipeHandlePacket now ack = .ok next)
    (ignored : (ack.isCrcAck && pipe.acknowledges ack) = false) : next = pipe := by
  rcases OPipe.jdOpipeHandlePacket_cases handled with ⟨_, same⟩ | ⟨matched, _⟩
  · exact same
  · exact absurd (ignored.symm.trans matched) Bool.false_ne_true

theorem Exchange.Invariant.acknowledged {ack : OPipe.Ack} (invariant : Invariant site exchange)
    (distinct : List.IsChain (· ≠ ·) exchange.checksums) (acks : exchange.acks = ack :: rest)
    (handled : exchange.pipe.jdOpipeHandlePacket now ack = .ok next) :
    Invariant site (exchange.acknowledged ack rest next) := by
  unfold Exchange.acknowledged
  split
  · rename_i matched
    have settled := (invariant.settled distinct acks (Bool.and_eq_true_iff.mp matched).2).1
    exact settled.called (OPipe.jdOpipeHandlePacket_outcome handled matched)
  · rename_i ignored
    rw [OPipe.jdOpipeHandlePacket_ignored handled (Bool.eq_false_iff.mpr ignored)]
    exact invariant.shrink (.refl _) (acks ▸ List.sublist_cons_self ack rest)

theorem OPipe.jdOpipeOpen_zero (valid : ¬deviceId.all (· == 0) = true) :
    (zero.jdOpipeOpen deviceId port).2 =
      { counter := u16 (port * 128), status := .opened, currRetry := 0, retryTime := 0,
        frame := (zero.frame.setDeviceIdentifier deviceId).setFlags
          (Frame.flagCommand ||| Frame.flagAckRequested) } := by
  rw [jdOpipeOpen, if_neg valid]
  rfl

/-- A freshly opened pipe has an empty frame for the receiver. -/
theorem Writing.opened (site : Site) (valid : ¬site.deviceId.all (· == 0) = true) :
    Writing site (OPipe.zero.jdOpipeOpen site.deviceId site.port).2 [] [] := by
  have bound := site.portBound
  rw [OPipe.jdOpipeOpen_zero valid]
  have size : ((OPipe.zero.frame.setDeviceIdentifier site.deviceId).setFlags
      (Frame.flagCommand ||| Frame.flagAckRequested)).size = 0 := by
    rw [Frame.setFlags_size, Frame.size, Frame.setDeviceIdentifier,
      Memory.write_outside (.inl (by decide))]
    rfl
  have flags : ((OPipe.zero.frame.setDeviceIdentifier site.deviceId).setFlags
      (Frame.flagCommand ||| Frame.flagAckRequested)).flags = 3 := rfl
  exact
    { accumulates := ⟨size ▸ Nat.zero_le _, size.symm, by simp⟩
      requesting := by
        refine ⟨⟨by rw [flags]; decide, ?_⟩, by rw [flags]; decide⟩
        rw [Frame.deviceIdentifier, Frame.setFlags, Memory.read_write_disjoint (.inr (by simp)),
          Frame.setDeviceIdentifier, ← site.identifier]
        exact Memory.read_write_self _ _ _
      port := by simp only [portOf, u16]; omega
      counter := by simp only [u16, List.length_nil]; omega
      unclosed := by simp }

/-- Both ends right after the two opens. -/
theorem Exchange.opened_invariant (identifier : deviceId.length = 8)
    (free : jdIpipeOpen before name draws = some (port, after)) :
    ∃ site : Site, site.deviceId = deviceId ∧ Invariant site (.opened deviceId port after) := by
  simp only [jdIpipeOpen] at free
  split at free
  · cases free
  · rename_i draw found
    obtain ⟨rfl, rfl⟩ := Prod.mk.inj (Option.some.inj free)
    have port := List.find?_some found
    simp only [isFreePort, ne_eq, decide_eq_true_eq] at port
    have bound : draw % 512 < 512 := Nat.mod_lt _ (by decide)
    refine ⟨⟨deviceId, name, draw % 512, _, identifier, bound, port.2⟩, rfl,
      ⟨[], [], 0, 0, [], [], [], []⟩, ?_, ?_⟩
    · exact
        { accepted := rfl
          last := List.suffix_rfl
          lastShort := by decide
          buildingShort := Nat.zero_lt_succ _
          wire := rfl
          acks := rfl
          stale := by simp [Copies]
          fresh := by simp [Copies]
          old := by simp [Answers]
          new := by simp [Answers]
          received := .inl ⟨rfl, rfl⟩
          numbered := trivial
          closesLast := by simp [Exchange.opened]
          receiver := .waiting _ (Nat.mul_div_cancel _ (by decide)) (by simp [passed, Exchange.opened]; omega)
            (by simp [passed, Exchange.opened]) }
    · by_cases zero : deviceId.all (· == 0) = true
      · refine .gone ?_ ?_
        · simp [Exchange.opened, OPipe.jdOpipeOpen, zero, OPipe.zero]
        · simp [Exchange.opened, OPipe.jdOpipeOpen, zero, OPipe.zero]
      · exact .idle (by rw [Exchange.opened, OPipe.jdOpipeOpen_zero zero]) (.opened _ zero) rfl rfl rfl
          (.inr ⟨rfl, rfl⟩)

/-- The checksums only ever grow at the front. -/
theorem distinct_of_append {first second : List UInt16}
    (distinct : List.IsChain (· ≠ ·) (first ++ second)) : List.IsChain (· ≠ ·) second :=
  (List.isChain_append.mp distinct).2.1

theorem ExchangeRun.invariant (run : ExchangeRun deviceId name exchange)
    (distinct : List.IsChain (· ≠ ·) exchange.checksums) :
    ∃ site : Site, site.deviceId = deviceId ∧ exchange.Invariant site := by
  induction run with
  | opened identifier ipipes draws free => exact Exchange.opened_invariant identifier free
  | call run now operation payload called ih =>
    obtain ⟨site, device, invariant⟩ := ih (distinct_of_append distinct)
    exact ⟨site, device, invariant.called (OPipe.call_outcome payload called)⟩
  | process run config now link processed ih =>
    obtain ⟨site, device, invariant⟩ := ih distinct
    exact ⟨site, device, invariant.processed (OPipe.jdOpipeProcess_outcome processed)⟩
  | @loseData exchange before item after run wire ih =>
    obtain ⟨site, device, invariant⟩ := ih distinct
    have lost : (before ++ after).Sublist exchange.wire := by
      rw [wire]
      exact (List.sublist_cons_self item after).append_left before
    exact ⟨site, device, invariant.shrink lost (.refl _)⟩
  | @loseAck exchange before after ack run acks ih =>
    obtain ⟨site, device, invariant⟩ := ih distinct
    have lost : (before ++ after).Sublist exchange.acks := by
      rw [acks]
      exact (List.sublist_cons_self ack after).append_left before
    exact ⟨site, device, invariant.shrink (.refl _) lost⟩
  | deliver run wire ih =>
    obtain ⟨site, rfl, invariant⟩ := ih distinct
    exact ⟨site, rfl, invariant.delivered wire⟩
  | @ack exchange rest next ack run now acks handled ih =>
    have earlier : List.IsChain (· ≠ ·) exchange.checksums := by
      unfold Exchange.acknowledged at distinct
      split at distinct
      · exact distinct_of_append distinct
      · exact distinct
    obtain ⟨site, device, invariant⟩ := ih earlier
    exact ⟨site, device, invariant.acknowledged earlier acks handled⟩

/-- In every run in which consecutive frames have different checksums, the
handlers get a prefix of the accepted packets, and an acknowledgement that lets
the sender unlink a closed pipe arrives only after the receiver got them all. -/
theorem pipe_delivers_in_order (deviceId : List UInt8) (name : Nat)
    (run : ExchangeRun deviceId name exchange)
    (distinct : List.IsChain (· ≠ ·) exchange.checksums) :
    passed exchange.calls <+: exchange.accepted ∧
    ∀ now ack rest next, exchange.acks = ack :: rest → exchange.pipe.status = .closedWaiting →
      exchange.pipe.jdOpipeHandlePacket now ack = .ok next → next.status = .free →
      passed exchange.calls = exchange.accepted := by
  obtain ⟨site, _, invariant⟩ := run.invariant distinct
  constructor
  · obtain ⟨ledger, consistent, _⟩ := invariant
    rcases consistent.received with ⟨before, _⟩ | ⟨all, _⟩
    · exact ⟨exchange.building, by rw [before, consistent.accepted]⟩
    · rw [all]
  · intro now ack rest next acks waiting handled free
    by_cases matched : (ack.isCrcAck && exchange.pipe.acknowledges ack) = true
    · exact (invariant.settled distinct acks (Bool.and_eq_true_iff.mp matched).2).2
    · rw [OPipe.jdOpipeHandlePacket_ignored handled (Bool.eq_false_iff.mpr matched), waiting] at free
      cases free

private def anyConfig : TxConfig := ⟨[1, 0, 0, 0, 0, 0, 0, 0], TxConfig.first_length, fun _ => true, fun _ => false⟩

private def idleLink : Link := ⟨jdQueueAlloc 1024, jdQueueAlloc 1024⟩

private def peer : List UInt8 := [2, 0, 0, 0, 0, 0, 0, 0]

/-- One write and the close packet go through in one frame. -/
theorem pipe_delivers_one_frame :
    ∃ exchange : Exchange, exchange.accepted.length = 2 ∧ passed exchange.calls = exchange.accepted := by
  have start : ExchangeRun peer 0 _ := .opened rfl [] [5] rfl
  have wrote := start.call 0 (.write [7]) ⟨by decide, by decide⟩ (by rfl)
  have closed := wrote.call 0 .close trivial (by rfl)
  have sent := closed.process anyConfig 0 idleLink (by rfl)
  have received := sent.deliver (by rfl)
  have sound := (pipe_delivers_in_order peer 0 received (by decide +kernel)).2
  refine ⟨_, rfl, sound 0 _ _ .zero rfl rfl ?_ rfl⟩
  rw [OPipe.jdOpipeHandlePacket, if_neg (by decide +kernel), if_pos (by decide +kernel)]
  rfl

end Jacdac
