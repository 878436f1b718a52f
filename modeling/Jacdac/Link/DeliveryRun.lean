import Jacdac.Link.Delivery

/-! Whole runs of the two devices and the wire: order, nothing twice, nothing
invented, and no assertion on the way. -/

namespace Jacdac

/-- `jd_send` either extends the buffer, or sends it and starts the next one. -/
theorem jdSend_steps (sent : jdSend config state serviceNum serviceCmd payload = .ok (next, frame)) :
    (∃ buffer, frame = none ∧ appendPacket state.txAccBuffer serviceNum serviceCmd payload = .ok (some buffer) ∧
      next = { state with txAccBuffer := buffer }) ∨
    ∃ middle buffer, frame = some (withCrc config state.txAccBuffer) ∧
      appendPacket state.txAccBuffer serviceNum serviceCmd payload = .ok none ∧ emit config state = .ok middle ∧
      appendPacket middle.txAccBuffer serviceNum serviceCmd payload = .ok (some buffer) ∧
      next = { middle with txAccBuffer := buffer } := by
  simp only [jdSend] at sent
  split at sent
  · cases sent
  · rename_i buffer pushed
    cases sent
    exact .inl ⟨buffer, rfl, pushed, rfl⟩
  · rename_i full
    split at sent
    · cases sent
    · rename_i middle emitted
      split at sent
      · cases sent
      · cases sent
      · rename_i buffer pushed
        cases sent
        exact .inr ⟨middle, buffer, rfl, full, emitted, pushed, rfl⟩

/-- Every run keeps track of the reports. -/
theorem WireRun.holds (run : WireRun config sendSize loopSize rxSize state trace) :
    ∃ sending waiting delivered, WireHolds config state trace sending waiting delivered := by
  induction run with
  | boot => exact ⟨[], [], [], .boot config sendSize loopSize rxSize⟩
  | send _ packet size sent ih =>
    obtain ⟨sending, waiting, delivered, holds⟩ := ih
    rcases jdSend_steps sent with ⟨buffer, _, appended, rfl⟩ | ⟨_, _, impossible, _⟩
    · exact ⟨sending, waiting, delivered, holds.append size appended⟩
    · cases impossible
  | sendFull _ packet size sent ih =>
    obtain ⟨sending, waiting, delivered, holds⟩ := ih
    rcases jdSend_steps sent with ⟨_, impossible, _⟩ | ⟨middle, buffer, same, full, emitted, appended, rfl⟩
    · cases impossible
    · cases same
      obtain ⟨sending, after⟩ := holds.emit (holds.built.used_of_full size full) emitted
      exact ⟨sending, waiting, delivered, after.append size appended⟩
  | flushEmpty _ flushed ih =>
    rcases jdTxFlush_cases flushed with ⟨_, rfl⟩ | ⟨impossible, _⟩
    · exact ih
    · cases impossible
  | flush _ flushed ih =>
    obtain ⟨sending, waiting, delivered, holds⟩ := ih
    rcases jdTxFlush_cases flushed with ⟨impossible, _⟩ | ⟨same, used, emitted⟩
    · cases impossible
    · cases same
      obtain ⟨sending, after⟩ := holds.emit (holds.built.nonempty used) emitted
      exact ⟨sending, waiting, delivered, after⟩
  | sendRaw _ frame lower upper other sent ih =>
    obtain ⟨sending, waiting, delivered, holds⟩ := ih
    exact ⟨sending, waiting, delivered, holds.sendRaw lower upper other sent⟩
  | loopQueue _ queue stored small ih =>
    obtain ⟨sending, waiting, delivered, holds⟩ := ih
    exact ⟨sending, waiting, delivered, holds.built, holds.plain, holds.sent, ⟨small, _, stored⟩, holds.sendQueue,
      holds.handedOut, holds.rxQueue, holds.handled, holds.kept⟩
  | getFrame _ idle ih =>
    obtain ⟨sending, waiting, delivered, holds⟩ := ih
    exact ⟨sending, waiting, delivered, holds.built, holds.plain, holds.sent, holds.loopQueue, holds.sendQueue,
      fun _ => id, holds.rxQueue, holds.handled, holds.kept⟩
  | arrive _ busy whole left arrived sent ih =>
    obtain ⟨sending, waiting, delivered, holds⟩ := ih
    obtain ⟨sending, waiting, after⟩ := holds.arrive busy whole left arrived sent
    exact ⟨sending, waiting, delivered, after⟩
  | lose _ busy sent ih =>
    obtain ⟨sending, waiting, delivered, holds⟩ := ih
    obtain ⟨sending, after⟩ := holds.lose busy sent
    exact ⟨sending, waiting, delivered, after⟩
  | arriveOther _ rxFrame dataLeft other arrived ih =>
    obtain ⟨sending, waiting, delivered, holds⟩ := ih
    exact ⟨sending, waiting, delivered, holds.arriveOther other arrived⟩
  | loopback _ frame lower upper other received ih =>
    obtain ⟨sending, waiting, delivered, holds⟩ := ih
    obtain ⟨frames, transports⟩ := holds.rxQueue
    exact ⟨sending, waiting, delivered, holds.built, holds.plain, holds.sent, holds.loopQueue, holds.sendQueue,
      holds.handedOut, (transports.receive lower upper received).2 other, holds.handled, holds.kept⟩
  | process _ idle front touch processed ih =>
    obtain ⟨sending, waiting, delivered, holds⟩ := ih
    obtain ⟨waiting, delivered, after⟩ := holds.process idle front processed
    exact ⟨sending, waiting, delivered, after⟩
  | release _ busy released ih =>
    obtain ⟨sending, waiting, delivered, holds⟩ := ih
    obtain ⟨after, done, kept⟩ := holds.release busy
    obtain rfl := Except.ok.inj (done.symm.trans released)
    exact ⟨sending, waiting, delivered, kept⟩

namespace WireHolds

variable {config : WireConfig} {state : Wire} {trace : WireTrace} {sending waiting delivered : List Emission}

theorem emit_total (holds : WireHolds config state trace sending waiting delivered) (nonempty : trace.pending ≠ []) :
    ∃ tx, Jacdac.emit config.sender state.tx = .ok tx := by
  obtain ⟨lower, upper⟩ := (holds.checked nonempty).size
  dsimp only at lower upper
  obtain ⟨frames, transports⟩ := holds.sendQueue
  obtain ⟨ret, after, link, sent, _⟩ := jdSendFrameRaw_total config.sender ⟨transports.small, frames, transports.holds⟩
    holds.loopQueue (show 1 ≤ (withCrc config.sender state.tx.txAccBuffer).size by omega) (by omega)
  exact ⟨_, by rw [Jacdac.emit, sent]⟩

theorem send_total (holds : WireHolds config state trace sending waiting delivered) {packet : Packet}
    (valid : packet.Valid) :
    ∃ next, jdSend config.sender state.tx packet.serviceIndex.toNat packet.serviceCommand packet.payload = .ok next := by
  unfold jdSend
  rcases holds.built.append packet valid with ⟨full, _⟩ | ⟨buffer, appended, _⟩
  · obtain ⟨tx, emitted⟩ := holds.emit_total (holds.built.used_of_full valid.size full)
    have reset := emit_reset emitted
    rcases reset.append packet valid with ⟨_, beyond⟩ | ⟨buffer, appended, _⟩
    · -- An empty frame has a place for every valid packet.
      have empty : tx.txAccBuffer.size = 0 := (show 0 = _ from reset.laid).symm
      have payload : serialPayloadSize = 236 := rfl
      have size := valid.size
      omega
    · rw [full, emitted]
      dsimp only
      rw [appended]
      exact ⟨_, rfl⟩
  · rw [appended]
    exact ⟨_, rfl⟩

theorem flush_total (holds : WireHolds config state trace sending waiting delivered) :
    ∃ next, jdTxFlush config.sender state.tx = .ok next := by
  unfold jdTxFlush
  by_cases empty : state.tx.txAccBuffer.size = 0
  · exact ⟨_, if_pos empty⟩
  · obtain ⟨tx, emitted⟩ := holds.emit_total (holds.built.nonempty empty)
    rw [if_neg empty, emitted]
    exact ⟨_, rfl⟩

theorem arrive_total (holds : WireHolds config state trace sending waiting delivered) (rxFrame : Frame)
    (dataLeft : Int) : ∃ queue, rxArrive config.receiver state.rxQueue rxFrame dataLeft = .ok queue := by
  obtain ⟨frames, transports⟩ := holds.rxQueue
  unfold rxArrive
  split
  · rename_i accepted
    have lower := jdRxCompleted_pos accepted
    have upper := jdRxCompleted_size accepted
    obtain ⟨ret, queue, pushed, _⟩ :=
      Stored.push ⟨transports.small, frames, transports.holds⟩ (received rxFrame false) lower upper
    unfold received at pushed
    simp only [jdRxFrameReceivedCore]
    by_cases wanted : config.receiver.jdServicesNeedsFrame rxFrame
    · rw [if_pos wanted, pushed]
      exact ⟨_, rfl⟩
    · rw [if_neg wanted]
      exact ⟨_, rfl⟩
  · exact ⟨_, rfl⟩

theorem process_total (holds : WireHolds config state trace sending waiting delivered) (idle : state.processing = false)
    (front : jdQueueFront state.rxQueue = some offset) (touch : Frame → UInt8) :
    ∃ result, state.processFrame touch 241 offset = some result := by
  obtain ⟨frames, transports⟩ := holds.rxQueue
  rw [idle] at transports
  obtain ⟨_, record, length, _⟩ := transports.front front
  have bounded := record.bounded
  have whole : frameStructSize = 252 := rfl
  have small : (state.rxQueue.frameAt offset).size ≤ 240 := by
    have padded := align_ge (state.rxQueue.frameAt offset).frameSize
    unfold frmSize at length
    unfold Frame.frameSize at length padded
    omega
  obtain ⟨packets, found⟩ := Option.isSome_iff_exists.mp (process_frame_walks small touch (Nat.lt_succ_of_le small)).1
  exact ⟨_, by rw [Wire.processFrame, found]; rfl⟩

/-- Empty queues hold no report. -/
theorem drained (holds : WireHolds config state trace sending waiting delivered)
    (sendEmpty : jdQueueFront state.tx.link.sendQueue = none) (rxEmpty : jdQueueFront state.rxQueue = none) :
    sending = [] ∧ waiting = [] := by
  obtain ⟨sendFrames, transports⟩ := holds.sendQueue
  obtain ⟨rxFrames, others⟩ := holds.rxQueue
  have noSend : sendFrames = [] := by
    by_contra some
    obtain ⟨record, rest, rfl⟩ := List.exists_cons_of_ne_nil some
    obtain ⟨offset, front, _⟩ := transports.holds.front_cons
    rw [sendEmpty] at front
    cases front
  have noRx : rxFrames = [] := by
    by_contra some
    obtain ⟨record, rest, rfl⟩ := List.exists_cons_of_ne_nil some
    obtain ⟨offset, front, _⟩ := others.holds.front_cons
    rw [rxEmpty] at front
    cases front
  subst noSend noRx
  have first := transports.order
  have second := others.order
  rw [List.drop_nil] at first second
  exact ⟨List.forall₂_nil_left_iff.mp first, List.forall₂_nil_left_iff.mp second⟩

end WireHolds

/-- No call of the two devices fails an assertion, and the loop over the packets
of a frame ends. -/
structure WireSound (config : WireConfig) (state : Wire) : Prop where
  send : ∀ packet : Packet, packet.Valid →
    ∃ next, jdSend config.sender state.tx packet.serviceIndex.toNat packet.serviceCommand packet.payload = .ok next
  flush : ∃ next, jdTxFlush config.sender state.tx = .ok next
  frameSent : ∀ offset, state.txFrame = some offset → ∃ next, state.jdTxFrameSent = .ok next
  arrive : ∀ rxFrame dataLeft, ∃ queue, rxArrive config.receiver state.rxQueue rxFrame dataLeft = .ok queue
  process : state.processing = false → ∀ offset, jdQueueFront state.rxQueue = some offset →
    ∀ touch, ∃ result, state.processFrame touch 241 offset = some result
  release : state.processing = true → ∃ next, state.jdRxReleaseFrame = .ok next

theorem WireHolds.sound (holds : WireHolds config state trace sending waiting delivered) : WireSound config state where
  send _ valid := holds.send_total valid
  flush := holds.flush_total
  frameSent offset busy := by
    obtain ⟨next, done, _⟩ := holds.frameSent busy
    exact ⟨next, done⟩
  arrive := holds.arrive_total
  process idle _ front touch := holds.process_total idle front touch
  release busy := by
    obtain ⟨next, done, _⟩ := holds.release busy
    exact ⟨next, done⟩

end Jacdac
