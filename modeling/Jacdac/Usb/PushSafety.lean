import Jacdac.Base.Result
import Jacdac.Queue.Fifo
import Jacdac.Usb.HandleFrame
import Jacdac.Usb.RoundTrip

/-! What the host can do to the device with the bytes it sends. -/

namespace Jacdac

/-- A queue whose content is a list of frames. -/
def Queue.Stored (queue : Queue) : Prop := queue.size ≤ 65535 ∧ ∃ frames, Holds queue frames

theorem Queue.Stored.push {queue : Queue} {frame : Frame} (stored : queue.Stored) (lower : 1 ≤ frame.size)
    (upper : frame.size ≤ 240) : ∃ ret next, jdQueuePush queue frame = .ok (ret, next) ∧ next.Stored := by
  obtain ⟨small, frames, holds⟩ := stored
  rcases holds.push small lower upper with ⟨_, next, pushed, accepted⟩ | ⟨_, ret, _, refused, _⟩
  · exact ⟨0, next, pushed, accepted.size ▸ small, _, accepted.holds⟩
  · exact ⟨ret, queue, refused, small, frames, holds⟩

theorem jdQueuePush_of_empty {frame : Frame} (empty : frame.size = 0) (queue : Queue) :
    jdQueuePush queue frame = .error .emptyFrame := by
  simp [jdQueuePush, empty, bind, Except.bind, throw, throwThe, MonadExceptOf.throw]

namespace Link

/-- Both queues hold frames. -/
structure Stored (link : Link) : Prop where
  sends : link.sendQueue.Stored
  receives : link.rxQueue.Stored

/-- A frame that is not empty never panics. -/
theorem Stored.sendFrameRaw {link : Link} {frame : Frame} (stored : link.Stored) (config : TxConfig)
    (lower : 1 ≤ frame.size) (upper : frame.size ≤ 240) :
    ∃ ret after next, jdSendFrameRaw config link frame = .ok (ret, after, next) ∧ next.Stored := by
  have sent : ∃ ret queue, pushSend config link.sendQueue frame = .ok (ret, queue) ∧ queue.Stored := by
    unfold pushSend
    split
    · exact stored.sends.push lower upper
    · exact ⟨0, _, rfl, stored.sends⟩
  have received : ∃ ret after queue,
      jdRxFrameReceivedCore config link.rxQueue frame true = .ok (ret, after, queue) ∧ queue.Stored := by
    unfold jdRxFrameReceivedCore
    split
    · have flagged := frame.setFlags_size (receivedFlags frame.flags true)
      obtain ⟨ret, next, pushed, kept⟩ :=
        stored.receives.push (lower.trans_eq flagged.symm) (flagged.trans_le upper)
      exact ⟨ret, frame.setFlags (receivedFlags frame.flags true), next, by simp only [pushed], kept⟩
    · exact ⟨0, frame, _, rfl, stored.receives⟩
  obtain ⟨ret, sendQueue, pushed, sends⟩ := sent
  obtain ⟨_, after, rxQueue, looped, receives⟩ := received
  exact ⟨ret, after, ⟨sendQueue, rxQueue⟩, by simp only [jdSendFrameRaw, pushed, looped], sends, receives⟩

/-- An empty frame panics as soon as one of the queues wants it. -/
theorem sendFrameRaw_empty (link : Link) {frame : Frame} (config : TxConfig) (empty : frame.size = 0) :
    jdSendFrameRaw config link frame =
      if config.jdNeedToSend frame ∨ config.jdServicesNeedsFrame frame then .error .emptyFrame
      else .ok (0, frame, link) := by
  have flagged : (frame.setFlags (receivedFlags frame.flags true)).size = 0 := empty
  by_cases needed : config.jdNeedToSend frame = true
  · simp [jdSendFrameRaw, pushSend, needed, jdQueuePush_of_empty empty]
  · by_cases wanted : config.jdServicesNeedsFrame frame = true
    · simp [jdSendFrameRaw, pushSend, jdRxFrameReceivedCore, needed, wanted, jdQueuePush_of_empty flagged]
    · simp [jdSendFrameRaw, pushSend, jdRxFrameReceivedCore, needed, wanted]

end Link

namespace UsbDevice

/-- The decoder is inside the frame, and every queue holds frames. -/
structure Sound (device : UsbDevice) : Prop where
  bounded : device.rx.ptr ≤ frameStructSize
  link : device.link.Stored
  queue : ∀ queue, device.usbQueue = some queue → queue.Stored

/-- This byte completes an empty frame with the right checksum that is not for
the bridge itself, and that the bus or the services want. -/
def CompletesEmpty (config : UsbConfig) (device : UsbDevice) (c : UInt8) : Prop :=
  device.rx.wasMagic ≠ 0 ∧ device.rx.state ≠ 0 ∧ c = config.codes.frameEnd ∧ device.rx.buf.size = 0 ∧
    jdUsbHandleFrame config.usbBridge device.rx.buf device.rx.ptr = .sent ∧
    (config.tx.jdNeedToSend device.rx.buf ∨ config.tx.jdServicesNeedsFrame device.rx.buf)

instance (config : UsbConfig) (device : UsbDevice) (c : UInt8) : Decidable (device.CompletesEmpty config c) :=
  inferInstanceAs (Decidable (_ ∧ _))

variable {device : UsbDevice}

theorem switchFlags_kept (config : UsbConfig) (device : UsbDevice) (cmd : Nat) :
    (device.switchFlags config cmd).1.rx = device.rx ∧ (device.switchFlags config cmd).1.link = device.link := by
  unfold switchFlags
  split_ifs <;> exact ⟨rfl, rfl⟩

theorem Sound.initQueue (sound : device.Sound) (config : UsbConfig) : (device.initQueue config).Stored := by
  unfold UsbDevice.initQueue
  split
  · refine ⟨?_, [], .alloc config.queueSize⟩
    exact (u16_of_lt config.queueSize_le).trans_le config.queueSize_le
  · rename_i queue present
    exact sound.queue queue present

/-- A packet for the bridge is always answered. -/
theorem Sound.processing (sound : device.Sound) (config : UsbConfig) (pkt : Frame) :
    ∃ after, device.jdUsbHandleProcessingPacket config pkt = .ok after ∧ after.Sound := by
  obtain ⟨rx, link⟩ := device.switchFlags_kept config (Memory.number pkt 14 2)
  have size := response_size config (device.switchFlags config (Memory.number pkt 14 2)).2
  obtain ⟨ret, next, pushed, stored⟩ := (sound.initQueue config).push (by omega) (size.trans_le (by decide))
  refine ⟨{ (device.switchFlags config (Memory.number pkt 14 2)).1 with usbQueue := some next }, ?_, ?_, ?_, ?_⟩
  · simp only [jdUsbHandleProcessingPacket, pushed]
  · exact rx ▸ sound.bounded
  · exact link ▸ sound.link
  · exact fun queue present => Option.some.inj present ▸ stored

theorem Sound.handleFrame (sound : device.Sound) (config : UsbConfig) (call : HandleCall) (bounded : call.ptr ≤ frameStructSize) :
    (call.buf.size = 0 ∧ jdUsbHandleFrame config.usbBridge call.buf call.ptr = .sent ∧
      (config.tx.jdNeedToSend call.buf ∨ config.tx.jdServicesNeedsFrame call.buf) ∧
      device.handleFrame config call = .error .emptyFrame) ∨
    (¬ (call.buf.size = 0 ∧ jdUsbHandleFrame config.usbBridge call.buf call.ptr = .sent ∧
      (config.tx.jdNeedToSend call.buf ∨ config.tx.jdServicesNeedsFrame call.buf)) ∧
      ∃ after buf, device.handleFrame config call = .ok (after, buf) ∧ after.Sound) := by
  unfold UsbDevice.handleFrame
  cases outcome : jdUsbHandleFrame config.usbBridge call.buf call.ptr with
  | shortFrame => exact .inr ⟨fun all => (nomatch all.2.1), device, call.buf, rfl, sound⟩
  | crcError => exact .inr ⟨fun all => (nomatch all.2.1), device, call.buf, rfl, sound⟩
  | processingPacket =>
    obtain ⟨after, handled, kept⟩ := sound.processing config call.buf
    exact .inr ⟨fun all => (nomatch all.2.1), after, call.buf, by simp only [handled], kept⟩
  | sent =>
    have upper : call.buf.size ≤ 240 := jdUsbHandleFrame_size outcome bounded
    by_cases empty : call.buf.size = 0
    · have sent := device.link.sendFrameRaw_empty config.tx empty
      by_cases wanted : config.tx.jdNeedToSend call.buf ∨ config.tx.jdServicesNeedsFrame call.buf
      · rw [if_pos wanted] at sent
        exact .inl ⟨empty, rfl, wanted, by simp only [sent]⟩
      · rw [if_neg wanted] at sent
        exact .inr ⟨fun all => wanted all.2.2, device, call.buf, by simp only [sent], sound⟩
    · obtain ⟨ret, after, next, sent, stored⟩ :=
        sound.link.sendFrameRaw config.tx (Nat.pos_of_ne_zero empty) upper
      refine .inr ⟨fun all => empty all.1, { device with link := next }, after, by simp only [sent], ?_⟩
      exact ⟨sound.bounded, stored, sound.queue⟩

/-- One byte: it panics exactly if it completes an empty frame. -/
theorem Sound.step (sound : device.Sound) (config : UsbConfig) (c : UInt8) :
    (device.CompletesEmpty config c ∧ device.step config c = .error .emptyFrame) ∨
      (¬ device.CompletesEmpty config c ∧ ∃ after, device.step config c = .ok after ∧ after.Sound) := by
  have calls := UsbRx.step_calls config.codes (fun call => call.buf) device.rx c
  have bounded := UsbRx.step_ptr config.codes (fun call => call.buf) device.rx c sound.bounded
  unfold UsbDevice.step CompletesEmpty
  generalize device.rx.step config.codes (fun call => call.buf) c = turn at calls bounded ⊢
  dsimp only
  rw [calls]
  by_cases ends : device.rx.wasMagic ≠ 0 ∧ device.rx.state ≠ 0 ∧ c = config.codes.frameEnd
  · rw [if_pos ends]
    rcases sound.handleFrame config ⟨device.rx.ptr, device.rx.buf⟩ sound.bounded with
      ⟨empty, sent, wanted, failed⟩ | ⟨other, after, buf, handled, kept⟩
    · exact .inl ⟨⟨ends.1, ends.2.1, ends.2.2, empty, sent, wanted⟩, by simp only [failed]⟩
    · refine .inr ⟨fun all => other all.2.2.2, { after with rx := { turn.1 with buf } }, ?_, ?_⟩
      · simp only [handled]
      · exact ⟨bounded, kept.link, kept.queue⟩
  · rw [if_neg ends]
    refine .inr ⟨fun all => ends ⟨all.1, all.2.1, all.2.2.1⟩, { device with rx := turn.1 }, rfl, ?_⟩
    exact ⟨bounded, sound.link, sound.queue⟩

theorem acceptIndices_lt (rx : UsbRx) (bounded : rx.ptr ≤ frameStructSize) :
    ∀ index ∈ acceptIndices rx, index < frameStructSize := by
  unfold acceptIndices
  split_ifs with opened full
  · exact fun index member => (List.mem_range.mp member).trans_le bounded
  · intro index member
    rw [List.mem_singleton.mp member]
    exact Nat.lt_of_not_le full
  · nofun

theorem handleIndices_lt (config : UsbConfig) (call : HandleCall) (bounded : call.ptr ≤ frameStructSize) :
    ∀ index ∈ handleIndices config call, index < frameStructSize := by
  have whole : jdUsbHandleFrame config.usbBridge call.buf call.ptr ≠ .shortFrame →
      ∀ index ∈ List.range call.buf.frameSize, index < frameStructSize := by
    intro long index member
    have inside := List.mem_range.mp member
    have : ¬ call.ptr < call.buf.frameSize := fun short => long (by rw [jdUsbHandleFrame, if_pos short])
    omega
  intro index member
  unfold handleIndices at member
  cases outcome : jdUsbHandleFrame config.usbBridge call.buf call.ptr with
  | shortFrame =>
    rw [outcome] at member
    rw [List.mem_singleton.mp member]
    decide
  | crcError =>
    rw [outcome] at whole member
    exact whole nofun index member
  | processingPacket =>
    rw [outcome] at whole member
    rcases List.mem_append.mp member with early | late
    · exact whole nofun index early
    · have : index = 14 ∨ index = 15 := by simpa using late
      unfold frameStructSize
      omega
  | sent =>
    have upper := jdUsbHandleFrame_size outcome bounded
    rw [outcome] at whole member
    rcases List.mem_append.mp member with early | late
    · exact whole nofun index early
    · have inside := List.mem_range.mp late
      unfold frmSize Frame.frameSize align at inside
      unfold frameStructSize
      omega

/-- Every index of a turn lies in the frame. -/
theorem Sound.indices (sound : device.Sound) (config : UsbConfig) (c : UInt8) :
    ∀ index ∈ indices config device.rx c, index < frameStructSize := by
  have errors : ∀ index ∈ errorIndices device.rx, index < frameStructSize :=
    fun index member => (List.mem_range.mp member).trans_le sound.bounded
  have accepted := acceptIndices_lt device.rx sound.bounded
  unfold UsbDevice.indices
  split_ifs
  · exact errors
  · exact accepted
  · exact accepted
  · exact errors
  · nofun
  · exact handleIndices_lt config _ sound.bounded
  · nofun
  · nofun
  · intro index member
    rcases List.mem_append.mp member with early | late
    · exact errors index early
    · exact acceptIndices_lt device.rx.frameError (Nat.zero_le _) index late
  · exact accepted
  · nofun
  · exact accepted

/-- No byte completes an empty frame. -/
def NeverEmpty (config : UsbConfig) : UsbDevice → List UInt8 → Prop
  | _, [] => True
  | device, c :: buf =>
    ¬ device.CompletesEmpty config c ∧ ∀ after, device.step config c = .ok after → NeverEmpty config after buf

/-- Whole pushes. -/
theorem Sound.push (sound : device.Sound) (config : UsbConfig) (buf : List UInt8) :
    (¬ device.NeverEmpty config buf ∧ device.jdUsbPush config buf = .error .emptyFrame) ∨
      (device.NeverEmpty config buf ∧ ∃ after, device.jdUsbPush config buf = .ok after ∧ after.Sound) := by
  induction buf generalizing device with
  | nil => exact .inr ⟨trivial, device, rfl, sound⟩
  | cons c buf ih =>
    unfold UsbDevice.jdUsbPush NeverEmpty
    rcases sound.step config c with ⟨empty, failed⟩ | ⟨other, after, stepped, kept⟩
    · exact .inl ⟨fun all => all.1 empty, by simp only [failed]⟩
    · simp only [stepped]
      rcases ih kept with ⟨later, failed⟩ | ⟨never, last, done, final⟩
      · exact .inl ⟨fun all => later (all.2 after rfl), failed⟩
      · refine .inr ⟨⟨other, fun same reached => ?_⟩, last, done, final⟩
        cases reached
        exact never

/-- Zeroed statics and fresh queues. -/
def boot (config : UsbConfig) : UsbDevice where
  rx := ⟨0, 0, 0, fun _ => 0⟩
  link := ⟨jdQueueAlloc config.sendQueueSize, jdQueueAlloc config.rxQueueSize⟩
  usbQueue := none
  fwdEn := false
  serialEn := false

end UsbDevice

/-- The host sends bytes, in any chunks; meanwhile the rest of the firmware
brings the queues to any content that they can have. -/
inductive UsbRun (config : UsbConfig) : UsbDevice → Prop where
  | boot : UsbRun config (.boot config)
  | push (run : UsbRun config device) (buf : List UInt8) (done : device.jdUsbPush config buf = .ok after) :
    UsbRun config after
  | queues (run : UsbRun config device) (link : Link) (usbQueue : Option Queue)
      (sends : QueueRun config.sendQueueSize link.sendQueue sending)
      (receives : QueueRun config.rxQueueSize link.rxQueue receiving)
      (usb : ∀ queue, usbQueue = some queue → ∃ frames, QueueRun config.queueSize queue frames) :
    UsbRun config { device with link, usbQueue }

theorem QueueRun.stored (run : QueueRun capacity queue frames) (small : capacity ≤ 65535) : queue.Stored := by
  obtain ⟨holds, size⟩ := run.holds small
  exact ⟨size.trans_le small, frames, holds⟩

theorem UsbRun.sound {config : UsbConfig} {device : UsbDevice} (run : UsbRun config device) : device.Sound := by
  induction run with
  | boot =>
    refine ⟨Nat.zero_le _, ⟨?_, ?_⟩, nofun⟩
    · exact QueueRun.stored .alloc config.sendQueueSize_le
    · exact QueueRun.stored .alloc config.rxQueueSize_le
  | push _ buf done ih =>
    rcases ih.push config buf with ⟨_, failed⟩ | ⟨_, after, pushed, sound⟩
    · cases done.symm.trans failed
    · cases done.symm.trans pushed
      exact sound
  | queues _ link usbQueue sends receives usb ih =>
    refine ⟨ih.bounded, ⟨sends.stored config.sendQueueSize_le, receives.stored config.rxQueueSize_le⟩, ?_⟩
    intro queue present
    obtain ⟨frames, reached⟩ := usb queue present
    exact reached.stored config.queueSize_le

/-- From every reachable state the bytes of the host cause no panic exactly if
none of them completes an empty frame that is forwarded; and no index into
`usb_rx_buf` is ever outside of it. -/
theorem usb_push_safe_iff {config : UsbConfig} {device : UsbDevice} (run : UsbRun config device) :
    (∀ buf, (∃ after, device.jdUsbPush config buf = .ok after) ↔ device.NeverEmpty config buf) ∧
      ∀ c, ∀ index ∈ UsbDevice.indices config device.rx c, index < frameStructSize := by
  refine ⟨fun buf => ?_, run.sound.indices config⟩
  rcases run.sound.push config buf with ⟨empty, failed⟩ | ⟨never, after, pushed, _⟩
  · refine ⟨fun succeeded => ?_, fun never => absurd never empty⟩
    obtain ⟨after, pushed⟩ := succeeded
    cases failed.symm.trans pushed
  · exact ⟨fun _ => never, fun _ => ⟨after, pushed⟩⟩

/-- A bridge that forwards every frame to the bus. -/
def forwardingBridge : UsbConfig where
  codes := bridgeCodes
  tx := ⟨[1, 0, 0, 0, 0, 0, 0, 0], TxConfig.first_length, fun _ => true, fun _ => true⟩
  usbBridge := [0x92, 0xd5, 0xe5, 0x18]
  usbBridgeLength := rfl
  cmdEnablePackets := 0x81
  cmdDisablePackets := 0x80
  cmdEnableLog := 0x83
  cmdDisableLog := 0x82
  queueSize := 1024
  queueSize_le := by decide
  sendQueueSize := 512
  sendQueueSize_le := by decide
  rxQueueSize := 512
  rxQueueSize_le := by decide

/-- A frame for device 2 between its markers. -/
def wholeFrame : List UInt8 := [0xfe, 0xfc, 0x15, 0x65, 4, 0, 2, 0, 0, 0, 0, 0, 0, 0, 0, 1, 0, 0, 0xfe, 0xfd]

/-- The frame is forwarded to the bus. -/
theorem usb_push_safe_iff_whole :
    ∃ after, (UsbDevice.boot forwardingBridge).jdUsbPush forwardingBridge wholeFrame = .ok after ∧
      (jdQueueFront after.link.sendQueue).map (fun front => (after.link.sendQueue.frameAt front).read 0 16) =
        some ((wholeFrame.drop 2).take 16) ∧
      (UsbDevice.boot forwardingBridge).NeverEmpty forwardingBridge wholeFrame := by
  have done : ((UsbDevice.boot forwardingBridge).jdUsbPush forwardingBridge wholeFrame).map (fun after =>
      (jdQueueFront after.link.sendQueue).map fun front => (after.link.sendQueue.frameAt front).read 0 16) =
      .ok (some ((wholeFrame.drop 2).take 16)) := by decide +kernel
  obtain ⟨after, pushed, queued⟩ := ok_of_map done
  exact ⟨after, pushed, queued, ((usb_push_safe_iff .boot).1 wholeFrame).mp ⟨after, pushed⟩⟩

/-- The host sends one frame with size 0 and the right checksum. -/
theorem empty_usb_frame_panics :
    (match (UsbDevice.boot forwardingBridge).jdUsbPush forwardingBridge
        [0xfe, 0xfc, 0x39, 0xe1, 0, 0, 0, 0, 0, 0, 0, 0, 0, 0, 0xfe, 0xfd] with
      | .ok _ => none
      | .error fault => some fault) = some .emptyFrame := by
  decide +kernel

end Jacdac
