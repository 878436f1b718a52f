import Jacdac.Frame.Walk
import Jacdac.Queue.Fifo
import Jacdac.Tx.SendFrame

/-! Which frames the wire and the USB side accept, and where the packets of an
accepted frame lie. -/

namespace Jacdac

/-- `JD_FRAME_FLAG_BROADCAST`. -/
def Frame.flagBroadcast : UInt8 := 0x04
/-- `JD_FRAME_FLAG_VNEXT`. -/
def Frame.flagVnext : UInt8 := 0x80

/-- The ways out of `jd_rx_completed`. -/
inductive RxOutcome where
  | empty
  | uartError
  | shortFrame
  | crcError
  | badSize
  | dropped
  | received
  deriving DecidableEq, Repr

/-- `jd_rx_completed` on the bytes of `rxFrame`; `received` goes on to
`jd_rx_frame_received`. -/
def jdRxCompleted (frame : Frame) (dataLeft : Int) : RxOutcome :=
  if frame.size = 0 then .empty
  else if dataLeft < 0 then .uartError
  else if u32 (frameStructSize + 4294967296 - dataLeft.toNat) < frame.frameSize then .shortFrame
  else if ¬ jdFrameCrcOk frame then .crcError
  else if frame.frameSize > serialPayloadSize + 16 ∨ (frame.data 0).toNat > serialPayloadSize then .badSize
  else if frame.flags &&& Frame.flagVnext ≠ 0 then .dropped
  else .received

/-- The ways out of `jd_usb_handle_frame`. -/
inductive UsbOutcome where
  | shortFrame
  | crcError
  | processingPacket
  | sent
  deriving DecidableEq, Repr

/-- `jd_usb_handle_frame` on the bytes of `usb_rx_buf`; `sent` goes on to
`jd_send_frame_raw` and from there to the receive queue. The parameter is the
low half of the identifier of `JD_SERVICE_CLASS_USB_BRIDGE` broadcasts. -/
def jdUsbHandleFrame (usbBridge : List UInt8) (frame : Frame) (usbRxPtr : Nat) : UsbOutcome :=
  if usbRxPtr < frame.frameSize then .shortFrame
  else if ¬ jdFrameCrcOk frame then .crcError
  else if frame.flags &&& Frame.flagBroadcast ≠ 0 ∧ frame.flags &&& Frame.flagCommand ≠ 0 ∧
      frame.read 4 4 = usbBridge then .processingPacket
  else .sent

/-- Accepted from the wire or from USB. The receive buffers are one frame long. -/
def AcceptedFrame (usbBridge : List UInt8) (frame : Frame) : Prop :=
  (∃ dataLeft, jdRxCompleted frame dataLeft = .received) ∨
    ∃ usbRxPtr, usbRxPtr ≤ frameStructSize ∧ jdUsbHandleFrame usbBridge frame usbRxPtr = .sent

/-- The frame as `jd_rx_frame_received_core` stores it. -/
def received (frame : Frame) (isLoop : Bool) : Frame := frame.setFlags (receivedFlags frame.flags isLoop)

theorem jdRxCompleted_size (done : jdRxCompleted frame dataLeft = .received) : frame.size ≤ 240 := by
  unfold jdRxCompleted at done
  split at done
  · cases done
  · split at done
    · cases done
    · split at done
      · cases done
      · split at done
        · cases done
        · split at done
          · cases done
          · rename_i small
            have payload : serialPayloadSize = 236 := rfl
            unfold Frame.frameSize at small
            omega

theorem jdUsbHandleFrame_size (done : jdUsbHandleFrame usbBridge frame usbRxPtr = .sent)
    (buffer : usbRxPtr ≤ frameStructSize) : frame.size ≤ 240 := by
  unfold jdUsbHandleFrame at done
  split at done
  · cases done
  · rename_i whole
    unfold Frame.frameSize at whole
    unfold frameStructSize at buffer
    omega

theorem AcceptedFrame.size_le (accepted : AcceptedFrame usbBridge frame) (isLoop : Bool) :
    (received frame isLoop).size ≤ 240 := by
  have same : (received frame isLoop).size = frame.size := rfl
  rw [same]
  rcases accepted with ⟨dataLeft, done⟩ | ⟨usbRxPtr, buffer, done⟩
  · exact jdRxCompleted_size done
  · exact jdUsbHandleFrame_size done buffer

theorem walk_inside (frame : Frame) (offset : Nat) :
    ∀ packet ∈ frame.walk offset, 4 + packet.serviceSize ≤ frame.size := by
  fun_induction Frame.walk frame offset with
  | case1 offset stop => simp
  | case2 offset proceed ih =>
    intro packet member
    rcases List.mem_cons.mp member with rfl | later
    · have size : (frame.packetAt offset).serviceSize = (frame.data offset).toNat := Memory.read_length _ _ _
      omega
    · exact ih packet later

/-- All packets handed to `jd_services_handle_packet` lie inside the frame. -/
def DeliveredInside (touch : Frame → UInt8) (fuel : Nat) (frame : Frame) : Prop :=
  ∃ packets, jdServicesProcessFrame touch fuel frame = some packets ∧
    ∀ packet ∈ packets, 4 + packet.serviceSize ≤ frame.size

/-- Only the first packet can reach past the frame's end. -/
theorem deliveredInside_iff_front (small : frame.size ≤ 240) (touch : Frame → UInt8)
    (enough : 240 < fuel) : DeliveredInside touch fuel frame ↔ 4 + (frame.data 0).toNat ≤ frame.size := by
  have front : frame.packet.serviceSize = (frame.data 0).toNat := Memory.read_length _ _ _
  constructor
  · rintro ⟨packets, delivered, inside⟩
    rw [← front]
    rcases process_cases frame small touch (Nat.lt_of_le_of_lt small enough) with single | ⟨ptr, walked⟩
    · cases single.symm.trans delivered
      exact inside _ (by simp)
    · cases walked.symm.trans delivered
      exact inside _ (by simp)
  · intro fits
    rw [← front] at fits
    rcases process_cases frame small touch (Nat.lt_of_le_of_lt small enough) with single | ⟨ptr, walked⟩
    · exact ⟨_, single, by simpa using fits⟩
    · refine ⟨_, walked, fun packet member => ?_⟩
      rcases List.mem_cons.mp member with rfl | later
      · exact fits
      · exact walk_inside frame ptr packet later

theorem deliveredInside_copy (accepted : AcceptedFrame usbBridge frame) (isLoop : Bool) {copy : Frame}
    (same : copy.read 0 (received frame isLoop).frameSize =
      (received frame isLoop).read 0 (received frame isLoop).frameSize)
    (touch : Frame → UInt8) (enough : 240 < fuel) :
    DeliveredInside touch fuel copy ↔ 4 + (frame.data 0).toNat ≤ frame.size := by
  have cells := Memory.read_eq_iff.mp same
  have whole : (received frame isLoop).frameSize = frame.size + 12 := rfl
  have size : copy.size = frame.size := by
    have byte := cells 2 (by omega)
    exact congrArg UInt8.toNat byte
  rw [deliveredInside_iff_front (size ▸ accepted.size_le isLoop) touch enough, size]
  by_cases empty : frame.size = 0
  · omega
  · have byte := cells 12 (by omega)
    have data : copy.data 0 = (received frame isLoop).data 0 := byte
    rw [data, received, Frame.setFlags_data]

/-- For every accepted frame, all packets delivered from it lie inside it exactly
if its first packet does: both where frames wait in the receive queue and where
one frame is kept in `frameToHandle`. -/
theorem delivered_inside_iff (accepted : AcceptedFrame usbBridge frame) (isLoop : Bool)
    (touch : Frame → UInt8) (enough : 240 < fuel) :
    (∀ capacity queue rest, capacity ≤ 65535 →
      QueueRun capacity queue (.ofFrame (received frame isLoop) (accepted.size_le isLoop) :: rest) →
      ∃ offset, jdQueueFront queue = some offset ∧
        (DeliveredInside touch fuel (queue.frameAt offset) ↔ 4 + (frame.data 0).toNat ≤ frame.size)) ∧
    (∀ frameToHandle : Frame, DeliveredInside touch fuel
        (frameToHandle.write 0 ((received frame isLoop).read 0 (received frame isLoop).frameSize)) ↔
      4 + (frame.data 0).toNat ≤ frame.size) := by
  constructor
  · intro capacity queue rest small run
    obtain ⟨offset, front, content⟩ := (queue_is_fifo small run).2.1 _ _ rfl
    refine ⟨offset, front, deliveredInside_copy accepted isLoop ?_ touch enough⟩
    have stored : (queue.frameAt offset).read 0 (frmSize (received frame isLoop)) =
        (received frame isLoop).read 0 (frmSize (received frame isLoop)) := by
      refine Memory.read_eq_iff.mpr fun cell inside => ?_
      have length : (QueuedFrame.ofFrame (received frame isLoop) (accepted.size_le isLoop)).bytes.length =
          frmSize (received frame isLoop) := Memory.read_length _ _ _
      rw [length] at content
      have byte := Memory.read_eq_iff.mp content cell inside
      rw [Nat.zero_add] at byte ⊢
      exact byte
    have bound : (received frame isLoop).frameSize ≤ frmSize (received frame isLoop) := align_ge _
    rw [← Memory.read_take _ _ _ _ bound, stored, Memory.read_take _ _ _ _ bound]
  · intro frameToHandle
    exact deliveredInside_copy accepted isLoop (Memory.read_write_block (by simp)) touch enough

/-- A frame of four data bytes whose only packet announces ten. -/
def overlong : Frame :=
  jdComputeCrc fun cell => [0, 0, 4, 0, 1, 2, 3, 4, 5, 6, 7, 8, 10, 1, 0, 0].getD cell 0

private theorem overlong_accepted : AcceptedFrame [0, 0, 0, 0] overlong := .inl ⟨0, by decide +kernel⟩

/-- Both receivers accept it, and its packet reaches ten bytes past its end. -/
theorem first_packet_overlong :
    jdRxCompleted overlong 0 = .received ∧ jdUsbHandleFrame [0, 0, 0, 0] overlong 16 = .sent ∧
      ¬ ∀ frame, AcceptedFrame [0, 0, 0, 0] frame → ∀ touch packets,
        jdServicesProcessFrame touch 241 frame = some packets →
          ∀ packet ∈ packets, 4 + packet.serviceSize ≤ frame.size := by
  refine ⟨by decide +kernel, by decide +kernel, fun claim => ?_⟩
  have inside := claim overlong overlong_accepted (fun _ => 0) _ rfl overlong.packet (by simp)
  exact absurd inside (by decide +kernel)

theorem delivered_inside_iff_overlong :
    ¬ DeliveredInside (fun _ => 0) 241
      (Memory.write (fun _ => 0) 0 ((received overlong false).read 0 (received overlong false).frameSize)) :=
  fun inside => absurd (((delivered_inside_iff overlong_accepted false (fun _ => 0) (by decide)).2 _).mp inside)
    (by decide +kernel)

end Jacdac
