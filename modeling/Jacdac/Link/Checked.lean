import Jacdac.Link.Carried

/-! Frames built by `jd_send_frame_with_crc`: they are reports of their sender,
and a receiver that gets all their bytes accepts them and finds their packets. -/

namespace Jacdac

/-- An emitted frame with everything `jd_rx_completed` looks at. -/
structure Emission.Checked (config : TxConfig) (emission : Emission) : Prop where
  faithful : emission.Faithful
  report : emission.frame.ReportsFrom config.deviceId
  crc : jdFrameCrcOk emission.frame = true
  current : emission.frame.flags &&& Frame.flagVnext = 0

/-- The flags an accumulation buffer can have: `jd_reset_frame` leaves what the
loopback has set. -/
def PlainFlags (frame : Frame) : Prop := frame.flags = 0 ∨ frame.flags = Frame.flagLoopback

theorem withCrc_flags (config : TxConfig) (frame : Frame) : (withCrc config frame).flags = frame.flags := by
  rw [withCrc, jdComputeCrc, Frame.flags, Frame.setCrc, Memory.write_outside (.inr (by simp)),
    Frame.setDeviceIdentifier, Memory.write_outside (.inl (by decide)), Frame.flags]

theorem withCrc_deviceIdentifier (config : TxConfig) (frame : Frame) :
    (withCrc config frame).deviceIdentifier = config.deviceId := by
  rw [withCrc, jdComputeCrc, Frame.deviceIdentifier, Frame.setCrc, Memory.read_write_disjoint (.inr (by simp))]
  exact Memory.read_write_block config.deviceIdLength

theorem withCrc_checked (config : TxConfig) (held : Accumulates frame packets) (nonempty : packets ≠ [])
    (plain : PlainFlags frame) : Emission.Checked config ⟨frame, withCrc config frame, packets⟩ where
  faithful := withCrc_faithful config held nonempty
  report := by
    refine ⟨withCrc_deviceIdentifier config frame, ?_⟩
    rw [withCrc_flags]
    rcases plain with flags | flags <;> rw [flags] <;> decide
  crc := jdFrameCrcOk_compute _
  current := by
    change (withCrc config frame).flags &&& _ = 0
    rw [withCrc_flags]
    rcases plain with flags | flags <;> rw [flags] <;> decide

namespace Emission.Checked

variable {config : TxConfig} {emission : Emission} {rxFrame : Frame}

theorem size (checked : emission.Checked config) : 4 ≤ emission.frame.size ∧ emission.frame.size ≤ 236 := by
  have faithful := checked.faithful
  have bound := faithful.held.bound
  have payload : serialPayloadSize = 236 := rfl
  have words := faithful.held.laid.words
  have some := List.length_pos_of_ne_nil faithful.nonempty
  rw [faithful.size]
  omega

theorem accepted (checked : emission.Checked config) {dataLeft : Int}
    (whole : ∀ cell < emission.frame.frameSize, rxFrame cell = emission.frame cell)
    (left : 0 ≤ dataLeft ∧ dataLeft + emission.frame.frameSize ≤ frameStructSize) :
    jdRxCompleted rxFrame dataLeft = .received := by
  obtain ⟨lower, upper⟩ := checked.size
  have struct : frameStructSize = 252 := rfl
  have payload : serialPayloadSize = 236 := rfl
  have long : emission.frame.frameSize = emission.frame.size + 12 := rfl
  have size : rxFrame.size = emission.frame.size := congrArg UInt8.toNat (whole 2 (by omega))
  have length : rxFrame.frameSize = emission.frame.frameSize := by rw [Frame.frameSize, size, Frame.frameSize]
  have flags : rxFrame.flags = emission.frame.flags := whole 3 (by omega)
  have covered : rxFrame.covered = emission.frame.covered := by
    rw [Frame.covered, length, Frame.covered]
    exact Memory.read_congr fun cell _ below => whole cell (by omega)
  have crc : rxFrame.crc = emission.frame.crc := by
    rw [Frame.crc, whole 0 (by omega), whole 1 (by omega), Frame.crc]
  have sound : jdFrameCrcOk rxFrame = true := by
    rw [jdFrameCrcOk, covered, crc]
    exact checked.crc
  have first : (rxFrame.data 0).toNat ≤ 232 := by
    obtain ⟨held, nonempty, _, data⟩ := checked.faithful
    have cell : rxFrame.data 0 = emission.buffer.data 0 :=
      (whole 12 (by omega)).trans (data 12 (Nat.le_refl _))
    obtain ⟨packet, rest, packets⟩ := List.exists_cons_of_ne_nil nonempty
    rw [packets] at held
    have valid := held.valid packet (by simp)
    rw [cell, held.laid.head_size valid]
    exact valid.size
  have read : u32 (frameStructSize + 4294967296 - dataLeft.toNat) = frameStructSize - dataLeft.toNat := by
    unfold u32
    omega
  unfold jdRxCompleted
  rw [if_neg (by omega), if_neg (by omega), if_neg (by omega), if_neg (by simp [sound]),
    if_neg (by omega), if_neg (by rw [flags, checked.current]; simp)]

/-- The handlers find its packets in a copy of its data. -/
theorem delivered (checked : emission.Checked config)
    (whole : ∀ cell < emission.frame.frameSize, cell ≠ 3 → rxFrame cell = emission.frame cell)
    (clear : PaddingClear emission.buffer) (touch : Frame → UInt8)
    (processed : jdServicesProcessFrame touch 241 rxFrame = some seen) : seen = emission.packets := by
  obtain ⟨held, nonempty, sameSize, data⟩ := checked.faithful
  obtain ⟨lower, upper⟩ := checked.size
  have long : emission.frame.frameSize = emission.frame.size + 12 := rfl
  have start : Frame.dataOffset = 12 := rfl
  have size : rxFrame.size = emission.buffer.size :=
    (congrArg UInt8.toNat (whole 2 (by omega) (by decide))).trans sameSize
  have cell (index : Nat) (inside : index < emission.buffer.size) : rxFrame.data index = emission.buffer.data index := by
    have below : Frame.dataOffset + index < emission.frame.frameSize := by omega
    exact (whole _ below (by omega)).trans (data _ (Nat.le_add_right ..))
  have copy : Accumulates rxFrame emission.packets := by
    refine ⟨size ▸ held.bound, ?_, held.valid⟩
    rw [size]
    refine held.laid.congr fun cell lower upper => ?_
    exact (whole cell (by omega) (by omega)).trans (data cell (by omega))
  have front : rxFrame.frontSize = emission.buffer.frontSize := by
    rw [Frame.frontSize, cell 0 (by omega), Frame.frontSize]
  have plain : PaddingClear rxFrame := by
    unfold PaddingClear at clear ⊢
    rw [front, size]
    -- Behind the first packet lies padding of the frame, so the byte was sent.
    by_cases single : align emission.buffer.frontSize ≥ emission.buffer.size
    · exact .inl single
    · have padded := align_ge emission.buffer.frontSize
      rcases clear with beyond | marker | ⟨pointer, after⟩
      · exact absurd beyond single
      · exact .inr (.inl (by rwa [cell _ (by omega)]))
      · exact .inr (.inr ⟨by rwa [cell _ (by omega)], after⟩)
  have words := held.laid.words
  have bound := held.bound
  have payload : serialPayloadSize = 236 := rfl
  have found := copy.process nonempty plain touch (show emission.packets.length ≤ 241 by omega)
  exact Option.some.inj (processed.symm.trans found)

end Emission.Checked

end Jacdac
