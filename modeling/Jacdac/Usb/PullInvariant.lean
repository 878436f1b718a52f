import Jacdac.Usb.Pull

/-! What one `jd_usb_pull` adds to the stream: it continues the pieces where the
last pull stopped, and never puts log text or a gap marker inside a frame. -/

namespace Jacdac

/-- What the loop over a frame's bytes leaves: the next bytes of the frame are
out, escaped, and it stops inside the frame only for lack of space. -/
structure Fills (codes : QuoteBytes) (frame : Frame) (frameSize framePtr : Nat) (dst : List UInt8)
    (result : Bool × Nat × List UInt8) : Prop where
  moved : framePtr ≤ result.2.1
  within : result.2.1 ≤ frameSize
  out : result.2.2 = dst ++ codes.escapeAll (frame.read framePtr (result.2.1 - framePtr))
  short : result.2.2.length ≤ 64
  stopped : result.1 = true ∨ result.2.1 < frameSize → usbSpace result.2.2 < 2

/-- One turn of that loop, for either kind of byte. -/
private theorem Fills.turn {codes : QuoteBytes} {frame : Frame} (small : frameSize ≤ frameStructSize)
    (inside : framePtr < frameSize)
    (room : (dst ++ codes.escape (frame framePtr)).length ≤ 64)
    (rest : u8 (framePtr + 1) ≤ frameSize → (dst ++ codes.escape (frame framePtr)).length ≤ 64 →
      Fills codes frame frameSize (u8 (framePtr + 1)) (dst ++ codes.escape (frame framePtr)) result) :
    Fills codes frame frameSize framePtr dst result := by
  have next : u8 (framePtr + 1) = framePtr + 1 := by
    unfold u8
    unfold frameStructSize at small
    omega
  rw [next] at rest
  obtain ⟨moved, within, out, short, stopped⟩ := rest (by omega) room
  refine ⟨by omega, within, ?_, short, stopped⟩
  have count : result.2.1 - framePtr = result.2.1 - (framePtr + 1) + 1 := by omega
  rw [out, count, Memory.read_succ, QuoteBytes.escapeAll_cons, List.append_assoc]

theorem sendBytes_fills (codes : QuoteBytes) (frame : Frame) (frameSize framePtr : Nat)
    (dst : List UInt8) (small : frameSize ≤ frameStructSize) (bound : framePtr ≤ frameSize)
    (fits : dst.length ≤ 64) :
    Fills codes frame frameSize framePtr dst (sendBytes codes frame frameSize framePtr dst) := by
  fun_induction sendBytes codes frame frameSize framePtr dst with
  | case1 framePtr dst inside b magic room =>
    exact ⟨Nat.le_refl _, bound, by simp, fits, fun _ => room⟩
  | case2 framePtr dst inside b magic room ih =>
    have escaped : codes.escape (frame framePtr) = [codes.magic, codes.literalMagic] := if_pos magic
    rw [← escaped] at ih ⊢
    refine .turn small inside ?_ ih
    simp only [usbSpace, escaped, List.length_append, List.length_cons, List.length_nil] at *
    omega
  | case3 framePtr dst inside b plain room =>
    refine ⟨Nat.le_refl _, bound, by simp, fits, fun _ => ?_⟩
    show usbSpace dst < 2
    omega
  | case4 framePtr dst inside b plain room ih =>
    have escaped : codes.escape (frame framePtr) = [b] := if_neg plain
    rw [← escaped] at ih ⊢
    refine .turn small inside ?_ ih
    simp only [usbSpace, escaped, List.length_append, List.length_cons, List.length_nil] at *
    omega
  | case5 framePtr dst outside =>
    exact ⟨Nat.le_refl _, bound, by simp, fits, fun stopped => by simp [outside] at stopped⟩

/-- The front frame of the queue is the pushed frame, byte for byte. -/
theorem frameAt_agrees {queue : Queue} {sized : SizedFrame}
    (content : queue.data.read offset sized.record.bytes.length = sized.record.bytes)
    (inside : cell < sized.frame.frameSize) : queue.frameAt offset cell = sized.frame cell := by
  have long : sized.record.bytes.length = frmSize sized.frame := Memory.read_length ..
  have upper : cell < frmSize sized.frame := Nat.lt_of_lt_of_le inside (align_ge _)
  rw [long] at content
  have cells := Memory.read_eq_iff.mp (content.trans rfl) cell upper
  rwa [Nat.zero_add] at cells

theorem frameAt_frameSize {queue : Queue} {sized : SizedFrame}
    (content : queue.data.read offset sized.record.bytes.length = sized.record.bytes) :
    (queue.frameAt offset).frameSize = sized.frame.frameSize := by
  have inside : 2 < sized.frame.frameSize := by
    unfold Frame.frameSize
    omega
  simp only [Frame.frameSize, Frame.size, frameAt_agrees content inside]

/-- The invariant of the frame loop, after `earlier` pulls: the stream so far
completes `sent`, and the queue still stores `pending`. -/
structure Sending.Follows (codes : QuoteBytes) (earlier : List UInt8) (sent pending : List SizedFrame)
    (sending : Sending) : Prop where
  stream : StreamOf codes sent sending.framePtr pending (earlier ++ sending.dst)
  holds : Holds sending.queue (pending.map SizedFrame.record)
  small : sending.queue.size ≤ 65535
  fits : sending.dst.length ≤ 64

/-- A piece may be added wherever no frame is open. -/
theorem StreamOf.add {codes : QuoteBytes} (stream : StreamOf codes sent 0 pending bytes)
    (piece : Piece) (frameless : piece.frames = []) :
    StreamOf codes sent 0 pending (bytes ++ piece.encode codes) := by
  generalize zero : 0 = framePtr at stream
  cases stream with
  | between pieces completed =>
    have added : StreamOf codes sent 0 pending (Piece.encodeAll codes (pieces ++ [piece])) :=
      .between _ (by simp [completed, frameless])
    simpa using added
  | inside _ _ _ positive _ => omega

namespace Sending.Follows

variable {codes : QuoteBytes} {sending : Sending}

theorem markGap (follows : sending.Follows codes earlier sent pending) :
    (sending.markGap codes).Follows codes earlier sent pending := by
  obtain ⟨stream, holds, small, fits⟩ := follows
  unfold Sending.markGap
  split
  · rename_i marks
    obtain ⟨_, between, room⟩ := marks
    rw [between] at stream
    refine ⟨?_, holds, small, ?_⟩
    · have added := stream.add .gap rfl
      rw [List.append_assoc] at added
      show StreamOf codes sent sending.framePtr pending (earlier ++ (sending.dst ++ _))
      rw [between]
      exact added
    · simp only [usbSpace, List.length_append, List.length_cons, List.length_nil] at *
      omega
  · exact ⟨stream, holds, small, fits⟩

private theorem opened (follows : sending.Follows codes earlier sent (front :: rest)) :
    ∃ pieces, Piece.allFrames pieces = sent ∧ sending.framePtr ≤ front.frame.frameSize ∧
      earlier ++ (sending.markStart codes).dst = Piece.encodeAll codes pieces ++
        ([codes.magic, codes.frameStart] ++
          codes.escapeAll (front.frame.read 0 sending.framePtr)) := by
  have stream := follows.stream
  generalize total : earlier ++ sending.dst = bytes at stream
  generalize place : sending.framePtr = framePtr at stream
  cases stream with
  | between pieces completed =>
    refine ⟨pieces, completed, Nat.zero_le _, ?_⟩
    simp [Sending.markStart, place, ← total]
  | inside pieces completed front positive bound =>
    refine ⟨pieces, completed, bound, ?_⟩
    have started : ¬ sending.framePtr = 0 := by omega
    rw [Sending.markStart, if_neg started, total, SizedFrame.bytes, Memory.read_take _ _ _ _ bound]

private theorem markStart_framePtr : (sending.markStart codes).framePtr = sending.framePtr := by
  unfold Sending.markStart
  split <;> rfl

private theorem markStart_queue : (sending.markStart codes).queue = sending.queue := by
  unfold Sending.markStart
  split <;> rfl

/-- A start marker is set only with space for the first byte behind it. -/
private theorem markStart_fits (codes : QuoteBytes) (fits : sending.dst.length ≤ 64)
    (room : sending.framePtr = 0 → 4 ≤ usbSpace sending.dst) :
    (sending.markStart codes).dst.length ≤ 64 ∧
      (sending.framePtr = 0 → 2 ≤ usbSpace (sending.markStart codes).dst) := by
  unfold Sending.markStart
  split
  · rename_i fresh
    have space := room fresh
    simp only [usbSpace, List.length_append, List.length_cons, List.length_nil] at *
    omega
  · rename_i started
    exact ⟨fits, fun fresh => absurd fresh started⟩

/-- Filling the front frame leaves it open. It is not all out only for lack of space. -/
private theorem fill_front (follows : sending.Follows codes earlier sent (front :: rest))
    (room : sending.framePtr = 0 → 4 ≤ usbSpace sending.dst)
    (content : sending.queue.data.read offset front.record.bytes.length = front.record.bytes)
    (filled : (sending.markStart codes).fill codes offset = (returned, after)) :
    after.Follows codes earlier sent (front :: rest) ∧ 0 < after.framePtr ∧
      (returned = true ∨ after.framePtr < front.frame.frameSize → usbSpace after.dst < 2) := by
  obtain ⟨pieces, completed, bound, start⟩ := follows.opened
  obtain ⟨fits, space⟩ := markStart_fits codes follows.fits room
  have whole := frameAt_frameSize content
  have fills := sendBytes_fills codes (sending.queue.frameAt offset) front.frame.frameSize
    sending.framePtr (sending.markStart codes).dst front.frameSize_le bound fits
  rw [Sending.fill, markStart_queue, markStart_framePtr, whole] at filled
  generalize sendBytes codes (sending.queue.frameAt offset) front.frame.frameSize
    sending.framePtr (sending.markStart codes).dst = result at filled fills
  obtain ⟨rfl, rfl⟩ := Prod.mk.inj filled
  obtain ⟨moved, within, out, short, stopped⟩ := fills
  have positive : 0 < result.2.1 := by
    by_contra none
    have fresh : sending.framePtr = 0 := by omega
    have same : result.2.1 - sending.framePtr = 0 := by omega
    rw [same, Memory.read_zero, QuoteBytes.escapeAll_nil, List.append_nil] at out
    have full := stopped (.inr (by unfold Frame.frameSize; omega))
    have := space fresh
    rw [out] at full
    omega
  refine ⟨⟨?_, follows.holds, follows.small, short⟩, positive, stopped⟩
  have agree : (sending.queue.frameAt offset).read sending.framePtr (result.2.1 - sending.framePtr) =
      front.frame.read sending.framePtr (result.2.1 - sending.framePtr) :=
    Memory.read_congr fun cell _ upper => frameAt_agrees content (by omega)
  have joined : front.frame.read 0 sending.framePtr ++
      front.frame.read sending.framePtr (result.2.1 - sending.framePtr) = front.bytes.take result.2.1 := by
    rw [SizedFrame.bytes, Memory.read_take _ _ _ _ within,
      show result.2.1 = sending.framePtr + (result.2.1 - sending.framePtr) by omega,
      Memory.read_append, Nat.zero_add, Nat.add_sub_cancel_left]
  have stream : earlier ++ result.2.2 = Piece.encodeAll codes pieces ++
      ([codes.magic, codes.frameStart] ++ codes.escapeAll (front.bytes.take result.2.1)) := by
    rw [out, agree, ← List.append_assoc, start, ← joined, QuoteBytes.escapeAll_append]
    simp only [List.append_assoc]
  show StreamOf codes sent result.2.1 (front :: rest) (earlier ++ result.2.2)
  rw [stream]
  exact .inside pieces completed front positive within

theorem idle (follows : sending.Follows codes earlier sent pending)
    (missing : jdQueueFront sending.queue = none) : sending.framePtr = 0 := by
  have stream := follows.stream
  cases pending with
  | nil =>
    generalize earlier ++ sending.dst = bytes at stream
    generalize sending.framePtr = framePtr at stream
    cases stream
    rfl
  | cons front rest =>
    obtain ⟨offset, found, _⟩ := Holds.front_cons follows.holds
    rw [missing] at found
    cases found

theorem fill (follows : sending.Follows codes earlier sent pending)
    (found : jdQueueFront sending.queue = some offset)
    (room : ¬ (sending.framePtr = 0 ∧ usbSpace sending.dst < 4)) (filled : Bool × Sending)
    (ran : (sending.markStart codes).fill codes offset = filled) :
    ∃ front rest, pending = front :: rest ∧
      filled.2.Follows codes earlier sent (front :: rest) ∧ 0 < filled.2.framePtr ∧
      (filled.1 = true ∨ filled.2.framePtr < front.frame.frameSize → usbSpace filled.2.dst < 2) := by
  cases pending with
  | nil =>
    rw [Holds.front_nil follows.holds] at found
    cases found
  | cons front rest =>
    obtain ⟨place, first, content, _⟩ := Holds.front_cons follows.holds
    obtain rfl := Option.some.inj (first.symm.trans found)
    exact ⟨front, rest, rfl, fill_front follows (fun fresh => by omega) content ran⟩

/-- A frame whose start is out stays inside its own bytes. -/
theorem framePtr_le (follows : sending.Follows codes earlier sent (front :: rest)) :
    sending.framePtr ≤ front.frame.frameSize := by
  obtain ⟨_, _, bound, _⟩ := follows.opened
  exact bound

theorem finish (follows : sending.Follows codes earlier sent (front :: rest))
    (whole : sending.framePtr = front.frame.frameSize) (room : 2 ≤ usbSpace sending.dst) :
    ∃ queue, jdQueueShift sending.queue = .ok queue ∧
      ({ sending with
        dst := sending.dst ++ [codes.magic, codes.frameEnd]
        framePtr := 0
        queue } : Sending).Follows codes earlier (sent ++ [front]) rest := by
  obtain ⟨stream, holds, small, fits⟩ := follows
  obtain ⟨queue, shifted, remaining, size, _⟩ := Holds.shift holds small
  refine ⟨queue, shifted, ?_, remaining, size.le.trans small, ?_⟩
  · generalize total : earlier ++ sending.dst = bytes at stream
    generalize place : sending.framePtr = framePtr at stream
    cases stream with
    | between => simp [Frame.frameSize, place] at whole
    | inside pieces completed front positive bound =>
      have all : front.bytes.take framePtr = front.bytes :=
        List.take_of_length_le (by simp [← whole, place])
      have closed : earlier ++ (sending.dst ++ [codes.magic, codes.frameEnd]) =
          Piece.encodeAll codes (pieces ++ [.frame front]) := by
        rw [← List.append_assoc, total, all]
        simp [Piece.encode]
      show StreamOf codes (sent ++ [front]) 0 rest (earlier ++ (sending.dst ++ _))
      rw [closed]
      exact .between _ (by simp [completed, Piece.frames])
  · simp only [usbSpace, List.length_append, List.length_cons, List.length_nil] at *
    omega

end Sending.Follows

/-- The frame loop completes some of the pending frames, in order. Space for a
log byte is left only between frames. -/
theorem sendFrames_follows (codes : QuoteBytes) (sending : Sending)
    (follows : sending.Follows codes earlier sent pending) :
    ∃ returned after more left, sendFrames codes sending = .ok (returned, after) ∧
      pending = more ++ left ∧ after.Follows codes earlier (sent ++ more) left ∧
      (2 ≤ usbSpace after.dst → after.framePtr = 0) := by
  fun_induction sendFrames codes sending generalizing sent pending with
  | case1 sending marked =>
    rename_i missing
    have gap := follows.markGap
    exact ⟨false, _, [], pending, rfl, rfl, by simpa using gap, fun _ => gap.idle missing⟩
  | case2 sending marked offset found =>
    rename_i short
    exact ⟨false, _, [], pending, rfl, rfl, by simpa using follows.markGap, fun _ => short.1⟩
  | case3 sending marked offset found room =>
    rename_i filled returned
    obtain ⟨front, rest, rfl, opened, _, stopped⟩ := follows.markGap.fill found room filled rfl
    have full := stopped (.inl returned)
    exact ⟨true, _, [], _, rfl, rfl, by simpa using opened, fun space => by omega⟩
  | case4 sending marked offset found room filled =>
    rename_i full
    obtain ⟨front, rest, rfl, opened, _, _⟩ := follows.markGap.fill found room filled rfl
    exact ⟨false, _, [], _, rfl, rfl, by simpa using opened, fun space => by omega⟩
  | case5 sending marked offset found room filled returned space =>
    rename_i fault failed
    obtain ⟨front, rest, rfl, opened, _, stopped⟩ := follows.markGap.fill found room filled rfl
    have bound := opened.framePtr_le
    obtain ⟨queue, shifted, _⟩ := opened.finish (by omega) (by omega)
    cases failed.symm.trans shifted
  | case6 sending marked offset found room filled returned space queue =>
    rename_i shifted ih
    obtain ⟨front, rest, rfl, opened, _, stopped⟩ := follows.markGap.fill found room filled rfl
    have bound := opened.framePtr_le
    obtain ⟨next, done, closed⟩ := opened.finish (by omega) (by omega)
    obtain rfl := Except.ok.inj (shifted.symm.trans done)
    obtain ⟨last, after, more, left, ran, rfl, final, between⟩ := ih closed
    exact ⟨last, after, front :: more, left, ran, rfl, by simpa using final, between⟩

/-- Log text is added as pieces of its own. -/
theorem sendSerial_adds (codes : QuoteBytes) (log : DmesgLog) (serial : SerialBuffer)
    (dst : List UInt8) (stream : StreamOf codes sent framePtr pending (earlier ++ dst))
    (between : 2 ≤ usbSpace dst → framePtr = 0) (fits : dst.length ≤ 64) :
    StreamOf codes sent framePtr pending (earlier ++ (sendSerial codes log serial dst).2) ∧
      (sendSerial codes log serial dst).2.length ≤ 64 := by
  have add : ∀ (dst : List UInt8) (b : UInt8), usbSpace dst ≥ 2 →
      (2 ≤ usbSpace dst → framePtr = 0) →
      StreamOf codes sent framePtr pending (earlier ++ dst) →
      StreamOf codes sent framePtr pending (earlier ++ (dst ++ codes.escape b)) := by
    intro dst b room between stream
    obtain rfl := between room
    have added := stream.add (.text b) rfl
    rwa [List.append_assoc] at added
  fun_induction sendSerial codes log serial dst with
  | case1 serial dst room refilled empty => exact ⟨stream, fits⟩
  | case2 serial dst room refilled more b moved =>
    rename_i magic ih
    have longer := add dst b room between stream
    rw [show codes.escape b = [codes.magic, codes.literalMagic] from if_pos magic] at longer
    refine ih longer (fun _ => between room) ?_
    simp only [usbSpace, List.length_append, List.length_cons, List.length_nil] at *
    omega
  | case3 serial dst room refilled more b moved =>
    rename_i plain ih
    have longer := add dst b room between stream
    rw [show codes.escape b = [b] from if_neg plain] at longer
    refine ih longer (fun _ => between room) ?_
    simp only [usbSpace, List.length_append, List.length_cons, List.length_nil] at *
    omega
  | case4 serial dst full => exact ⟨stream, fits⟩

/-- The sender between two calls: all pulls together are `output`, which
completes `sent`, and the queue stores `pending`. -/
structure UsbTx.Follows (codes : QuoteBytes) (output : List UInt8) (sent pending : List SizedFrame)
    (tx : UsbTx) : Prop where
  active : tx.panicMode = 0
  stored : ∃ queue, tx.queue = some queue ∧ Holds queue (pending.map SizedFrame.record) ∧
    queue.size ≤ 65535
  stream : StreamOf codes sent tx.framePtr pending output

namespace UsbTx.Follows

variable {codes : QuoteBytes} {tx : UsbTx}

/-- A pull returns at most 64 bytes, and they continue the stream. -/
theorem pull (follows : tx.Follows codes output sent pending) (log : DmesgLog) :
    ∃ after bytes more left, jdUsbPull codes log tx = .ok (after, bytes) ∧ bytes.length ≤ 64 ∧
      pending = more ++ left ∧ after.Follows codes (output ++ bytes) (sent ++ more) left := by
  obtain ⟨queue, found, holds, small⟩ := follows.stored
  have start : ({ framePtr := tx.framePtr, frameGap := tx.frameGap, queue, dst := [] } : Sending).Follows
      codes output sent pending :=
    ⟨by simpa using follows.stream, holds, small, Nat.zero_le _⟩
  obtain ⟨returned, after, more, left, ran, rfl, final, between⟩ := sendFrames_follows codes _ start
  unfold jdUsbPull
  rw [if_neg (not_not.mpr follows.active), found]
  dsimp only
  rw [ran]
  dsimp only
  split
  · obtain ⟨longer, short⟩ := sendSerial_adds codes log
      ⟨tx.serialBufPtr, tx.serialBufLen, tx.serialBuf, tx.dmesgPtr⟩ after.dst final.stream between
      final.fits
    exact ⟨_, _, more, left, rfl, short, rfl, follows.active, ⟨_, rfl, final.holds, final.small⟩, longer⟩
  · exact ⟨_, _, more, left, rfl, final.fits, rfl, follows.active, ⟨_, rfl, final.holds, final.small⟩,
      final.stream⟩

end UsbTx.Follows

/-- Frames queued behind the front do not change the stream. -/
theorem StreamOf.queue {codes : QuoteBytes} (stream : StreamOf codes sent framePtr pending bytes)
    (later : List SizedFrame) : StreamOf codes sent framePtr (pending ++ later) bytes := by
  cases stream with
  | between pieces completed => exact .between pieces completed
  | inside pieces completed front positive bound => exact .inside pieces completed front positive bound

/-- A push is refused with nothing changed, or queues the frame behind the others. -/
theorem UsbTx.Follows.push {codes : QuoteBytes} {tx : UsbTx}
    (follows : tx.Follows codes output sent pending) (sized : SizedFrame) :
    ∃ ret after, pushUsbQueue tx sized.frame = .ok (ret, after) ∧
      after.Follows codes output sent (if ret = 0 then pending ++ [sized] else pending) := by
  obtain ⟨queue, found, holds, small⟩ := follows.stored
  simp only [pushUsbQueue, found]
  rcases Holds.push holds small sized.lower sized.upper with
    ⟨_, next, pushed, accepted⟩ | ⟨_, ret, code, pushed, _⟩
  · rw [pushed]
    refine ⟨0, _, rfl, follows.active, ⟨next, rfl, ?_, accepted.size.le.trans small⟩, ?_⟩
    · rw [if_pos rfl, List.map_append]
      exact accepted.holds
    · exact follows.stream.queue [sized]
  · rw [pushed]
    refine ⟨ret, _, rfl, follows.active, ⟨queue, rfl, ?_, small⟩, ?_⟩
    · rwa [if_neg code]
    · rw [if_neg code]
      exact follows.stream

end Jacdac
