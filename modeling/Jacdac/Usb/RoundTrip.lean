import Jacdac.Usb.PullInvariant
import Jacdac.Usb.Push

/-! From `usb_queue` to `jd_usb_handle_frame`: whatever the interleaving of
pushes and pulls, and however the stream is cut, the host sees the completed
frames. -/

namespace Jacdac

/-- What can happen to the sender between two moments. -/
inductive UsbOp where
  | /-- `jd_usb_send_frame`. -/
    send (sized : SizedFrame)
  | /-- Any other push into `usb_queue`. -/
    respond (sized : SizedFrame)
  | /-- `jd_usb_pull`, with the log as it is at that moment. -/
    pull (log : DmesgLog)
  | /-- `JD_USB_BRIDGE_CMD_ENABLE_PACKETS` and `..._DISABLE_PACKETS`. -/
    enable (fwdEn : Bool)
  | /-- `dmesg_timer` is set. -/
    timer (dmesgTimer : Nat)

/-- The sender with the frames pushed with success and the bytes of every pull. -/
structure UsbTrace where
  tx : UsbTx
  pushed : List SizedFrame
  pulls : List (List UInt8)

namespace UsbTrace

def push (trace : UsbTrace) (sized : SizedFrame) (result : Int × UsbTx) : UsbTrace :=
  { trace with
    tx := result.2
    pushed := if result.1 = 0 then trace.pushed ++ [sized] else trace.pushed }

def step (codes : QuoteBytes) (trace : UsbTrace) : UsbOp → Except UsbFault UsbTrace
  | .send sized =>
    if trace.tx.fwdEn then (jdUsbSendFrame trace.tx sized.frame).map (trace.push sized)
    else .ok trace
  | .respond sized => (pushUsbQueue trace.tx sized.frame).map (trace.push sized)
  | .pull log => (jdUsbPull codes log trace.tx).map fun result =>
      { trace with tx := result.1, pulls := trace.pulls ++ [result.2] }
  | .enable fwdEn => .ok { trace with tx := { trace.tx with fwdEn } }
  | .timer dmesgTimer => .ok { trace with tx := { trace.tx with dmesgTimer } }

def run (codes : QuoteBytes) : UsbTrace → List UsbOp → Except UsbFault UsbTrace
  | trace, [] => .ok trace
  | trace, op :: ops =>
    match trace.step codes op with
    | .error fault => .error fault
    | .ok next => run codes next ops

/-- A sender right after `jd_usb_init`, outside panic mode. -/
def boot (queueSize : Nat) (tx : UsbTx) : UsbTrace :=
  { tx := jdUsbInit queueSize { tx with queue := none, panicMode := 0 }, pushed := [], pulls := [] }

/-- The invariant of a run. The stored frames are the pushed ones whose end
marker is not out. -/
def Sound (codes : QuoteBytes) (trace : UsbTrace) : Prop :=
  (∀ pull ∈ trace.pulls, pull.length ≤ 64) ∧
    ∃ completed pending, trace.pushed = completed ++ pending ∧
      trace.tx.Follows codes trace.pulls.flatten completed pending

theorem boot_sound (codes : QuoteBytes) (queueSize : Nat) (tx : UsbTx) :
    (boot queueSize tx).Sound codes := by
  refine ⟨nofun, [], [], rfl, rfl, ⟨jdQueueAlloc queueSize, rfl, .alloc queueSize, ?_⟩, ?_⟩
  · have : u16 queueSize < 65536 := Nat.mod_lt _ (by decide)
    exact Nat.le_of_lt_succ this
  · exact .between [] rfl

variable {codes : QuoteBytes} {trace : UsbTrace}

theorem Sound.push (sound : trace.Sound codes) (sized : SizedFrame) :
    ∃ ret after, pushUsbQueue trace.tx sized.frame = .ok (ret, after) ∧
      (trace.push sized (ret, after)).Sound codes := by
  obtain ⟨short, completed, pending, total, follows⟩ := sound
  obtain ⟨ret, after, pushed, next⟩ := follows.push sized
  refine ⟨ret, after, pushed, short, completed, _, ?_, next⟩
  rw [UsbTrace.push, total]
  dsimp only
  split <;> simp

/-- Every operation succeeds and keeps the invariant. -/
theorem Sound.step (sound : trace.Sound codes) (op : UsbOp) :
    ∃ next, trace.step codes op = .ok next ∧ next.Sound codes := by
  cases op with
  | send sized =>
    simp only [UsbTrace.step, jdUsbSendFrame]
    split
    · obtain ⟨ret, after, pushed, kept⟩ := sound.push sized
      rw [pushed]
      obtain ⟨short, completed, pending, total, active, stored, stream⟩ := kept
      exact ⟨_, rfl, short, completed, pending, total, active, stored, stream⟩
    · exact ⟨trace, rfl, sound⟩
  | respond sized =>
    obtain ⟨ret, after, pushed, kept⟩ := sound.push sized
    simp only [UsbTrace.step, pushed]
    exact ⟨_, rfl, kept⟩
  | pull log =>
    obtain ⟨short, completed, pending, total, follows⟩ := sound
    obtain ⟨after, bytes, more, left, pulled, fits, rfl, next⟩ := follows.pull log
    simp only [UsbTrace.step, pulled]
    refine ⟨_, rfl, ?_, completed ++ more, left, by simp [total], by simpa using next⟩
    intro pull member
    rcases List.mem_append.mp member with early | last
    · exact short pull early
    · exact (List.mem_singleton.mp last) ▸ fits
  | enable fwdEn =>
    obtain ⟨short, completed, pending, total, active, stored, stream⟩ := sound
    exact ⟨_, rfl, short, completed, pending, total, active, stored, stream⟩
  | timer dmesgTimer =>
    obtain ⟨short, completed, pending, total, active, stored, stream⟩ := sound
    exact ⟨_, rfl, short, completed, pending, total, active, stored, stream⟩

theorem Sound.run (sound : trace.Sound codes) (ops : List UsbOp) :
    ∃ last, trace.run codes ops = .ok last ∧ last.Sound codes := by
  induction ops generalizing trace with
  | nil => exact ⟨trace, rfl, sound⟩
  | cons op ops ih =>
    obtain ⟨next, stepped, kept⟩ := sound.step op
    obtain ⟨last, ran, final⟩ := ih kept
    exact ⟨last, by simp only [UsbTrace.run, stepped, ran], final⟩

end UsbTrace

/-- Every run of the sender succeeds, with pulls of at most 64 bytes, and its
completed frames are the pushed ones that left the queue. The host, from any
state and for any chunks, handles exactly these frames, in order, except for one
call before them when it starts inside a frame with a dangling escape and the
first byte of the stream is log text equal to the end code. -/
theorem usb_frames_round_trip (codes : QuoteBytes) (queueSize : Nat) (tx : UsbTx) (ops : List UsbOp) :
    ∃ last, (UsbTrace.boot queueSize tx).run codes ops = .ok last ∧
      (∀ pull ∈ last.pulls, pull.length ≤ 64) ∧
      ∃ completed pending queue, last.pushed = completed ++ pending ∧
        last.tx.queue = some queue ∧ Holds queue (pending.map SizedFrame.record) ∧
        ∀ (handle : HandleCall → Frame) (rx : UsbRx) (chunks : List (List UInt8)),
          chunks.flatten = last.pulls.flatten →
          ((rx.pushChunks codes handle chunks).2.map fun call => (call.ptr, call.received)) =
            ((rx.stray codes chunks.flatten).map fun call => (call.ptr, call.received)) ++
              completed.map fun sized => (sized.frame.frameSize, sized.bytes) := by
  obtain ⟨last, ran, short, completed, pending, total, follows⟩ :=
    (UsbTrace.boot_sound codes queueSize tx).run ops
  obtain ⟨queue, stored, holds, _⟩ := follows.stored
  refine ⟨last, ran, short, completed, pending, queue, total, stored, holds, ?_⟩
  intro handle rx chunks same
  rw [UsbRx.pushChunks_eq, same]
  exact rx.push_stream codes handle follows.stream

/-- The codes of the USB bridge specification. -/
def bridgeCodes : QuoteBytes where
  magic := 0xfe
  literalMagic := 0xf8
  reserved := 0xf9
  serialGap := 0xfa
  frameGap := 0xfb
  frameStart := 0xfc
  frameEnd := 0xfd
  distinct := by decide
  opens := by decide

/-- A sender that only forwards the log. -/
def loggingTx : UsbTx :=
  { fwdEn := false, framePtr := 0, frameGap := 0, panicMode := 0, serialBufPtr := 0,
    serialBufLen := 0, serialBuf := fun _ => 0, queue := none, dmesgTimer := 1, dmesgPtr := 0 }

/-- No frame was pushed and one byte of log was pulled. The host, five bytes into
a frame with a dangling escape, takes it for the end of that frame. -/
theorem stray_end_handled :
    (((UsbTrace.boot 1024 loggingTx).run bridgeCodes
        [.pull { bufferSize := 256, ptr := 1, buffer := fun _ => 0xfd }]).toOption.map
      fun last => (last.pushed.length, last.pulls)) = some (0, [[0xfd]]) ∧
    (UsbRx.pushChunks bridgeCodes (fun call => call.buf) ⟨5, 0xfc, 1, fun _ => 0⟩
      [[0xfd]]).2.length = 1 := by
  constructor
  · decide +kernel
  · decide

end Jacdac
