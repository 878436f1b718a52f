import Jacdac.Usb.Stream

/-! `jd_usb_push`: the decoder of the host's side of the stream. -/

namespace Jacdac

/-- The `usb_rx_*` statics. -/
structure UsbRx where
  ptr : Nat
  state : UInt8
  wasMagic : UInt8
  buf : Frame

/-- A call of `jd_usb_handle_frame`, with `usb_rx_ptr` and `usb_rx_buf` as it sees them. -/
structure HandleCall where
  ptr : Nat
  buf : Frame

/-- The bytes received for the frame of a call. -/
def HandleCall.received (call : HandleCall) : List UInt8 := call.buf.read 0 call.ptr

namespace UsbRx

/-- `frame_error`. The accumulated bytes go to `jd_usb_serial_cb`, which ignores them. -/
def frameError (rx : UsbRx) : UsbRx := { rx with state := 0, ptr := 0 }

/-- The end of the loop body of `jd_usb_push`: a byte of the open frame, or of serial data. -/
def accept (rx : UsbRx) (c : UInt8) : UsbRx :=
  if rx.state ≠ 0 then
    if rx.ptr ≥ frameStructSize then rx.frameError
    else { rx with buf := rx.buf.write rx.ptr [c], ptr := u8 (rx.ptr + 1) }
  else rx

/-- One turn of the loop of `jd_usb_push`. `handle` is what `jd_usb_handle_frame`
leaves in `usb_rx_buf`: the loopback of a forwarded frame may set a flag in it. -/
def step (codes : QuoteBytes) (handle : HandleCall → Frame) (rx : UsbRx) (c : UInt8) :
    UsbRx × List HandleCall :=
  if rx.wasMagic ≠ 0 then
    if c = codes.magic then
      if rx.state ≠ 0 then (rx.frameError, []) else (rx.accept c, [])
    else
      let rx := { rx with wasMagic := 0 }
      if c = codes.literalMagic then (rx.accept codes.magic, [])
      else if c = codes.frameStart then
        let rx := if rx.ptr ≠ 0 then rx.frameError else rx
        ({ rx with state := c }, [])
      else if c = codes.frameEnd then
        if rx.state ≠ 0 then
          let call := ⟨rx.ptr, rx.buf⟩
          ({ rx with state := 0, ptr := 0, buf := handle call }, [call])
        else (rx, [])
      else if c = codes.reserved ∨ c = codes.serialGap ∨ c = codes.frameGap then (rx, [])
      else
        let rx := if rx.state ≠ 0 then rx.frameError else rx
        (rx.accept c, [])
  else if c = codes.magic then ({ rx with wasMagic := 1 }, [])
  else (rx.accept c, [])

/-- `jd_usb_push`, with its calls of `jd_usb_handle_frame` in order. -/
def jdUsbPush (codes : QuoteBytes) (handle : HandleCall → Frame) :
    UsbRx → List UInt8 → UsbRx × List HandleCall
  | rx, [] => (rx, [])
  | rx, c :: buf =>
    let first := rx.step codes handle c
    let later := jdUsbPush codes handle first.1 buf
    (later.1, first.2 ++ later.2)

/-- One `jd_usb_push` per chunk. -/
def pushChunks (codes : QuoteBytes) (handle : HandleCall → Frame) :
    UsbRx → List (List UInt8) → UsbRx × List HandleCall
  | rx, [] => (rx, [])
  | rx, chunk :: chunks =>
    let first := jdUsbPush codes handle rx chunk
    let later := pushChunks codes handle first.1 chunks
    (later.1, first.2 ++ later.2)

section Decoding

variable (codes : QuoteBytes) (handle : HandleCall → Frame)

theorem jdUsbPush_append (rx : UsbRx) (first second : List UInt8) :
    jdUsbPush codes handle rx (first ++ second) =
      ((jdUsbPush codes handle (jdUsbPush codes handle rx first).1 second).1,
        (jdUsbPush codes handle rx first).2 ++
          (jdUsbPush codes handle (jdUsbPush codes handle rx first).1 second).2) := by
  induction first generalizing rx with
  | nil => simp [jdUsbPush]
  | cons c first ih => simp [jdUsbPush, ih]

/-- Chunk boundaries do not matter. -/
theorem pushChunks_eq (rx : UsbRx) (chunks : List (List UInt8)) :
    pushChunks codes handle rx chunks = jdUsbPush codes handle rx chunks.flatten := by
  induction chunks generalizing rx with
  | nil => rfl
  | cons chunk chunks ih =>
    rw [List.flatten_cons, jdUsbPush_append, ← ih]
    rfl

@[simp] theorem frameError_wasMagic (rx : UsbRx) : rx.frameError.wasMagic = rx.wasMagic := rfl

@[simp] theorem accept_wasMagic (rx : UsbRx) (c : UInt8) : (rx.accept c).wasMagic = rx.wasMagic := by
  unfold accept
  split
  · split <;> rfl
  · rfl

/-- The decoder after a magic byte. -/
def quoted (rx : UsbRx) : UsbRx :=
  if rx.wasMagic = 0 then { rx with wasMagic := 1 }
  else if rx.state = 0 then rx
  else rx.frameError

theorem quoted_wasMagic (rx : UsbRx) : rx.quoted.wasMagic ≠ 0 := by
  unfold quoted
  split
  · show (1 : UInt8) ≠ 0
    decide
  · split <;> assumption

/-- A magic byte completes no frame, whatever the state. -/
theorem step_magic (rx : UsbRx) : rx.step codes handle codes.magic = (rx.quoted, []) := by
  unfold step quoted accept
  by_cases pending : rx.wasMagic = 0
  · simp [pending]
  · by_cases opened : rx.state = 0 <;> simp [pending, opened]

/-- A code behind a magic byte acts on the quoted state. -/
theorem push_marker (rx : UsbRx) (code : UInt8) :
    jdUsbPush codes handle rx [codes.magic, code] = rx.quoted.step codes handle code := by
  simp [jdUsbPush, step_magic]

variable {rx : UsbRx}

/-- The codes differ, in the form `simp` uses to pick a branch of the `switch`. -/
private theorem apart : codes.literalMagic ≠ codes.magic ∧ codes.frameGap ≠ codes.magic ∧
    codes.frameStart ≠ codes.magic ∧ codes.frameEnd ≠ codes.magic ∧
    codes.frameGap ≠ codes.literalMagic ∧ codes.frameStart ≠ codes.literalMagic ∧
    codes.frameEnd ≠ codes.literalMagic ∧ codes.frameGap ≠ codes.frameStart ∧
    codes.frameEnd ≠ codes.frameStart ∧ codes.frameGap ≠ codes.frameEnd := by
  have distinct := codes.distinct
  simp only [List.nodup_cons, List.mem_cons, List.not_mem_nil, not_or] at distinct
  grind

theorem step_literalMagic (pending : rx.wasMagic ≠ 0) :
    rx.step codes handle codes.literalMagic =
      (accept { rx with wasMagic := 0 } codes.magic, []) := by
  simp [step, pending, apart codes]

theorem step_frameGap (pending : rx.wasMagic ≠ 0) :
    rx.step codes handle codes.frameGap = ({ rx with wasMagic := 0 }, []) := by
  simp [step, pending, apart codes]

theorem step_frameStart (pending : rx.wasMagic ≠ 0) :
    rx.step codes handle codes.frameStart =
      ({ rx with wasMagic := 0, state := codes.frameStart, ptr := 0 }, []) := by
  by_cases empty : rx.ptr = 0 <;> simp [step, pending, apart codes, empty, frameError]

theorem step_frameEnd (pending : rx.wasMagic ≠ 0) (opened : rx.state ≠ 0) :
    rx.step codes handle codes.frameEnd =
      ({ rx with wasMagic := 0, state := 0, ptr := 0, buf := handle ⟨rx.ptr, rx.buf⟩ },
        [⟨rx.ptr, rx.buf⟩]) := by
  simp [step, pending, apart codes, opened]

theorem step_plain (idle : rx.wasMagic = 0) (plain : c ≠ codes.magic) :
    rx.step codes handle c = (rx.accept c, []) := by
  simp [step, idle, plain]

theorem step_calls (rx : UsbRx) (c : UInt8) :
    (rx.step codes handle c).2 =
      if rx.wasMagic ≠ 0 ∧ rx.state ≠ 0 ∧ c = codes.frameEnd then [⟨rx.ptr, rx.buf⟩] else [] := by
  obtain ⟨_, _, _, ending, _, _, literal, _, starting, _⟩ := apart codes
  by_cases stop : c = codes.frameEnd
  · subst stop
    by_cases pending : rx.wasMagic = 0
    · simp [step, pending, ending]
    · by_cases opened : rx.state = 0 <;> simp [step, pending, opened, ending, literal, starting]
  · rw [if_neg (fun all => stop all.2.2)]
    simp only [step, if_neg stop]
    split_ifs <;> rfl

/-- A plain byte settles a dangling escape. -/
theorem step_settles (plain : c ≠ codes.magic) : (rx.step codes handle c).1.wasMagic = 0 := by
  by_cases pending : rx.wasMagic = 0
  · simp [step, pending, plain]
  · simp only [step, ne_eq, pending, not_false_eq_true, if_true, if_neg plain]
    split_ifs <;> simp

theorem push_escapeAll (idle : rx.wasMagic = 0) (opened : rx.state ≠ 0)
    (room : rx.ptr + bytes.length ≤ frameStructSize) :
    jdUsbPush codes handle rx (codes.escapeAll bytes) =
      ({ rx with ptr := rx.ptr + bytes.length, buf := rx.buf.write rx.ptr bytes }, []) := by
  induction bytes generalizing rx with
  | nil => simp [jdUsbPush]
  | cons byte rest ih =>
    simp only [List.length_cons] at room
    have stored : jdUsbPush codes handle rx (codes.escape byte) =
        ({ rx with ptr := rx.ptr + 1, buf := rx.buf.write rx.ptr [byte] }, []) := by
      have inside : ¬ rx.ptr ≥ frameStructSize := by omega
      have small : u8 (rx.ptr + 1) = rx.ptr + 1 := by
        unfold u8 frameStructSize at *
        omega
      by_cases magic : byte = codes.magic
      · subst magic
        rw [QuoteBytes.escape_magic, push_marker, step_literalMagic codes handle rx.quoted_wasMagic]
        simp [quoted, idle, accept, opened, inside, small]
      · rw [QuoteBytes.escape_plain magic]
        simp [jdUsbPush, step_plain codes handle idle magic, accept, opened, inside, small]
    have later := @ih { rx with ptr := rx.ptr + 1, buf := rx.buf.write rx.ptr [byte] } idle opened
      (by show rx.ptr + 1 + rest.length ≤ _; omega)
    rw [QuoteBytes.escapeAll_cons, jdUsbPush_append, stored, later]
    have joined := Memory.write_append rx.buf rx.ptr [byte] rest
    simp only [List.length_singleton, List.singleton_append] at joined
    simp [joined, Nat.add_assoc, Nat.add_comm 1]

/-- The decoder inside a frame, after the start marker and some of its bytes. -/
def filling (rx : UsbRx) (bytes : List UInt8) : UsbRx :=
  { rx.quoted with
    wasMagic := 0
    state := codes.frameStart
    ptr := bytes.length
    buf := rx.quoted.buf.write 0 bytes }

theorem push_opened (rx : UsbRx) (room : bytes.length ≤ frameStructSize) :
    jdUsbPush codes handle rx ([codes.magic, codes.frameStart] ++ codes.escapeAll bytes) =
      (rx.filling codes bytes, []) := by
  rw [jdUsbPush_append, push_marker, step_frameStart codes handle rx.quoted_wasMagic,
    push_escapeAll codes handle rfl codes.opens (by simpa using room)]
  simp [filling]

/-- A whole frame is one call, with the frame's bytes, from any state. -/
theorem push_frame (rx : UsbRx) (sized : SizedFrame) :
    (jdUsbPush codes handle rx (Piece.encode codes (.frame sized))).1.wasMagic = 0 ∧
      (jdUsbPush codes handle rx (Piece.encode codes (.frame sized))).2.map
        (fun call => (call.ptr, call.received)) = [(sized.frame.frameSize, sized.bytes)] := by
  have room : sized.bytes.length ≤ frameStructSize := by
    rw [SizedFrame.bytes_length]
    exact sized.frameSize_le
  have opened : (rx.filling codes sized.bytes).quoted.state ≠ 0 := codes.opens
  rw [Piece.encode, jdUsbPush_append, push_opened codes handle rx room, push_marker,
    step_frameEnd codes handle (quoted_wasMagic _) opened]
  refine ⟨rfl, ?_⟩
  have received : HandleCall.received ⟨sized.bytes.length, rx.quoted.buf.write 0 sized.bytes⟩ =
      sized.bytes := Memory.read_write_self rx.quoted.buf 0 sized.bytes
  simpa [quoted, filling] using received

/-- The call a dangling escape of an open frame can produce: the first byte of
the stream is log text and reads as an end code. -/
def stray (rx : UsbRx) (stream : List UInt8) : List HandleCall :=
  if rx.wasMagic ≠ 0 ∧ rx.state ≠ 0 ∧ stream.head? = some codes.frameEnd then [⟨rx.ptr, rx.buf⟩]
  else []

theorem stray_idle (idle : rx.wasMagic = 0) (stream : List UInt8) : rx.stray codes stream = [] := by
  simp [stray, idle]

/-- Every piece leaves no escape pending, and is a call exactly when it is a frame,
up to the stray one. -/
theorem push_piece (rx : UsbRx) (piece : Piece) :
    (jdUsbPush codes handle rx (piece.encode codes)).1.wasMagic = 0 ∧
      (jdUsbPush codes handle rx (piece.encode codes)).2.map (fun call => (call.ptr, call.received)) =
        (rx.stray codes (piece.encode codes)).map (fun call => (call.ptr, call.received)) ++
          piece.frames.map (fun sized => (sized.frame.frameSize, sized.bytes)) := by
  obtain ⟨_, _, _, ending, _⟩ := apart codes
  cases piece with
  | gap =>
    rw [Piece.encode, push_marker, step_frameGap codes handle rx.quoted_wasMagic]
    simp [stray, Ne.symm ending, Piece.frames]
  | text byte =>
    by_cases magic : byte = codes.magic
    · subst magic
      rw [Piece.encode, QuoteBytes.escape_magic, push_marker,
        step_literalMagic codes handle rx.quoted_wasMagic]
      simp [stray, Ne.symm ending, Piece.frames]
    · rw [Piece.encode, QuoteBytes.escape_plain magic]
      simp only [jdUsbPush, step_settles codes handle magic, step_calls, List.append_nil,
        true_and]
      simp [stray, Piece.frames]
  | frame sized =>
    obtain ⟨settled, called⟩ := push_frame codes handle rx sized
    refine ⟨settled, ?_⟩
    rw [called]
    simp [stray, Piece.encode, Ne.symm ending, Piece.frames]

theorem stray_append (rx : UsbRx) {first : List UInt8} (present : first ≠ []) (second : List UInt8) :
    rx.stray codes (first ++ second) = rx.stray codes first := by
  simp [stray, List.head?_append_of_ne_nil _ present]

theorem push_pieces (rx : UsbRx) (pieces : List Piece) (tail : List UInt8)
    (quiet : ∀ rx, (jdUsbPush codes handle rx tail).2 = [])
    (open_ : tail.head? ≠ some codes.frameEnd) :
    (jdUsbPush codes handle rx (Piece.encodeAll codes pieces ++ tail)).2.map
        (fun call => (call.ptr, call.received)) =
      (rx.stray codes (Piece.encodeAll codes pieces ++ tail)).map
          (fun call => (call.ptr, call.received)) ++
        (Piece.allFrames pieces).map (fun sized => (sized.frame.frameSize, sized.bytes)) := by
  induction pieces generalizing rx with
  | nil => simp [quiet, stray, open_]
  | cons piece rest ih =>
    obtain ⟨settled, called⟩ := push_piece codes handle rx piece
    rw [Piece.encodeAll_cons, List.append_assoc, jdUsbPush_append, List.map_append, called, ih,
      stray_idle codes settled, stray_append codes rx (piece.encode_ne_nil codes)]
    simp

theorem push_stream (rx : UsbRx) (stream : StreamOf codes sent framePtr pending bytes) :
    (jdUsbPush codes handle rx bytes).2.map (fun call => (call.ptr, call.received)) =
      (rx.stray codes bytes).map (fun call => (call.ptr, call.received)) ++
        sent.map (fun sized => (sized.frame.frameSize, sized.bytes)) := by
  cases stream with
  | between pieces completed =>
    have calls := push_pieces codes handle rx pieces [] (fun _ => rfl) nofun
    rwa [List.append_nil, completed] at calls
  | inside pieces completed front positive bound =>
    obtain ⟨_, _, _, ending, _⟩ := apart codes
    have room : (front.bytes.take framePtr).length ≤ frameStructSize := by
      have := front.frameSize_le
      simp only [List.length_take, SizedFrame.bytes_length]
      omega
    rw [push_pieces codes handle rx pieces _ (fun rx => by rw [push_opened codes handle rx room])
      (by simpa using ending.symm), completed]

end Decoding

end UsbRx

end Jacdac
