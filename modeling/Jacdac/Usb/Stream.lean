import Jacdac.Queue.FifoInvariant

/-! The byte stream from `jd_usb_pull` to `jd_usb_push`, as a sequence of
pieces: gap markers, bytes of log text, and frames between their markers. -/

namespace Jacdac

/-- The `JD_USB_BRIDGE_QBYTE_*` codes of the specification submodule. The
`switch` over them needs different labels, and `usb_rx_state` holds the start
code while a frame is open. -/
structure QuoteBytes where
  magic : UInt8
  literalMagic : UInt8
  reserved : UInt8
  serialGap : UInt8
  frameGap : UInt8
  frameStart : UInt8
  frameEnd : UInt8
  distinct : [magic, literalMagic, reserved, serialGap, frameGap, frameStart, frameEnd].Nodup
  opens : frameStart ≠ 0

/-- A frame `jd_queue_push` takes: it is not empty and fits `jd_frame_t`. -/
structure SizedFrame where
  frame : Frame
  lower : 1 ≤ frame.size
  upper : frame.size ≤ 240

namespace SizedFrame

def record (sized : SizedFrame) : QueuedFrame := .ofFrame sized.frame sized.upper

def bytes (sized : SizedFrame) : List UInt8 := sized.frame.read 0 sized.frame.frameSize

@[simp] theorem bytes_length (sized : SizedFrame) : sized.bytes.length = sized.frame.frameSize :=
  Memory.read_length ..

theorem frameSize_le (sized : SizedFrame) : sized.frame.frameSize ≤ frameStructSize := by
  have := sized.upper
  unfold Frame.frameSize frameStructSize
  omega

end SizedFrame

namespace QuoteBytes

/-- A byte as both loops of `jd_usb_pull` send it. -/
def escape (codes : QuoteBytes) (byte : UInt8) : List UInt8 :=
  if byte = codes.magic then [codes.magic, codes.literalMagic] else [byte]

def escapeAll (codes : QuoteBytes) (bytes : List UInt8) : List UInt8 := bytes.flatMap codes.escape

@[simp] theorem escapeAll_nil (codes : QuoteBytes) : codes.escapeAll [] = [] := rfl

@[simp] theorem escapeAll_cons (codes : QuoteBytes) (byte : UInt8) (rest : List UInt8) :
    codes.escapeAll (byte :: rest) = codes.escape byte ++ codes.escapeAll rest := rfl

@[simp] theorem escapeAll_append (codes : QuoteBytes) (first second : List UInt8) :
    codes.escapeAll (first ++ second) = codes.escapeAll first ++ codes.escapeAll second :=
  List.flatMap_append

theorem escape_magic (codes : QuoteBytes) :
    codes.escape codes.magic = [codes.magic, codes.literalMagic] := if_pos rfl

theorem escape_plain {codes : QuoteBytes} (plain : byte ≠ codes.magic) :
    codes.escape byte = [byte] := if_neg plain

theorem escape_length_pos (codes : QuoteBytes) (byte : UInt8) : 1 ≤ (codes.escape byte).length := by
  unfold escape
  split <;> simp

end QuoteBytes

/-- One unit of the stream. -/
inductive Piece where
  | gap
  | text (byte : UInt8)
  | frame (sized : SizedFrame)

namespace Piece

def encode (codes : QuoteBytes) : Piece → List UInt8
  | gap => [codes.magic, codes.frameGap]
  | text byte => codes.escape byte
  | frame sized =>
    [codes.magic, codes.frameStart] ++ codes.escapeAll sized.bytes ++ [codes.magic, codes.frameEnd]

theorem encode_ne_nil (codes : QuoteBytes) (piece : Piece) : piece.encode codes ≠ [] := by
  cases piece with
  | gap => simp [encode]
  | text byte =>
    have := codes.escape_length_pos byte
    exact List.ne_nil_of_length_pos this
  | frame sized => simp [encode]

def encodeAll (codes : QuoteBytes) (pieces : List Piece) : List UInt8 := pieces.flatMap (encode codes)

@[simp] theorem encodeAll_nil (codes : QuoteBytes) : encodeAll codes [] = [] := rfl

@[simp] theorem encodeAll_cons (codes : QuoteBytes) (piece : Piece) (rest : List Piece) :
    encodeAll codes (piece :: rest) = piece.encode codes ++ encodeAll codes rest := rfl

@[simp] theorem encodeAll_append (codes : QuoteBytes) (first second : List Piece) :
    encodeAll codes (first ++ second) = encodeAll codes first ++ encodeAll codes second :=
  List.flatMap_append

def frames : Piece → List SizedFrame
  | frame sized => [sized]
  | _ => []

def allFrames (pieces : List Piece) : List SizedFrame := pieces.flatMap frames

@[simp] theorem allFrames_nil : allFrames [] = [] := rfl

@[simp] theorem allFrames_cons (piece : Piece) (rest : List Piece) :
    allFrames (piece :: rest) = piece.frames ++ allFrames rest := rfl

@[simp] theorem allFrames_append (first second : List Piece) :
    allFrames (first ++ second) = allFrames first ++ allFrames second :=
  List.flatMap_append

end Piece

/-- The stream of a sender: whole pieces that complete `sent`, then, while
`usb_frame_ptr` is in the middle of the front frame, the part of it that is out. -/
inductive StreamOf (codes : QuoteBytes) (sent : List SizedFrame) :
    Nat → List SizedFrame → List UInt8 → Prop where
  | between (pieces : List Piece) (completed : Piece.allFrames pieces = sent) :
      StreamOf codes sent 0 pending (Piece.encodeAll codes pieces)
  | inside (pieces : List Piece) (completed : Piece.allFrames pieces = sent) (front : SizedFrame)
      (positive : 0 < framePtr) (bound : framePtr ≤ front.frame.frameSize) :
      StreamOf codes sent framePtr (front :: rest) (Piece.encodeAll codes pieces ++
        ([codes.magic, codes.frameStart] ++ codes.escapeAll (front.bytes.take framePtr)))

end Jacdac
