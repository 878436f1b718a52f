import Jacdac.Usb.Stream

/-! The codes of a stream: what its magic bytes stand before. An escaped magic byte is
none of them. -/

namespace Jacdac

namespace QuoteBytes

/-- The codes of a stream; the flag says that a magic byte is just before it. -/
def marksFrom (codes : QuoteBytes) : Bool → List UInt8 → List UInt8
  | _, [] => []
  | false, byte :: rest => marksFrom codes (byte = codes.magic) rest
  | true, byte :: rest => if byte = codes.literalMagic then marksFrom codes false rest else byte :: marksFrom codes false rest

/-- Whether a stream ends with a magic byte that something has to follow. -/
def quoting (codes : QuoteBytes) : Bool → List UInt8 → Bool
  | quoted, [] => quoted
  | false, byte :: rest => quoting codes (byte = codes.magic) rest
  | true, _ :: rest => quoting codes false rest

def marks (codes : QuoteBytes) (stream : List UInt8) : List UInt8 := codes.marksFrom false stream

/-- No code is cut at the end of the stream. -/
def Settled (codes : QuoteBytes) (stream : List UInt8) : Prop := codes.quoting false stream = false

/-- The number of gap markers in a stream. -/
def gaps (codes : QuoteBytes) (stream : List UInt8) : Nat := (codes.marks stream).count codes.frameGap

/-- No gap marker stands between a start marker and an end marker. -/
def Outside (codes : QuoteBytes) : Bool → List UInt8 → Prop
  | _, [] => True
  | opened, mark :: rest => (mark = codes.frameGap → opened = false) ∧
    Outside codes (mark = codes.frameStart ∨ (opened ∧ mark ≠ codes.frameEnd)) rest

def untilStart (codes : QuoteBytes) (marks : List UInt8) : List UInt8 := marks.takeWhile (· ≠ codes.frameStart)

variable (codes : QuoteBytes) {first second : List UInt8}

theorem marksFrom_append (quoted : Bool) (first second : List UInt8) :
    codes.marksFrom quoted (first ++ second) =
      codes.marksFrom quoted first ++ codes.marksFrom (codes.quoting quoted first) second := by
  induction first generalizing quoted with
  | nil => rfl
  | cons byte rest ih =>
    cases quoted with
    | false => exact ih _
    | true =>
      rw [List.cons_append, marksFrom, marksFrom, quoting]
      split
      · exact ih false
      · exact congrArg (byte :: ·) (ih false)

theorem quoting_append (quoted : Bool) (first second : List UInt8) :
    codes.quoting quoted (first ++ second) = codes.quoting (codes.quoting quoted first) second := by
  induction first generalizing quoted with
  | nil => rfl
  | cons byte rest ih => cases quoted <;> exact ih _

variable {codes}

theorem marks_append (settled : codes.Settled first) (second : List UInt8) :
    codes.marks (first ++ second) = codes.marks first ++ codes.marks second := by
  rw [marks, marksFrom_append, settled]
  rfl

theorem Settled.append (settled : codes.Settled first) (other : codes.Settled second) :
    codes.Settled (first ++ second) := by
  rw [Settled, quoting_append, settled]
  exact other

theorem gaps_append (settled : codes.Settled first) (second : List UInt8) :
    codes.gaps (first ++ second) = codes.gaps first + codes.gaps second := by
  rw [gaps, marks_append settled, List.count_append]
  rfl

theorem untilStart_mem (found : mark ∈ codes.untilStart first) (second : List UInt8) :
    mark ∈ codes.untilStart (first ++ second) := by
  unfold untilStart at found ⊢
  rw [List.takeWhile_append]
  split
  · exact List.mem_append_left _ ((List.takeWhile_prefix _).subset found)
  · exact found

theorem untilStart_behind (none_ : codes.frameStart ∉ first) (found : mark ∈ codes.untilStart second) :
    mark ∈ codes.untilStart (first ++ second) := by
  unfold untilStart at found ⊢
  rw [List.takeWhile_append_of_pos]
  · exact List.mem_append_right _ found
  · intro other member
    refine decide_eq_true ?_
    rintro rfl
    exact none_ member

theorem settled_nil (codes : QuoteBytes) : codes.Settled [] := rfl

theorem settled_marker (codes : QuoteBytes) (code : UInt8) : codes.Settled [codes.magic, code] := by
  simp [Settled, quoting]

theorem marks_marker (other : code ≠ codes.literalMagic) : codes.marks [codes.magic, code] = [code] := by
  simp [marks, marksFrom, other]

theorem settled_escape (codes : QuoteBytes) (byte : UInt8) : codes.Settled (codes.escape byte) := by
  unfold escape
  split
  · exact codes.settled_marker _
  · rename_i plain
    simp [Settled, quoting, plain]

theorem marks_escape (codes : QuoteBytes) (byte : UInt8) : codes.marks (codes.escape byte) = [] := by
  unfold escape
  split
  · simp [marks, marksFrom]
  · simp [marks, marksFrom]

theorem settled_escapeAll (codes : QuoteBytes) (bytes : List UInt8) : codes.Settled (codes.escapeAll bytes) := by
  induction bytes with
  | nil => rfl
  | cons byte rest ih => exact (codes.settled_escape byte).append ih

theorem marks_escapeAll (codes : QuoteBytes) (bytes : List UInt8) : codes.marks (codes.escapeAll bytes) = [] := by
  induction bytes with
  | nil => rfl
  | cons byte rest ih =>
    rw [escapeAll_cons, marks_append (codes.settled_escape byte), marks_escape, ih, List.nil_append]

/-- The codes are different from each other. -/
theorem codes_ne (codes : QuoteBytes) :
    codes.frameGap ≠ codes.literalMagic ∧ codes.frameStart ≠ codes.literalMagic ∧
      codes.frameEnd ≠ codes.literalMagic ∧ codes.frameStart ≠ codes.frameGap ∧ codes.frameEnd ≠ codes.frameGap ∧
      codes.frameEnd ≠ codes.frameStart := by
  have distinct := codes.distinct
  simp only [List.nodup_cons, List.mem_cons, not_or] at distinct
  obtain ⟨_, literal, _, _, gap, start, _⟩ := distinct
  exact ⟨Ne.symm literal.2.2.1, Ne.symm literal.2.2.2.1, Ne.symm literal.2.2.2.2.1, Ne.symm gap.1, Ne.symm gap.2.1,
    Ne.symm start.1⟩

end QuoteBytes

namespace Piece

variable {codes : QuoteBytes}

theorem settled_encode (codes : QuoteBytes) (piece : Piece) : codes.Settled (piece.encode codes) := by
  cases piece with
  | gap => exact codes.settled_marker _
  | text byte => exact codes.settled_escape byte
  | frame sized => exact ((codes.settled_marker _).append (codes.settled_escapeAll _)).append (codes.settled_marker _)

theorem settled_encodeAll (codes : QuoteBytes) (pieces : List Piece) : codes.Settled (encodeAll codes pieces) := by
  induction pieces with
  | nil => rfl
  | cons piece rest ih => exact (piece.settled_encode codes).append ih

/-- Whole pieces have their gap markers outside frames, and leave no frame open. -/
theorem outside_encodeAll (pieces : List Piece) (outside : codes.Outside false (codes.marks rest)) :
    codes.Outside false (codes.marks (encodeAll codes pieces ++ rest)) := by
  obtain ⟨gap, start, last, gapStart, gapEnd, endStart⟩ := codes.codes_ne
  induction pieces with
  | nil => exact outside
  | cons piece others ih =>
    rw [encodeAll_cons, List.append_assoc, QuoteBytes.marks_append (piece.settled_encode codes)]
    cases piece with
    | gap =>
      rw [encode, QuoteBytes.marks_marker gap]
      exact ⟨fun _ => rfl, by simpa [Ne.symm gapStart] using ih⟩
    | text byte =>
      rw [encode, codes.marks_escape]
      exact ih
    | frame sized =>
      rw [encode, QuoteBytes.marks_append ((codes.settled_marker _).append (codes.settled_escapeAll _)),
        QuoteBytes.marks_append (codes.settled_marker _), codes.marks_escapeAll, QuoteBytes.marks_marker start,
        QuoteBytes.marks_marker last]
      refine ⟨fun _ => rfl, fun same => absurd same gapEnd, ?_⟩
      simpa [endStart] using ih

end Piece

theorem StreamOf.settled {codes : QuoteBytes} (stream : StreamOf codes sent framePtr pending bytes) :
    codes.Settled bytes := by
  cases stream with
  | between pieces completed => exact Piece.settled_encodeAll codes pieces
  | inside pieces completed front positive bound =>
    exact (Piece.settled_encodeAll codes pieces).append
      ((codes.settled_marker _).append (codes.settled_escapeAll _))

/-- In the stream of a sender no gap marker stands inside a frame. -/
theorem StreamOf.outside {codes : QuoteBytes} (stream : StreamOf codes sent framePtr pending bytes) :
    codes.Outside false (codes.marks bytes) := by
  cases stream with
  | between pieces completed =>
    have whole : codes.Outside false (codes.marks (Piece.encodeAll codes pieces ++ [])) :=
      Piece.outside_encodeAll pieces trivial
    rwa [List.append_nil] at whole
  | inside pieces completed front positive bound =>
    refine Piece.outside_encodeAll pieces ?_
    rw [QuoteBytes.marks_append (codes.settled_marker _), codes.marks_escapeAll,
      QuoteBytes.marks_marker codes.codes_ne.2.1]
    exact ⟨fun _ => rfl, trivial⟩

end Jacdac
