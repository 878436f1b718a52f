import Jacdac.Text.PrintfRun

/-! What `jd_vsprintf` leaves in its destination, for every size of it. -/

namespace Jacdac

namespace Text

section Loop

variable {config : PrintfConfig} {reached after : List UInt8 → PrintfCtx → Memory → Prop} {printf : Printf}

/-- The loop hands over the literal text and the conversions in order, and the text behind the last one always. -/
theorem Keeps.loop (keeps : Keeps config reached) (writes : Writes config reached after)
    (full : formatText config rest args = some more) (held : reached done printf.ctx printf.memory) {format : List UInt8}
    (place : format.drop ahead = rest) (inside : ahead ≤ format.length)
    (short : done.length + ahead + more.length + 1 < 2147483648) :
    ∃ final, vsprintfLoop config format ahead rest args printf = some final ∧
      after (done ++ format.take ahead ++ more) final.ctx final.memory ∧
      ∀ cell, config.bufSize ≤ cell → final.buf cell = printf.buf cell := by
  induction size : rest.length using Nat.strong_induction_on generalizing rest args more done printf format ahead with
  | _ size ih =>
    have count := @i32_count ahead (by omega)
    have last (literal : more = []) : ∃ final, writeN config printf format (i32 ahead) = some final ∧
        after (done ++ format.take ahead ++ more) final.ctx final.memory ∧
        ∀ cell, config.bufSize ≤ cell → final.buf cell = printf.buf cell := by
      obtain ⟨ctx, memory, wrote, kept⟩ := writes printf done format ahead inside held (by omega)
      rw [literal, List.append_nil, count, wrote]
      exact ⟨_, rfl, kept, fun _ _ => rfl⟩
    cases rest with
    | nil =>
      rw [formatText] at full
      rw [vsprintfLoop]
      exact last (Option.some.inj full).symm
    | cons c rest =>
      rw [formatText] at full
      rw [vsprintfLoop]
      rw [List.length_cons] at size
      by_cases nul : c = 0
      · rw [if_pos nul] at full ⊢
        exact last (Option.some.inj full).symm
      · rw [if_neg nul] at full ⊢
        by_cases percent : c = 37
        · rw [if_pos percent] at full ⊢
          cases converted : convertText config rest args with
          | none =>
            rw [converted] at full
            cases full
          | some result =>
            obtain ⟨text, used, others⟩ := result
            rw [converted] at full
            obtain ⟨tail, fullTail, rfl⟩ := Option.map_eq_some_iff.mp full
            rw [List.length_append] at short
            have taken : (format.take ahead).length = ahead := by
              rw [List.length_take]
              omega
            obtain ⟨ctx, memory, wrote, literal⟩ := keeps printf done format ahead inside held (by omega)
            obtain ⟨direct, buffered, next, rfl, conv, kept, holds⟩ := @Keeps.convert config reached { printf with ctx, memory }
              _ text rest args used others keeps literal converted (by rw [List.length_append]; omega)
            rw [List.length_append] at short
            obtain ⟨ctx', memory', flushed, whole⟩ := @Keeps.whole _ _ next _ buffered keeps kept (by
              rw [List.length_append, List.length_append]; omega)
            obtain ⟨final, looped, all, same⟩ := @ih (rest.drop used).length (by rw [List.length_drop]; omega)
              { next with ctx := ctx', memory := memory' } (rest.drop used) others tail _ 0 fullTail whole (rest.drop used) rfl
              (Nat.zero_le _) (by simp only [List.length_append]; omega) rfl
            refine ⟨final, ?_, ?_, fun cell beyond => (same cell beyond).trans (holds.outside cell beyond)⟩
            · rw [count, wrote]
              dsimp only
              rw [conv]
              dsimp only
              rw [writeBuf_holds holds, flushed]
              exact looped
            · rw [List.take_zero, List.append_nil] at all
              simpa only [List.append_assoc] using all
        · rw [if_neg percent] at full ⊢
          obtain ⟨tail, fullTail, rfl⟩ := Option.map_eq_some_iff.mp full
          rw [List.length_cons] at short
          have next : format.drop (ahead + 1) = rest := by rw [← List.drop_drop, place, List.drop_one, List.tail_cons]
          have longer : ahead + 1 ≤ format.length := by
            have left := congrArg List.length place
            rw [List.length_drop, List.length_cons] at left
            omega
          obtain ⟨final, looped, all, same⟩ := ih rest.length (by omega) fullTail held next longer (by omega) rfl
          have literal : format.take (ahead + 1) = format.take ahead ++ [c] := by
            have split := @List.take_add _ format ahead 1
            rw [place] at split
            exact split
          rw [literal] at all
          refine ⟨final, looped, ?_, same⟩
          simpa only [List.append_assoc, List.singleton_append] using all

end Loop

section Destination

variable {config : PrintfConfig} {base : Memory} {dst size : Nat} {text : List UInt8}

/-- As much of the text as there is room for, and a NUL. -/
def truncated (base : Memory) (dst size : Nat) (text : List UInt8) : Memory :=
  if size = 0 then base else base.write dst (text.take (size - 1) ++ [0])

/-- The cursor is behind the text, wherever the destination ends. -/
structure Cursor (dst size : Nat) (text : List UInt8) (ctx : PrintfCtx) : Prop where
  place : ctx.dst = dst + text.length
  ending : ctx.dstend = dst + size

/-- Before the first piece there may be no NUL yet. -/
def Printing (base : Memory) (dst size : Nat) (text : List UInt8) (ctx : PrintfCtx) (memory : Memory) : Prop :=
  Cursor dst size text ctx ∧ (memory = truncated base dst size text ∨ (text = [] ∧ memory = base))

def Printed (base : Memory) (dst size : Nat) (text : List UInt8) (ctx : PrintfCtx) (memory : Memory) : Prop :=
  Cursor dst size text ctx ∧ memory = truncated base dst size text

theorem Cursor.moved {ctx : PrintfCtx} (cursor : Cursor dst size text ctx) {src : List UInt8} {count : Nat}
    (inside : count ≤ src.length) (ulen : Nat) :
    Cursor dst size (text ++ src.take count) { ctx with dst := ctx.dst + count, ulen } where
  place := by
    have taken : (src.take count).length = count := by
      rw [List.length_take]
      omega
    dsimp only
    rw [cursor.place, List.length_append, taken]
    omega
  ending := cursor.ending

/-- A piece behind the end of the destination. -/
theorem truncated_full (full : size ≤ text.length) (more : List UInt8) :
    truncated base dst size (text ++ more) = truncated base dst size text := by
  unfold truncated
  rw [List.take_append_of_le_length (by omega)]

/-- A piece that starts inside it. -/
theorem truncated_more (room : text.length < size) (more : List UInt8) :
    (truncated base dst size text).write (dst + text.length) (more.take (size - 1 - text.length) ++ [0]) =
      truncated base dst size (text ++ more) := by
  have some : more.take (size - 1 - text.length) ++ [0] ≠ [] := by simp
  unfold truncated
  have whole : text.take (size - 1) = text := List.take_of_length_le (by omega)
  rw [if_neg (by omega), if_neg (by omega), List.take_append, whole, Memory.write_extend base dst text 0 some,
    List.append_assoc]

theorem truncated_first (room : 0 < size) (more : List UInt8) :
    base.write dst (more.take (size - 1) ++ [0]) = truncated base dst size more := (if_neg (by omega)).symm

/-- What `write_n` stores at the cursor. -/
theorem writeN_eq {printf : Printf} (cursor : Cursor dst size text printf.ctx) (small : size < 2147483648)
    {src : List UInt8} {count : Nat} (inside : count ≤ src.length) (short : text.length + count + 1 < 2147483648) :
    ∃ ctx, Cursor dst size (text ++ src.take count) ctx ∧ writeN config printf src (count : Nat) = some { printf with
      ctx
      memory := if text.length < size then
          printf.memory.write (dst + text.length) ((src.take count).take (size - 1 - text.length) ++ [0])
        else printf.memory } := by
  have left : i32 (printf.ctx.dstend - printf.ctx.dst) = (size : Int) - text.length := by
    rw [cursor.place, cursor.ending, i32_eq (by omega)]
    omega
  obtain ⟨ulen, counted⟩ : ∃ ulen, (if config.advanced then
      u32 (printf.ctx.ulen + (src.take (count : Int).toNat).countP startsChar) else printf.ctx.ulen) = ulen := ⟨_, rfl⟩
  unfold writeN
  dsimp only
  rw [left, counted]
  refine ⟨_, cursor.moved inside ulen, ?_⟩
  by_cases room : text.length < size
  · have trimmed : (if (count : Int) ≥ (size : Int) - text.length then (size : Int) - text.length - 1 else count) =
        (min count (size - 1 - text.length) : Nat) := by
      split <;> omega
    have taken : (src.take (min count (size - 1 - text.length))).length = min count (size - 1 - text.length) := by
      rw [List.length_take]
      omega
    have start : printf.ctx.dst.toNat = dst + text.length := by
      rw [cursor.place]
      omega
    have final : (printf.ctx.dst + (min count (size - 1 - text.length) : Nat)).toNat =
        dst + text.length + (src.take (min count (size - 1 - text.length))).length := by
      rw [cursor.place, taken]
      omega
    rw [if_pos (by omega), trimmed, if_neg (by omega), if_pos room, Int.toNat_natCast, start, final, Memory.write_append,
      List.take_take, Nat.min_comm]
  · rw [if_neg (by omega), if_neg room]

theorem printing_writes (small : size < 2147483648) : Writes config (Printing base dst size) (Printed base dst size) := by
  intro printf text src count inside ⟨cursor, content⟩ short
  obtain ⟨ctx, moved, wrote⟩ := @writeN_eq config dst size text printf cursor small src count inside short
  refine ⟨ctx, _, wrote, moved, ?_⟩
  by_cases room : text.length < size
  · rw [if_pos room]
    rcases content with written | ⟨rfl, untouched⟩
    · rw [written, truncated_more room]
    · rw [untouched, List.length_nil, Nat.add_zero, Nat.sub_zero, truncated_first (by omega), List.nil_append]
  · rw [if_neg room, truncated_full (by omega)]
    rcases content with written | ⟨rfl, untouched⟩
    · exact written
    · rw [untouched, truncated, if_pos (by rw [List.length_nil] at room; omega)]

theorem printing_keeps (small : size < 2147483648) : Keeps config (Printing base dst size) := by
  intro printf text src count inside held short
  obtain ⟨ctx, memory, wrote, cursor, written⟩ := printing_writes small printf text src count inside held short
  exact ⟨ctx, memory, wrote, cursor, .inl written⟩

/-- In a destination of 2 GiB or more the first cell is never written. -/
def Skipping (base : Memory) (dst size : Nat) (text : List UInt8) (ctx : PrintfCtx) (memory : Memory) : Prop :=
  Cursor dst size text ctx ∧ memory dst = base dst

theorem skipping_keeps (large : 2147483648 ≤ size) (word : size < 4294967296) : Keeps config (Skipping base dst size) := by
  intro printf text src count inside ⟨cursor, untouched⟩ short
  obtain ⟨left, same⟩ : ∃ left, i32 (printf.ctx.dstend - printf.ctx.dst) = left := ⟨_, rfl⟩
  obtain ⟨ulen, counted⟩ : ∃ ulen, (if config.advanced then
      u32 (printf.ctx.ulen + (src.take (count : Int).toNat).countP startsChar) else printf.ctx.ulen) = ulen := ⟨_, rfl⟩
  unfold writeN
  dsimp only
  rw [same, counted]
  have moved := cursor.moved inside ulen
  by_cases room : left > 0
  · -- the sign of the difference is right again only behind the start
    have behind : 0 < text.length := by
      rw [cursor.place, cursor.ending] at same
      unfold i32 at same
      omega
    have start : dst < printf.ctx.dst.toNat := by
      rw [cursor.place]
      omega
    obtain ⟨srctrimmed, trimmed⟩ : ∃ srctrimmed, (if (count : Int) ≥ left then left - 1 else count) = srctrimmed := ⟨_, rfl⟩
    have positive : 0 ≤ srctrimmed := by
      rw [← trimmed]
      split <;> omega
    rw [if_pos room, trimmed, if_neg (by omega)]
    refine ⟨_, _, rfl, moved, ?_⟩
    rw [Memory.write_outside (.inl (by omega)), Memory.write_outside (.inl start), untouched]
  · rw [if_neg room]
    exact ⟨_, _, rfl, moved, untouched⟩

/-- What a call returns and leaves in memory when it prints a text. -/
structure Prints (dst size : Nat) (text : List UInt8) (before : Memory) (ret : Int) (after : Memory) : Prop where
  returned : ret = text.length + 1
  outside : ∀ cell, cell < dst ∨ dst + size ≤ cell → after cell = before cell
  content : 0 < size → after.read dst (min text.length (size - 1) + 1) = text.take (size - 1) ++ [0]

theorem truncated_length (text : List UInt8) (size : Nat) : (text.take (size - 1) ++ [0]).length = min text.length (size - 1) + 1 := by
  rw [List.length_append, List.length_take, List.length_singleton, Nat.min_comm]

theorem Prints.truncated (base : Memory) (dst size : Nat) (text : List UInt8) :
    Prints dst size text base (text.length + 1) (truncated base dst size text) where
  returned := rfl
  outside := by
    have length := truncated_length text size
    intro cell outside
    unfold Text.truncated
    split
    · rfl
    · exact Memory.write_outside (by omega)
  content := by
    intro room
    rw [Text.truncated, if_neg (by omega)]
    exact Memory.read_write_block (truncated_length text size)

theorem jdVsprintf_eq {loop : Printf}
    (looped : vsprintfLoop config format 0 format args
      ⟨⟨dst, dst + (dstsize : UInt32).toNat, 0⟩, memory, buf⟩ = some loop) :
    jdVsprintf config dst dstsize format args memory buf = some (i32 (loop.ctx.dst - dst + 1), loop) := by
  rw [jdVsprintf, jdVsprintfExt]
  dsimp only
  rw [looped]
  rfl

/-- A call within the range of an `int`, whatever is in the destination and in `buf`. -/
theorem jdVsprintf_prints (full : formatText config format args = some text) {dstsize : UInt32}
    (small : dstsize.toNat < 2147483648) (short : text.length + 1 < 2147483648) (dst : Nat) (memory buf : Memory) :
    ∃ printf, jdVsprintf config dst dstsize format args memory buf = some ((text.length : Int) + 1, printf) ∧
      printf.memory = truncated memory dst dstsize.toNat text ∧
      ∀ cell, config.bufSize ≤ cell → printf.buf cell = buf cell := by
  have start : Printing memory dst dstsize.toNat [] ⟨dst, dst + dstsize.toNat, 0⟩ memory :=
    ⟨⟨by simp, rfl⟩, .inr ⟨rfl, rfl⟩⟩
  obtain ⟨printf, looped, ⟨cursor, content⟩, same⟩ := @Keeps.loop config _ _ ⟨⟨dst, dst + dstsize.toNat, 0⟩, memory, buf⟩
    format args text [] 0 (printing_keeps small) (printing_writes small) full start format rfl (Nat.zero_le _)
    (by rw [List.length_nil]; omega)
  rw [List.take_zero, List.append_nil, List.nil_append] at cursor content
  refine ⟨printf, ?_, content, same⟩
  have ret : i32 (printf.ctx.dst - dst + 1) = text.length + 1 := by
    rw [cursor.place, i32_eq (by omega)]
    omega
  rw [jdVsprintf_eq looped, ret]

theorem jdVsprintf_returned {printf : Printf}
    (ran : jdVsprintf config dst dstsize format args memory buf = some (ret, printf)) : ret < 2147483648 := by
  rw [jdVsprintf, jdVsprintfExt] at ran
  obtain ⟨_, whole, result⟩ := Option.map_eq_some_iff.mp ran
  obtain ⟨loop, _, rfl⟩ := Option.map_eq_some_iff.mp whole
  rw [← (Prod.mk.inj result).1]
  unfold i32
  omega

/-- A call with a destination of 2 GiB or more leaves its first cell alone. -/
theorem jdVsprintf_skips (full : formatText config format args = some text) {dstsize : UInt32}
    (large : 2147483648 ≤ dstsize.toNat) (short : text.length + 1 < 2147483648) {printf : Printf}
    (ran : jdVsprintf config dst dstsize format args memory buf = some (ret, printf)) :
    printf.memory dst = memory dst := by
  have start : Skipping memory dst dstsize.toNat [] ⟨dst, dst + dstsize.toNat, 0⟩ memory := ⟨⟨by simp, rfl⟩, rfl⟩
  have keeps : Keeps config (Skipping memory dst dstsize.toNat) := skipping_keeps large dstsize.toNat_lt
  obtain ⟨loop, looped, ⟨_, untouched⟩, _⟩ := @Keeps.loop config _ _ ⟨⟨dst, dst + dstsize.toNat, 0⟩, memory, buf⟩
    format args text [] 0 keeps keeps full start format rfl (Nat.zero_le _) (by rw [List.length_nil]; omega)
  rw [jdVsprintf_eq looped] at ran
  rw [← (Prod.mk.inj (Option.some.inj ran)).2, untouched]

/-- Whatever the text, `jd_vsprintf` writes only to its destination, returns the length of the text and one, as a call without
room does, and leaves as much of the text as fits, with a NUL, exactly when the size of the destination and that result are in
the range of an `int`. -/
theorem printf_truncates_iff (config : PrintfConfig) (dst : Nat) (dstsize : UInt32) (format : List UInt8)
    (args : List PrintfArg) (text : List UInt8) (full : formatText config format args = some text) (buf : Memory) :
    (∀ memory, ∃ ret printf sizing, jdVsprintf config dst dstsize format args memory buf = some (ret, printf) ∧
      Prints dst dstsize.toNat text memory ret printf.memory ∧
      (∀ cell, config.bufSize ≤ cell → printf.buf cell = buf cell) ∧
      jdVsprintf config 0 0 format args memory buf = some (ret, sizing) ∧ sizing.memory = memory) ↔
    dstsize.toNat < 2147483648 ∧ text.length + 1 < 2147483648 := by
  constructor
  · intro prints
    have short : text.length + 1 < 2147483648 := by
      obtain ⟨ret, printf, _, ran, printed, _⟩ := prints fun _ => 0
      have range := jdVsprintf_returned ran
      rw [printed.returned] at range
      omega
    refine ⟨Nat.lt_of_not_le fun large => ?_, short⟩
    -- a memory whose first cell is not what the call has to leave there
    obtain ⟨first, rest, content⟩ := @List.exists_cons_of_ne_nil _ (text.take (dstsize.toNat - 1) ++ [0]) (by simp)
    obtain ⟨ret, printf, _, ran, printed, _⟩ := prints fun _ => first + 1
    have untouched := jdVsprintf_skips full large short ran
    have written := printed.content (by omega)
    rw [content, Memory.read_succ, untouched] at written
    have same : first + 1 = first := (List.cons.inj written).1
    simp at same
  · rintro ⟨small, short⟩ memory
    obtain ⟨printf, ran, written, same⟩ := jdVsprintf_prints full small short dst memory buf
    obtain ⟨sizing, sized, untouched, _⟩ := @jdVsprintf_prints config text format args full 0 (by decide) short 0 memory buf
    exact ⟨_, printf, sizing, ran, written ▸ .truncated memory dst dstsize.toNat text, same, sized, untouched⟩

/-- `a%s=%d` with a string and -12 needs nine bytes and has five. -/
theorem printf_truncates_five :
    let config : PrintfConfig := ⟨false, false, false, fun _ => rfl⟩
    let args := [.string (some [98, 99, 100, 0]), .word 4294967284]
    ∀ memory, ∃ ret printf sizing,
      jdVsprintf config 0x20000000 5 [97, 37, 115, 61, 37, 100] args memory (fun _ => 0) = some (ret, printf) ∧
      Prints 0x20000000 5 [97, 98, 99, 100, 61, 45, 49, 50] memory ret printf.memory ∧
      (∀ cell, config.bufSize ≤ cell → printf.buf cell = 0) ∧
      jdVsprintf config 0 0 [97, 37, 115, 61, 37, 100] args memory (fun _ => 0) = some (ret, sizing) ∧
      sizing.memory = memory := by
  intro config args
  have full : formatText config [97, 37, 115, 61, 37, 100] args = some [97, 98, 99, 100, 61, 45, 49, 50] := by
    have name : cString [98, 99, 100, 0] = [98, 99, 100] := by decide
    have number : decimalText (i32 4294967284) = [45, 49, 50] := by decide
    simp [formatText, convertText, basicText, conversionOf, config, args, name, number]
  exact (printf_truncates_iff config 0x20000000 5 [97, 37, 115, 61, 37, 100] args _ full fun _ => 0).mpr
    ⟨by decide, by decide⟩

/-- The sign of `left` is wrong from 2 GiB on, so an empty text leaves no NUL. -/
theorem printf_large_destination :
    let config : PrintfConfig := ⟨false, false, false, fun _ => rfl⟩
    formatText config [] [] = some [] ∧
    ¬ ∃ ret printf, jdVsprintf config 0x20000000 0x80000000 [] [] (fun _ => 1) (fun _ => 0) = some (ret, printf) ∧
      Prints 0x20000000 0x80000000 [] (fun _ => 1) ret printf.memory := by
  intro config
  have full : formatText config [] [] = some [] := by rw [formatText]
  refine ⟨full, ?_⟩
  rintro ⟨ret, printf, ran, printed⟩
  have untouched := jdVsprintf_skips full (by decide) (by decide) ran
  have written := printed.content (by decide)
  rw [List.length_nil, Nat.zero_min, Nat.zero_add, Memory.read_succ, untouched] at written
  exact absurd (List.cons.inj written).1 (by decide)

/-- The pass that measures and the pass that writes agree: the allocation holds the whole text and its NUL. -/
theorem jdVsprintfA_whole (full : formatText config format args = some text) (short : text.length + 1 < 2147483648)
    (r : Nat) (memory buf : Memory) :
    ∃ printf, jdVsprintfA config r format args memory buf =
        some ((text.length : Int) + 1, (text.length : Int) + 1, printf) ∧
      printf.memory = memory.write r (text ++ [0]) := by
  obtain ⟨sizing, sized, untouched, _⟩ := @jdVsprintf_prints config text format args full 0 (by decide) short 0 memory buf
  have length : (UInt32.ofNat (((text.length : Int) + 1) % 4294967296).toNat).toNat = text.length + 1 := by
    rw [UInt32.toNat_ofNat']
    omega
  obtain ⟨printf, ran, written, _⟩ := jdVsprintf_prints full (lt_of_eq_of_lt length short) short r memory buf
  have same : sizing.memory = memory := untouched
  rw [length, truncated, if_neg (by omega), Nat.add_sub_cancel, List.take_length] at written
  refine ⟨printf, ?_, written⟩
  rw [jdVsprintfA, sized]
  dsimp only
  rw [same, ran]
  rfl

end Destination

end Text

end Jacdac
