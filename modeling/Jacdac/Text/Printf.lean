import Jacdac.Text.Decimal
import Jacdac.Text.Hex
import Mathlib.Algebra.Ring.Int.Defs

/-! `jd_vsprintf` of `jd_util.c`, without `%f` and for builds without `JD_LORA`. Strings end with a NUL or with their list. -/

namespace Jacdac

namespace Text

/-- The options of the build; only a build with `JD_ADVANCED_STRING` has 64-bit pointers. -/
structure PrintfConfig where
  /-- `JD_ADVANCED_STRING`. -/
  advanced : Bool
  /-- `JD_FREE_SUPPORTED`. -/
  freeSupported : Bool
  /-- `sizeof(uintptr_t)` is 8, else 4. -/
  wide : Bool
  narrow : advanced = false → wide = false

namespace PrintfConfig

/-- `sizeof(uintptr_t)`. -/
def pointerSize (config : PrintfConfig) : Nat := if config.wide then 8 else 4

/-- The size of `buf`. -/
def bufSize (config : PrintfConfig) : Nat := if config.advanced then 64 else config.pointerSize * 2 + 8

/-- An `int` as an `uintptr_t`. -/
def uintptr (config : PrintfConfig) (n : Int) : Nat := (n % 256 ^ config.pointerSize).toNat

end PrintfConfig

/-- The loop of `writeNum`: `i` digits are written, `left` may follow. -/
def writeNumLoop (buf n : Nat) (full : Bool) : Nat → Nat → Memory → Nat × Memory
  | 0, i, memory => (i, memory)
  | left + 1, i, memory =>
    let d := (n >>> (4 * left)) &&& 0xf
    if full ∨ d ≠ 0 ∨ left = 0 ∨ i ≠ 0 then
      writeNumLoop buf n full left (i + 1)
        (memory.write (buf + i) [UInt8.ofNat (if d > 9 then 65 + d - 10 else 48 + d)])
    else writeNumLoop buf n full left i memory

def writeNum (config : PrintfConfig) (buf n : Nat) (full : Bool) (memory : Memory) : Memory :=
  let (i, memory) := writeNumLoop buf n full (config.pointerSize * 2) 0 memory
  memory.write (buf + i) [0]

/-- `printf_ctx_t`. -/
structure PrintfCtx where
  dst : Int
  dstend : Int
  ulen : Nat

/-- The context, the memory of the caller and the local array `buf`. -/
structure Printf where
  ctx : PrintfCtx
  memory : Memory
  buf : Memory

/-- What `va_arg` finds: a 32-bit integer of either sign, a pointer value, a string or `NULL`, or bytes. -/
inductive PrintfArg where
  | word (value : UInt32)
  | pointer (value : Nat)
  | string (val : Option (List UInt8))
  | data (bytes : List UInt8)

/-- A byte that does not continue a character of UTF-8. -/
def startsChar (c : UInt8) : Bool := c &&& 0xC0 ≠ 0x80

/-- `write_n`; `none` is a `memcpy` of a negative size. -/
def writeN (config : PrintfConfig) (printf : Printf) (src : List UInt8) (srclen : Int) : Option Printf :=
  let ctx := printf.ctx
  let left := i32 (ctx.dstend - ctx.dst)
  let ulen := if config.advanced then u32 (ctx.ulen + (src.take srclen.toNat).countP startsChar) else ctx.ulen
  let next := { ctx with dst := ctx.dst + srclen, ulen }
  if left > 0 then
    let srctrimmed := if srclen ≥ left then left - 1 else srclen
    if srctrimmed < 0 then none
    else
      let memory := printf.memory.write ctx.dst.toNat (src.take srctrimmed.toNat)
      let memory := memory.write (ctx.dst + srctrimmed).toNat [0]
      some { printf with ctx := next, memory }
  else some { printf with ctx := next }

/-- The cases of the `switch`. -/
inductive Conversion where
  | c | d | u | x | p | f | star | s | percent | other

def conversionOf (c : UInt8) : Conversion :=
  if c = 99 then .c
  else if c = 100 then .d
  else if c = 117 then .u
  else if c = 120 ∨ c = 88 then .x
  else if c = 112 then .p
  else if c = 102 then .f
  else if c = 42 then .star
  else if c = 115 then .s
  else if c = 37 then .percent
  else .other

/-- `"(null)"`. -/
def nullText : List UInt8 := [40, 110, 117, 108, 108, 41]

/-- `sizeof(buf) / 2 - 1` of the larger `buf`. -/
def hexChunk : Nat := 31

/-- The loop of `%*p`; `none` when it reads past the bytes. -/
def hexChunks (config : PrintfConfig) (len : Nat) (d : List UInt8) (printf : Printf) : Option Printf :=
  if 0 < len then
    let ch := if len < hexChunk then len else hexChunk
    if d.length < ch then none
    else
      let buf := jdToHex 0 (d.take ch) printf.buf
      match writeN config { printf with buf } (buf.read 0 (ch * 2)) (ch * 2 : Nat) with
      | none => none
      | some printf => hexChunks config (len - ch) (d.drop ch) printf
  else some printf
termination_by len
decreasing_by
  unfold hexChunk
  split <;> omega

/-- Both builds write a string at once and leave `buf` empty. -/
def writeString (config : PrintfConfig) (printf : Printf) (val : Option (List UInt8)) : Option Printf :=
  let val := val.getD nullText
  match writeN config printf val (i32 (strlen val)) with
  | none => none
  | some printf => some { printf with buf := printf.buf.write 0 [0] }

/-- `0x` and the number in `buf`. -/
def hexInto (config : PrintfConfig) (n : Nat) (full : Bool) (buf : Memory) : Memory :=
  writeNum config 2 n full ((buf.write 0 [48]).write 1 [120])

/-- The `-` of `%-s`, where it is supported. The `jd_free` that it asks for is the caller's. -/
def skipFree (config : PrintfConfig) (rest : List UInt8) : Nat :=
  if config.freeSupported ∧ rest.head? = some 45 ∧ (rest.drop 1).head? = some 115 then 1 else 0

/-- The `switch` of an advanced build: how far `end` moves, and the arguments that are left. `none` is an argument of another
kind, a missing one, or a format that ends here. -/
def convertAdvanced (config : PrintfConfig) (rest : List UInt8) (args : List PrintfArg) (printf : Printf) :
    Option (Nat × List PrintfArg × Printf) :=
  let used := skipFree config rest
  match rest.drop used with
  | [] => none
  | c :: rest =>
    let used := used + 1
    let buf := printf.buf.write 1 [0]
    if c = 0 then none
    else
      match conversionOf c, args with
      | .c, .word value :: args => some (used, args, { printf with buf := buf.write 0 [value.toUInt8] })
      | .d, .word value :: args =>
        (jdItoa config.bufSize (i32 value.toNat) (some 0) buf).map fun buf => (used, args, { printf with buf })
      | .u, .word value :: args =>
        (jdUtoa config.bufSize value.toNat (some 0) buf).map fun buf => (used, args, { printf with buf })
      | .x, .word value :: args =>
        some (used, args, { printf with buf := hexInto config (config.uintptr (i32 value.toNat)) false buf })
      | .p, .pointer value :: args => some (used, args, { printf with buf := hexInto config value false buf })
      | .star, .word len :: .data d :: args =>
        match rest with
        | [] => none
        | c :: _ =>
          if c = 0 then none
          else if c = 112 then
            (hexChunks config (i32 len.toNat).toNat d { printf with buf }).map fun printf =>
              (used + 1, args, { printf with buf := printf.buf.write 0 [0] })
          else some (used + 1, args, { printf with buf := buf.write 0 [63] })
      | .s, .string val :: args => (writeString config { printf with buf } val).map fun printf => (used, args, printf)
      | .percent, args => some (used, args, { printf with buf := buf.write 0 [c] })
      | .other, args => some (used, args, { printf with buf := buf.write 0 [63] })
      | _, _ => none

/-- The `switch` of the other builds, where every conversion takes an argument of 32 bits. -/
def convertBasic (config : PrintfConfig) (rest : List UInt8) (args : List PrintfArg) (printf : Printf) :
    Option (Nat × List PrintfArg × Printf) :=
  match args, rest with
  | val :: args, c :: _ =>
    let buf := printf.buf.write 1 [0]
    if c = 0 then none
    else
      match conversionOf c, val with
      | .c, .word value => some (1, args, { printf with buf := buf.write 0 [value.toUInt8] })
      | .d, .word value =>
        (jdItoa config.bufSize (i32 value.toNat) (some 0) buf).map fun buf => (1, args, { printf with buf })
      | .x, .word value => some (1, args, { printf with buf := hexInto config value.toNat (c ≠ 120) buf })
      | .p, .pointer value => some (1, args, { printf with buf := hexInto config (u32 value) true buf })
      | .s, .string val => (writeString config { printf with buf } val).map fun printf => (1, args, printf)
      | .percent, _ => some (1, args, { printf with buf := buf.write 0 [c] })
      | .u, _ => some (1, args, { printf with buf := buf.write 0 [63] })
      | .f, _ => some (1, args, { printf with buf := buf.write 0 [63] })
      | .star, _ => some (1, args, { printf with buf := buf.write 0 [63] })
      | .other, _ => some (1, args, { printf with buf := buf.write 0 [63] })
      | _, _ => none
  | _, _ => none

def convert (config : PrintfConfig) (rest : List UInt8) (args : List PrintfArg) (printf : Printf) :
    Option (Nat × List PrintfArg × Printf) :=
  if config.advanced then convertAdvanced config rest args printf else convertBasic config rest args printf

/-- `WRITEN(buf, strlen(buf))`; `none` when the string runs out of `buf`. -/
def writeBuf (config : PrintfConfig) (printf : Printf) : Option Printf :=
  match strlenLoop printf.buf 0 config.bufSize 0 with
  | none => none
  | some length => writeN config printf (printf.buf.read 0 length) length

/-- The loop of `jd_vsprintf_ext`: `format`, how far `end` is ahead of it, and what stands at `end`. -/
def vsprintfLoop (config : PrintfConfig) (format : List UInt8) (ahead : Nat) (rest : List UInt8) (args : List PrintfArg)
    (printf : Printf) : Option Printf :=
  match rest with
  | [] => writeN config printf format (i32 ahead)
  | c :: rest =>
    if c = 0 then writeN config printf format (i32 ahead)
    else if c = 37 then
      match writeN config printf format (i32 ahead) with
      | none => none
      | some printf =>
        match convert config rest args printf with
        | none => none
        | some (used, args, printf) =>
          match writeBuf config printf with
          | none => none
          | some printf => vsprintfLoop config (rest.drop used) 0 (rest.drop used) args printf
    else vsprintfLoop config format (ahead + 1) rest args printf
termination_by rest.length
decreasing_by
  · rw [List.length_drop, List.length_cons]
    exact Nat.lt_succ_of_le (Nat.sub_le _ _)
  · exact Nat.lt_succ_self _

/-- `jd_vsprintf_ext`: its result, what it stores at `ulen`, and what is left in memory. -/
def jdVsprintfExt (config : PrintfConfig) (dst : Nat) (dstsize : UInt32) (format : List UInt8) (args : List PrintfArg)
    (memory buf : Memory) : Option (Int × Nat × Printf) :=
  let ctx : PrintfCtx := { dst := dst, dstend := dst + dstsize.toNat, ulen := 0 }
  (vsprintfLoop config format 0 format args { ctx, memory, buf }).map fun printf =>
    (i32 (printf.ctx.dst - dst + 1), u32 (printf.ctx.ulen + 1), printf)

def jdVsprintf (config : PrintfConfig) (dst : Nat) (dstsize : UInt32) (format : List UInt8) (args : List PrintfArg)
    (memory buf : Memory) : Option (Int × Printf) :=
  (jdVsprintfExt config dst dstsize format args memory buf).map fun (ret, _, printf) => (ret, printf)

/-- `jd_vsprintf_a`: the length it allocates at `r`, and what the second pass leaves there. `NULL` is 0. -/
def jdVsprintfA (config : PrintfConfig) (r : Nat) (format : List UInt8) (args : List PrintfArg) (memory buf : Memory) :
    Option (Int × Int × Printf) :=
  match jdVsprintf config 0 0 format args memory buf with
  | none => none
  | some (len, printf) =>
    (jdVsprintf config r (UInt32.ofNat (len % 4294967296).toNat) format args printf.memory buf).map fun (ret, printf) =>
      (len, ret, printf)

end Text

end Jacdac
