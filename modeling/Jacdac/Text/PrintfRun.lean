import Jacdac.Text.PrintfText

/-! The pieces that `jd_vsprintf` hands to `write_n` make up the full text, whatever `write_n` does with them. -/

namespace Jacdac

namespace Text

/-- A piece takes the context and the memory of the caller from one text to the next, within the range of an `int`. -/
def Writes (config : PrintfConfig) (reached after : List UInt8 → PrintfCtx → Memory → Prop) : Prop :=
  ∀ printf text src count, count ≤ src.length → reached text printf.ctx printf.memory →
    text.length + count + 1 < 2147483648 →
    ∃ ctx memory, writeN config printf src (count : Nat) = some { printf with ctx, memory } ∧
      after (text ++ src.take count) ctx memory

def Keeps (config : PrintfConfig) (after : List UInt8 → PrintfCtx → Memory → Prop) : Prop := Writes config after after

section Pieces

variable {config : PrintfConfig} {after : List UInt8 → PrintfCtx → Memory → Prop} {printf : Printf}
  {done src text : List UInt8}

theorem Keeps.whole (keeps : Keeps config after) (held : after done printf.ctx printf.memory)
    (short : done.length + src.length + 1 < 2147483648) :
    ∃ ctx memory, writeN config printf src src.length = some { printf with ctx, memory } ∧ after (done ++ src) ctx memory := by
  have written := keeps printf done src src.length (Nat.le_refl _) held short
  rwa [List.take_length] at written

theorem cString_take (val : List UInt8) : val.take (strlen val) = cString val ∧ strlen val ≤ val.length := by
  have start : cString val <+: val := List.takeWhile_prefix _
  exact ⟨(List.prefix_iff_eq_take.mp start).symm, start.length_le⟩

theorem i32_count {count : Nat} (small : count < 2147483648) : i32 count = count := i32_eq (by omega)

theorem Keeps.writeString (keeps : Keeps config after) (held : after done printf.ctx printf.memory)
    (val : Option (List UInt8)) (short : done.length + (cString (val.getD nullText)).length + 1 < 2147483648) :
    ∃ ctx memory buf, writeString config printf val = some { ctx, memory, buf } ∧
      after (done ++ cString (val.getD nullText)) ctx memory ∧ buf = printf.buf.write 0 [0] := by
  obtain ⟨taken, inside⟩ := cString_take (val.getD nullText)
  have length : (cString (val.getD nullText)).length = strlen (val.getD nullText) := rfl
  obtain ⟨ctx, memory, wrote, kept⟩ := keeps printf done (val.getD nullText) (strlen (val.getD nullText)) inside held (by omega)
  rw [taken] at kept
  refine ⟨ctx, memory, _, ?_, kept, rfl⟩
  rw [Text.writeString, i32_count (by omega), wrote]

theorem hexText_take (d : List UInt8) {ch len : Nat} (part : ch ≤ len) :
    hexText (d.take len) = hexText (d.take ch) ++ hexText ((d.drop ch).take (len - ch)) := by
  have split := @List.take_add _ d ch (len - ch)
  rw [Nat.add_sub_cancel' part] at split
  rw [split, hexText, hexText, hexText, List.flatMap_append]

/-- The digits of a chunk, without their NUL. -/
theorem jdToHex_read {d : List UInt8} (length : d.length = ch) (buf : Memory) :
    (jdToHex 0 d buf).read 0 (ch * 2) = hexText d := by
  have digits := hexText_length d
  have whole : ((buf.write 0 (hexText d ++ [0])).read 0 (ch * 2 + 1)) = hexText d ++ [0] :=
    Memory.read_write_block (by rw [List.length_append, List.length_singleton]; omega)
  have part := congrArg (List.take (ch * 2)) whole
  rw [Memory.read_take _ _ _ _ (Nat.le_succ _), List.take_append_of_le_length (by omega), List.take_of_length_le (by omega)]
    at part
  rwa [jdToHex_eq]

theorem hexChunks_step {len ch : Nat} {d : List UInt8} {next : Printf} (more : 0 < len)
    (chosen : (if len < hexChunk then len else hexChunk) = ch) (enough : ch ≤ d.length)
    (wrote : writeN config { printf with buf := jdToHex 0 (d.take ch) printf.buf }
      ((jdToHex 0 (d.take ch) printf.buf).read 0 (ch * 2)) (ch * 2 : Nat) = some next) :
    hexChunks config len d printf = hexChunks config (len - ch) (d.drop ch) next := by
  rw [hexChunks, if_pos more]
  dsimp only
  rw [chosen, if_neg (Nat.not_lt.mpr enough), wrote]

/-- The chunks of a dump make up the whole. -/
theorem Keeps.hexChunks (keeps : Keeps config after) (advanced : config.advanced = true)
    (held : after done printf.ctx printf.memory) {len : Nat} {d : List UInt8} (enough : len ≤ d.length)
    (short : done.length + 2 * len + 1 < 2147483648) :
    ∃ ctx memory buf, hexChunks config len d printf = some { ctx, memory, buf } ∧
      after (done ++ hexText (d.take len)) ctx memory ∧ ∀ cell, config.bufSize ≤ cell → buf cell = printf.buf cell := by
  induction len using Nat.strong_induction_on generalizing done d printf with
  | _ len ih =>
    by_cases more : 0 < len
    · have chunk : hexChunk = 31 := rfl
      have size : config.bufSize = 64 := if_pos advanced
      obtain ⟨ch, chosen⟩ : ∃ ch, (if len < hexChunk then len else hexChunk) = ch := ⟨_, rfl⟩
      have bounds : 0 < ch ∧ ch ≤ len ∧ ch ≤ 31 := by
        rw [← chosen]
        split <;> omega
      obtain ⟨some, part, few⟩ := bounds
      have length : (d.take ch).length = ch := by
        rw [List.length_take]
        omega
      have digits := hexText_length (d.take ch)
      have read := jdToHex_read length printf.buf
      obtain ⟨ctx, memory, wrote, kept⟩ := @Keeps.whole config after { printf with buf := jdToHex 0 (d.take ch) printf.buf }
        done (hexText (d.take ch)) keeps held (by omega)
      rw [digits, length, Nat.mul_comm, ← read] at wrote
      obtain ⟨last, final, buf, rest, all, same⟩ := @ih (len - ch) (by omega)
        { ctx, memory, buf := jdToHex 0 (d.take ch) printf.buf } (done ++ hexText (d.take ch)) kept (d.drop ch)
        (by rw [List.length_drop]; omega) (by rw [List.length_append, digits, length]; omega)
      refine ⟨last, final, buf, ?_, ?_, ?_⟩
      · rw [hexChunks_step more chosen (by omega) wrote, rest]
      · rwa [hexText_take d part, ← List.append_assoc]
      · intro cell beyond
        rw [same cell beyond]
        dsimp only
        rw [jdToHex_eq, Memory.write_outside (.inr _)]
        rw [List.length_append, List.length_singleton, digits, length]
        omega
    · have none : len = 0 := Nat.eq_zero_of_not_pos more
      refine ⟨printf.ctx, printf.memory, printf.buf, ?_, ?_, fun _ _ => rfl⟩
      · rw [Text.hexChunks, if_neg more]
      · rw [none, List.take_zero]
        exact (List.append_nil done).symm ▸ held

/-- A conversion hands over some of its text itself and leaves the rest in `buf`. -/
def Converts (config : PrintfConfig) (after : List UInt8 → PrintfCtx → Memory → Prop) (done text : List UInt8)
    (printf : Printf) (used : Nat) (others : List PrintfArg) (result : Option (Nat × List PrintfArg × Printf)) : Prop :=
  ∃ direct tail next, text = direct ++ tail ∧ result = some (used, others, next) ∧
    after (done ++ direct) next.ctx next.memory ∧ Holds config tail printf.buf next.buf

theorem Converts.buffered (held : after done printf.ctx printf.memory) {buf : Memory}
    (holds : Holds config text printf.buf buf) :
    Converts config after done text printf used others (some (used, others, { printf with buf })) :=
  ⟨[], text, _, rfl, rfl, (List.append_nil done).symm ▸ held, holds⟩

theorem Converts.direct {next : Printf} (kept : after (done ++ text) next.ctx next.memory)
    (same : ∀ cell, config.bufSize ≤ cell → next.buf cell = printf.buf cell) :
    Converts config after done text printf used others (some (used, others, { next with buf := next.buf.write 0 [0] })) :=
  ⟨text, [], _, (List.append_nil text).symm, rfl, kept,
    .stored (Nat.lt_of_lt_of_le (Nat.zero_lt_succ _) config.bufSize_ge.1) (by simp) same⟩

theorem Converts.itoa (held : after done printf.ctx printf.memory) (value : UInt32) :
    Converts config after done (decimalText (i32 value.toNat)) printf used others
      ((jdItoa config.bufSize (i32 value.toNat) (some 0) (printf.buf.write 1 [0])).map fun buf =>
        (used, others, { printf with buf })) := by
  have word : -2147483648 ≤ i32 value.toNat ∧ i32 value.toNat < 2147483648 := by
    unfold i32
    omega
  obtain ⟨buf, stored, holds⟩ := holds_itoa word printf.buf
  rw [stored]
  exact .buffered held holds

theorem Converts.utoa (held : after done printf.ctx printf.memory) (value : UInt32) :
    Converts config after done (digitText value.toNat) printf used others
      ((jdUtoa config.bufSize value.toNat (some 0) (printf.buf.write 1 [0])).map fun buf =>
        (used, others, { printf with buf })) := by
  obtain ⟨buf, stored, holds⟩ := holds_utoa value.toNat_lt printf.buf
  rw [stored]
  exact .buffered held holds

theorem Converts.string (keeps : Keeps config after) (held : after done printf.ctx printf.memory)
    (val : Option (List UInt8)) (short : done.length + (cString (val.getD nullText)).length + 1 < 2147483648) :
    Converts config after done (cString (val.getD nullText)) printf used others
      ((writeString config { printf with buf := printf.buf.write 1 [0] } val).map fun printf => (used, others, printf)) := by
  obtain ⟨ctx, memory, buf, wrote, kept, rfl⟩ :=
    @Keeps.writeString config after { printf with buf := printf.buf.write 1 [0] } done keeps held val short
  rw [wrote]
  exact @Converts.direct config after printf done _ used others ⟨ctx, memory, _⟩ kept (cleared_outside config printf.buf)

theorem Converts.dump (keeps : Keeps config after) (advanced : config.advanced = true)
    (held : after done printf.ctx printf.memory) {len : Nat} {d : List UInt8} (enough : len ≤ d.length)
    (short : done.length + (hexText (d.take len)).length + 1 < 2147483648) :
    Converts config after done (hexText (d.take len)) printf used others
      ((hexChunks config len d { printf with buf := printf.buf.write 1 [0] }).map fun printf =>
        (used, others, { printf with buf := printf.buf.write 0 [0] })) := by
  have digits := hexText_length (d.take len)
  have taken : (d.take len).length = len := by
    rw [List.length_take]
    omega
  obtain ⟨ctx, memory, buf, wrote, kept, same⟩ :=
    @Keeps.hexChunks config after { printf with buf := printf.buf.write 1 [0] } done keeps advanced held len d enough (by omega)
  rw [wrote]
  exact @Converts.direct config after printf done _ used others ⟨ctx, memory, buf⟩ kept fun cell beyond =>
    (same cell beyond).trans (cleared_outside config printf.buf cell beyond)

/-- An unknown conversion. -/
theorem Converts.question (held : after done printf.ctx printf.memory) :
    Converts config after done [63] printf used others
      (some (used, others, { printf with buf := (printf.buf.write 1 [0]).write 0 [63] })) :=
  .buffered held (holds_char config 63 printf.buf)

theorem Converts.percent {c : UInt8} (held : after done printf.ctx printf.memory) (kind : conversionOf c = .percent) :
    Converts config after done [37] printf used others
      (some (used, others, { printf with buf := (printf.buf.write 1 [0]).write 0 [c] })) := by
  have percent : c = 37 := by grind [conversionOf]
  rw [percent]
  exact .buffered held (holds_char config 37 printf.buf)

theorem converted_inj {α β γ : Type} {a x : α} {b y : β} {c z : γ} (same : some (a, b, c) = some (x, y, z)) :
    x = a ∧ y = b ∧ z = c := by
  simp only [Option.some.injEq, Prod.mk.injEq] at same
  exact ⟨same.1.symm, same.2.1.symm, same.2.2.symm⟩

theorem Keeps.convertAdvanced (keeps : Keeps config after) (advanced : config.advanced = true)
    (held : after done printf.ctx printf.memory) (converted : advancedText config rest args = some (text, used, others))
    (short : done.length + text.length + 1 < 2147483648) :
    Converts config after done text printf used others (convertAdvanced config rest args printf) := by
  unfold advancedText at converted
  unfold Text.convertAdvanced
  dsimp only at converted ⊢
  cases tail : rest.drop (skipFree config rest) with
  | nil =>
    rw [tail] at converted
    cases converted
  | cons c rest =>
    rw [tail] at converted
    dsimp only at converted ⊢
    by_cases nul : c = 0
    · rw [if_pos nul] at converted
      cases converted
    · rw [if_neg nul] at converted ⊢
      -- the conversions in the order of the `switch`, each with the argument it takes
      generalize same : conversionOf c = kind at converted ⊢
      split at converted
      · obtain ⟨rfl, rfl, rfl⟩ := converted_inj converted
        exact .buffered held (holds_char config _ printf.buf)
      · obtain ⟨written, rfl, rfl⟩ := converted_inj converted
        rw [written]
        exact .itoa held _
      · obtain ⟨rfl, rfl, rfl⟩ := converted_inj converted
        exact .utoa held _
      · obtain ⟨rfl, rfl, rfl⟩ := converted_inj converted
        exact .buffered held (hexInto_holds config false _ printf.buf)
      · obtain ⟨rfl, rfl, rfl⟩ := converted_inj converted
        exact .buffered held (hexInto_holds config false _ printf.buf)
      · cases rest with
        | nil => cases converted
        | cons c rest =>
          dsimp only at converted ⊢
          by_cases nul : c = 0
          · rw [if_pos nul] at converted
            cases converted
          · rw [if_neg nul] at converted ⊢
            by_cases dump : c = 112
            · rw [if_pos dump] at converted ⊢
              split at converted
              · cases converted
              · rename_i inside
                obtain ⟨written, rfl, rfl⟩ := converted_inj converted
                rw [written] at short ⊢
                exact .dump keeps advanced held (Nat.le_of_not_lt inside) short
            · rw [if_neg dump] at converted ⊢
              obtain ⟨rfl, rfl, rfl⟩ := converted_inj converted
              exact .question held
      · obtain ⟨rfl, rfl, rfl⟩ := converted_inj converted
        exact .string keeps held _ short
      · obtain ⟨rfl, rfl, rfl⟩ := converted_inj converted
        exact .percent held same
      · obtain ⟨rfl, rfl, rfl⟩ := converted_inj converted
        exact .question held
      · cases converted

theorem Keeps.convertBasic (keeps : Keeps config after) (held : after done printf.ctx printf.memory)
    (converted : basicText config rest args = some (text, used, others))
    (short : done.length + text.length + 1 < 2147483648) :
    Converts config after done text printf used others (convertBasic config rest args printf) := by
  unfold basicText at converted
  unfold Text.convertBasic
  cases args with
  | nil => cases converted
  | cons arg args =>
    cases rest with
    | nil => cases converted
    | cons c rest =>
      dsimp only at converted ⊢
      by_cases nul : c = 0
      · rw [if_pos nul] at converted
        cases converted
      · rw [if_neg nul] at converted ⊢
        generalize same : conversionOf c = kind at converted ⊢
        split at converted
        · obtain ⟨rfl, rfl, rfl⟩ := converted_inj converted
          exact .buffered held (holds_char config _ printf.buf)
        · obtain ⟨written, rfl, rfl⟩ := converted_inj converted
          rw [written]
          exact .itoa held _
        · obtain ⟨rfl, rfl, rfl⟩ := converted_inj converted
          exact .buffered held (hexInto_holds config _ _ printf.buf)
        · obtain ⟨rfl, rfl, rfl⟩ := converted_inj converted
          exact .buffered held (hexInto_holds config true _ printf.buf)
        · obtain ⟨rfl, rfl, rfl⟩ := converted_inj converted
          exact .string keeps held _ short
        · obtain ⟨rfl, rfl, rfl⟩ := converted_inj converted
          exact .percent held same
        -- what these builds do not know prints a question mark
        · obtain ⟨rfl, rfl, rfl⟩ := converted_inj converted
          exact .question held
        · obtain ⟨rfl, rfl, rfl⟩ := converted_inj converted
          exact .question held
        · obtain ⟨rfl, rfl, rfl⟩ := converted_inj converted
          exact .question held
        · obtain ⟨rfl, rfl, rfl⟩ := converted_inj converted
          exact .question held
        · cases converted

/-- Every conversion hands over its own text. -/
theorem Keeps.convert (keeps : Keeps config after) (held : after done printf.ctx printf.memory)
    (converted : convertText config rest args = some (text, used, others))
    (short : done.length + text.length + 1 < 2147483648) :
    Converts config after done text printf used others (convert config rest args printf) := by
  unfold convertText at converted
  unfold Text.convert
  by_cases advanced : config.advanced = true
  · rw [if_pos advanced] at converted ⊢
    exact keeps.convertAdvanced advanced held converted short
  · rw [if_neg advanced] at converted ⊢
    exact keeps.convertBasic held converted short

end Pieces

end Text

end Jacdac
