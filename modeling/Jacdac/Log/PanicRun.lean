import Jacdac.Log.Boundary
import Jacdac.Log.PanicFlush
import Mathlib.Data.List.Flatten

/-! The panic log as a whole: what becomes of the characters printed. -/

namespace Jacdac

/-- Entries of the panic log, with these characters. -/
structure Spells (entries : List LogEntry) (chars : List UInt8) : Prop where
  type : ∀ entry ∈ entries, entry.type = typePanicLog
  data : entries.flatMap (·.data) = chars

theorem Spells.nil : Spells [] [] where
  type _ never := by cases never
  data := rfl

theorem Spells.append (first : Spells entries chars) (second : Spells more others) :
    Spells (entries ++ more) (chars ++ others) where
  type entry member := by
    rcases List.mem_append.mp member with old | new
    · exact first.type entry old
    · exact second.type entry new
  data := by rw [List.flatMap_append, first.data, second.data]

theorem Proceeds.lift {failure : LogFault} {result : Except LogFault Result} {after : Result → Prop}
    (start : Proceeds writable result failure after) : Proceeds writable (liftLog result) (.log failure) after := by
  rcases start with ⟨failed, blocked⟩ | ⟨value, done, fine⟩
  · exact .inl ⟨congrArg liftLog failed, blocked⟩
  · exact .inr ⟨value, congrArg liftLog done, fine⟩

namespace PanicContext

variable {context next later : PanicContext}

/-- The next block of each file has an index inside the file. -/
def Writable (context : PanicContext) : Prop :=
  ∀ index, index < lstoreNumFiles → (context.logs index).blockPtr < (context.logs index).dataBlocks

/-- What a step does to both files; the panic log is in the first one. -/
def Advances (context next : PanicContext) (blocks : List (Nat × Block)) (entries : List LogEntry) : Prop :=
  ∀ index, index < lstoreNumFiles → (context.logs index).Advances (context.disks index) (next.logs index)
    (next.disks index) (blocksOf index blocks) (if index = 0 then entries else [])

theorem Advances.trans (first : context.Advances next blocks entries) (second : next.Advances later more found) :
    context.Advances later (blocks ++ more) (entries ++ found) := by
  intro index inside
  have both := (first index inside).trans (second index inside)
  rw [blocksOf_append]
  by_cases panic : index = 0
  · simp only [if_pos panic] at both ⊢
    exact both
  · simp only [if_neg panic] at both ⊢
    exact both

theorem Advances.writable (advances : context.Advances next blocks entries) (writable : context.Writable) : next.Writable :=
  fun index inside => (advances index inside).inside (writable index inside)

theorem Advances.single {file : LogFile} {disk : LogDisk}
    (step : (context.logs index).Advances (context.disks index) file disk blocks (if index = 0 then entries else []))
    (logs : next.logs = (context.store index file disk).logs) (disks : next.disks = (context.store index file disk).disks)
    (panic : index ≠ 0 → entries = []) : context.Advances next (blocks.map (index, ·)) entries := by
  intro other below
  rw [logs, disks, blocksOf_map]
  by_cases same : other = index
  · simp only [LogContext.store, same, if_true]
    exact step
  · have none : (if other = 0 then entries else []) = [] := by
      split
      · exact panic (by omega)
      · rfl
    simp only [LogContext.store, if_neg same, if_neg (Ne.symm same), none]
    exact .refl _ _

/-- Both files with no entry pending. -/
structure Idle (context : PanicContext) : Prop where
  files : ∀ index, index < lstoreNumFiles → (context.logs index).Ready []
  ptr : context.panicCharPtr = 0
  max : context.panicMaxCharPtr = 0

/-- The mode is on, and the pending entry of the first file has these bytes. -/
structure Running (context : PanicContext) (pending : List UInt8) : Prop where
  mode : context.panicMode = 1
  first : (context.logs 0).Ready pending
  second : (context.logs 1).Ready []
  ptr : context.panicCharPtr = pending.length
  budget : context.panicMaxCharPtr = 0 ∧ pending = [] ∨
    0 < context.panicMaxCharPtr ∧ pending.length ≤ context.panicMaxCharPtr ∧ context.panicMaxCharPtr ≤ 240 ∧
      (context.logs 0).dataPtr + 12 + context.panicMaxCharPtr ≤ (context.logs 0).blockDataSize

theorem Idle.running (idle : context.Idle) (mode : context.panicMode = 1) : context.Running [] where
  mode := mode
  first := idle.files 0 (by decide)
  second := idle.files 1 (by decide)
  ptr := idle.ptr
  budget := .inl ⟨idle.max, rfl⟩

/-- One file was flushed. -/
structure FlushedFile (context : PanicContext) (index : Nat) (next : PanicContext) (blocks : List (Nat × Block)) : Prop where
  mode : next.panicMode = context.panicMode
  ptr : next.panicCharPtr = 0
  max : next.panicMaxCharPtr = 0
  ready : (next.logs index).Ready []
  settled : (next.logs index).Settled
  other : ∀ other, other ≠ index → next.logs other = context.logs other
  advances : context.Advances next blocks []

theorem flushFile_proceeds (inside : index < lstoreNumFiles) (ready : (context.logs index).Ready []) (now : Nat) :
    Proceeds context.Writable (context.flushFile now index) (.log .writeIndex) fun (next, blocks) =>
      context.FlushedFile index next blocks := by
  have flush := (ready.flushToDiskInPanic now (context.disks index)).lift
  refine (flush.weaken (fun writable => writable index inside) (fun _ fine => fine)).bind ?_
  rintro ⟨file, disk, blocks⟩ ⟨ready, step, settled⟩
  have here : (context.store index file disk).logs index = file := if_pos rfl
  have none : (if index = 0 then ([] : List LogEntry) else []) = [] := by split <;> rfl
  refine .done {
    mode := rfl
    ptr := rfl
    max := rfl
    ready := here.symm ▸ ready
    settled := here.symm ▸ settled
    other := fun other different => if_neg different
    advances := .single (none.symm ▸ step) rfl rfl (fun _ => rfl) }

theorem setFirst_advances {file : LogFile}
    (step : (context.logs 0).Advances (context.disks 0) file (context.disks 0) [] entries)
    (logs : next.logs = (context.setFirst file).logs) (disks : next.disks = (context.setFirst file).disks) :
    context.Advances next [] entries :=
  @Advances.single _ _ 0 _ _ _ _ step logs disks (fun never => absurd rfl never)

theorem Running.closeEntry (running : context.Running pending) (some : pending = [] → context.panicMaxCharPtr = 0) :
    ∃ next entries, context.closeEntry = .ok next ∧ next.panicMode = 1 ∧
      (∀ index, index < lstoreNumFiles → (next.logs index).Ready []) ∧
      context.Advances next [] entries ∧ Spells entries pending := by
  rw [PanicContext.closeEntry]
  rcases running.budget with ⟨none, rfl⟩ | ⟨positive, short, most, room⟩
  · rw [if_neg (by omega)]
    refine ⟨context, [], rfl, running.mode, fun index inside => ?_, fun index inside => ?_, .nil⟩
    · match index, inside with
      | 0, _ => exact running.first
      | 1, _ => exact running.second
    · rw [ite_self]
      exact .refl _ _
  · have filled : pending ≠ [] := fun empty => by have none := some empty; omega
    have inside : (context.logs 0).dataPtr + entryHeaderSize + pending.length ≤ (context.logs 0).blockDataSize := by
      simp only [entryHeaderSize]
      omega
    have small := running.first.small
    obtain ⟨file, done, same, ready, step⟩ := running.first.close filled (by omega) inside (context.disks 0)
    have cursor : { file with dataPtr := u32 (file.dataPtr + entryHeaderSize + pending.length) } =
        file.withPtr ((context.logs 0).dataPtr + entryHeaderSize + pending.length) := by
      rw [same, u32, Nat.mod_eq_of_lt (by omega)]
      rfl
    rw [if_pos positive, running.ptr]
    dsimp only
    rw [done]
    refine ⟨_, _, rfl, running.mode, ?_, setFirst_advances step (by rw [cursor]) rfl, ?_⟩
    · intro index below
      match index, below with
      | 0, _ => exact cursor ▸ ready
      | 1, _ => exact running.second
    · refine ⟨fun entry member => ?_, List.append_nil _⟩
      rw [List.mem_singleton.mp member]
      rfl

theorem FlushedFile.files (flushed : context.FlushedFile index next blocks)
    (files : ∀ index, index < lstoreNumFiles → (context.logs index).Ready []) :
    ∀ index, index < lstoreNumFiles → (next.logs index).Ready [] := by
  intro other inside
  by_cases same : other = index
  · exact same ▸ flushed.ready
  · exact flushed.other other same ▸ files other inside

/-- There is room for the next entry, after a flush if need be. -/
theorem openEntry_proceeds (mode : context.panicMode = 1)
    (files : ∀ index, index < lstoreNumFiles → (context.logs index).Ready []) (now : Nat) :
    Proceeds context.Writable (context.openEntry now) (.log .writeIndex) fun (next, blocks) =>
      next.Running [] ∧ 0 < next.panicMaxCharPtr ∧ context.Advances next blocks [] := by
  have first := files 0 (by decide)
  obtain ⟨raws, holding⟩ := first.current
  have bound := holding.bound
  have small := first.small
  have size := first.size
  have whole : (context.logs 0).blockDataSize = (context.logs 0).blockSize - 24 := rfl
  have room : i32 (((context.logs 0).blockDataSize : Int) - (context.logs 0).dataPtr - entryHeaderSize - 8) =
      ((context.logs 0).blockDataSize : Int) - (context.logs 0).dataPtr - 12 := by
    rw [i32_eq (by simp only [entryHeaderSize]; omega)]
    simp only [entryHeaderSize]
    omega
  rw [openEntry]
  dsimp only
  rw [room]
  by_cases full : ((context.logs 0).blockDataSize : Int) - (context.logs 0).dataPtr - 12 <
      ((context.logs 0).blockSize / 32 : Nat)
  · have most : u8 (if (255 : Int) > 240 then (240 : Int) else 255).toNat = 240 := by decide
    simp only [if_pos full, most]
    refine (flushFile_proceeds (by decide) first now).bind ?_
    rintro ⟨next, blocks⟩ flushed
    have ready := flushed.files files
    have shift := (flushed.advances 0 (by decide)).shift
    have same : (next.logs 0).blockDataSize = (context.logs 0).blockDataSize := by
      rw [LogFile.blockDataSize, LogFile.blockSize, shift]
      rfl
    refine .done ⟨⟨flushed.mode.trans mode, ready 0 (by decide), ready 1 (by decide), rfl, .inr ?_⟩,
      Nat.zero_lt_succ _, flushed.advances⟩
    refine ⟨Nat.zero_lt_succ _, Nat.zero_le _, Nat.le_refl _, ?_⟩
    change (next.logs 0).dataPtr + 12 + 240 ≤ (next.logs 0).blockDataSize
    rw [flushed.settled.2, same]
    omega
  · simp only [if_neg full]
    have most : ∃ max, u8 (if ((context.logs 0).blockDataSize : Int) - (context.logs 0).dataPtr - 12 > 240 then 240
        else ((context.logs 0).blockDataSize : Int) - (context.logs 0).dataPtr - 12).toNat = max ∧ 0 < max ∧ max ≤ 240 ∧
        (context.logs 0).dataPtr + 12 + max ≤ (context.logs 0).blockDataSize := by
      refine ⟨_, rfl, ?_⟩
      rw [u8, Nat.mod_eq_of_lt (by omega)]
      omega
    obtain ⟨max, same, positive, most, inside⟩ := most
    refine .done ⟨⟨mode, first, files 1 (by decide), rfl, .inr ⟨?_, ?_, ?_, ?_⟩⟩, ?_, fun index below => ?_⟩
    · exact same.symm ▸ positive
    · exact Nat.zero_le _
    · exact same.symm ▸ most
    · exact same.symm ▸ inside
    · exact same.symm ▸ positive
    · rw [ite_self]
      exact .refl _ _

theorem Running.turn (running : context.Running pending) (ends : pending = [] → context.panicMaxCharPtr = 0) (now : Nat) :
    Proceeds context.Writable (context.closeEntry >>= (·.openEntry now)) (.log .writeIndex) fun (next, blocks) =>
      ∃ entries, next.Running [] ∧ 0 < next.panicMaxCharPtr ∧ context.Advances next blocks entries ∧
        Spells entries pending := by
  obtain ⟨closed, entries, done, mode, files, step, spells⟩ := running.closeEntry ends
  rw [done]
  refine (openEntry_proceeds mode files now).weaken step.writable ?_
  rintro ⟨next, blocks⟩ ⟨running, positive, more⟩
  have both := step.trans more
  rw [List.append_nil] at both
  exact ⟨entries, running, positive, both, spells⟩

/-- The character goes behind the pending ones. -/
theorem Running.store (running : context.Running pending) (space : pending.length < context.panicMaxCharPtr) (ch : UInt8) :
    ∃ file, (context.logs 0).storeCurr (entryHeaderSize + context.panicCharPtr) [ch] = .ok file ∧
      ({ context.setFirst file with panicCharPtr := u8 (context.panicCharPtr + 1) } : PanicContext).Running
        (pending ++ [ch]) ∧
      context.Advances { context.setFirst file with panicCharPtr := u8 (context.panicCharPtr + 1) } [] [] := by
  rcases running.budget with ⟨none, _⟩ | ⟨positive, short, most, room⟩
  · omega
  · have inside : (context.logs 0).dataPtr + entryHeaderSize + pending.length < (context.logs 0).blockDataSize := by
      simp only [entryHeaderSize]
      omega
    obtain ⟨file, done, ready, step, same⟩ := running.first.store ch inside (context.disks 0)
    have cursor : u8 (context.panicCharPtr + 1) = (pending ++ [ch]).length := by
      rw [running.ptr, u8, Nat.mod_eq_of_lt (by omega), List.length_append, List.length_singleton]
    rw [running.ptr] at *
    refine ⟨file, done, ⟨running.mode, ready, running.second, cursor, .inr ⟨positive, ?_, most, ?_⟩⟩,
      setFirst_advances step rfl rfl⟩
    · rw [List.length_append, List.length_singleton]
      exact space
    · have size : file.blockDataSize = (context.logs 0).blockDataSize := by
        rw [LogFile.blockDataSize, LogFile.blockSize, step.shift]
        rfl
      change file.dataPtr + 12 + context.panicMaxCharPtr ≤ file.blockDataSize
      rw [same, size]
      exact room

/-- All these characters are in entries, but for the rest that is pending. -/
structure Printed (context : PanicContext) (whole : List UInt8) (next : PanicContext) (blocks : List (Nat × Block))
    (rest : List UInt8) : Prop where
  running : next.Running rest
  kept : ∃ entries chars, context.Advances next blocks entries ∧ Spells entries chars ∧ chars ++ rest = whole

theorem Printed.trans (first : context.Printed whole next blocks rest)
    (second : next.Printed (rest ++ more) later others last) :
    context.Printed (whole ++ more) later (blocks ++ others) last := by
  obtain ⟨entries, chars, step, spells, same⟩ := first.kept
  obtain ⟨found, added, further, spelled, behind⟩ := second.kept
  refine ⟨second.running, entries ++ found, chars ++ added, step.trans further, spells.append spelled, ?_⟩
  rw [List.append_assoc, behind, ← List.append_assoc, same]

theorem Printed.writable (printed : context.Printed whole next blocks rest) (writable : context.Writable) :
    next.Writable := by
  obtain ⟨entries, chars, step, _⟩ := printed.kept
  exact step.writable writable

/-- The character joins the others, unless it ends the line of an entry. -/
theorem Running.printActive (running : context.Running pending) (now : Nat) (ch : UInt8) :
    Proceeds context.Writable (context.printActive now ch) (.log .writeIndex) fun (next, blocks) =>
      ∃ rest, context.Printed (pending ++ if ch = 10 ∧ pending ≠ [] then [] else [ch]) next blocks rest ∧
        (rest = [] ↔ ch = 10 ∧ pending ≠ []) := by
  have filled : context.panicCharPtr > 0 ↔ pending ≠ [] := by
    rw [running.ptr]
    exact List.length_pos_iff
  rw [PanicContext.printActive]
  dsimp only
  simp only [filled]
  by_cases turns : context.panicCharPtr ≥ context.panicMaxCharPtr ∨ ch = 10 ∧ pending ≠ []
  · rw [if_pos turns]
    have ends : pending = [] → context.panicMaxCharPtr = 0 := by
      intro empty
      rcases turns with full | ⟨_, some⟩
      · rw [running.ptr, empty] at full
        exact Nat.eq_zero_of_le_zero full
      · exact absurd empty some
    rw [← bind_assoc]
    refine (running.turn ends now).bind ?_
    rintro ⟨next, blocks⟩ ⟨entries, fresh, positive, step, spells⟩
    by_cases ended : ch = 10 ∧ pending ≠ []
    · simp only [if_pos ended]
      exact .done ⟨[], ⟨fresh, entries, pending, step, spells, rfl⟩, fun _ => ended, fun _ => rfl⟩
    · obtain ⟨file, done, running, more⟩ := fresh.store positive ch
      simp only [if_neg ended]
      rw [done]
      have both := step.trans more
      rw [List.append_nil, List.append_nil] at both
      exact .done ⟨[ch], ⟨running, entries, pending, both, spells, rfl⟩, (fun never => by cases never),
        fun taken => absurd taken ended⟩
  · rw [if_neg turns]
    obtain ⟨stay, open_⟩ := not_or.mp turns
    obtain ⟨file, done, later, step⟩ := running.store (by rw [← running.ptr]; omega) ch
    change Proceeds _ (if ch = 10 ∧ pending ≠ [] then _ else _) _ _
    rw [if_neg open_, done]
    rw [if_neg open_]
    refine .done ⟨pending ++ [ch], ⟨later, [], [], step, .nil, rfl⟩, fun never => ?_, fun taken => absurd taken open_⟩
    exact absurd never (List.append_ne_nil_of_right_ne_nil _ (List.cons_ne_nil _ _))

/-- A single pending byte, which has no header yet, counts for nothing. -/
theorem Running.files (running : context.Running rest) (few : rest.length ≤ 1) :
    ∀ index, index < lstoreNumFiles → (context.logs index).Ready [] := by
  intro index inside
  match index, inside with
  | 1, _ => exact running.second
  | 0, _ =>
    have first := running.first
    match rest, few with
    | [], _ => exact first
    | [ch], _ =>
      obtain ⟨raws, blocks⟩ := first.current
      exact ⟨first.size, first.small, ⟨raws, blocks.forget⟩, first.alternate⟩

def endLine (now : Nat) (context : PanicContext) : Except PanicFault (PanicContext × List (Nat × Block)) :=
  if context.panicMaxCharPtr > 0 then context.printActive now 10 else .ok (context, [])

theorem Running.endLine (running : context.Running pending) (now : Nat) :
    Proceeds context.Writable (context.endLine now) (.log .writeIndex) fun (next, blocks) =>
      next.panicMode = 1 ∧ (∀ index, index < lstoreNumFiles → (next.logs index).Ready []) ∧
        ∃ entries, context.Advances next blocks entries ∧ Spells entries pending := by
  rw [PanicContext.endLine]
  rcases running.budget with ⟨none, rfl⟩ | ⟨positive, _⟩
  · rw [if_neg (by omega)]
    refine .done ⟨running.mode, running.files (Nat.zero_le _), [], fun index inside => ?_, .nil⟩
    rw [ite_self]
    exact .refl _ _
  · rw [if_pos positive]
    refine (running.printActive now 10).weaken id ?_
    rintro ⟨next, blocks⟩ ⟨rest, ⟨later, entries, chars, step, spells, whole⟩, empty⟩
    by_cases some : pending = []
    · -- nothing is pending, and the newline itself stays without an entry
      rw [some, if_neg (fun both => both.2 rfl), List.nil_append] at whole
      have stays : rest ≠ [] := fun none => (empty.mp none).2 some
      rcases List.append_eq_singleton_iff.mp whole with ⟨none, alone⟩ | ⟨_, none⟩
      · exact ⟨later.mode, later.files (by rw [alone]; decide), entries, step, some ▸ none ▸ spells⟩
      · exact absurd none stays
    · have none : rest = [] := empty.mpr ⟨rfl, some⟩
      rw [if_pos ⟨rfl, some⟩, none, List.append_nil, List.append_nil] at whole
      exact ⟨later.mode, later.files (by rw [none]; decide), entries, step, whole ▸ spells⟩

theorem Running.panicFlush (running : context.Running pending) (now : Nat) :
    Proceeds context.Writable (context.jdLstorePanicFlush now) (.log .writeIndex) fun (next, blocks) =>
      next.Idle ∧ next.panicMode = 1 ∧ (next.logs 0).Settled ∧
        ∃ entries, context.Advances next blocks entries ∧ Spells entries pending := by
  have unfolded : context.jdLstorePanicFlush now = (context.endLine now >>= fun (context, first) => do
      let (context, second) ← context.flushFile now 0
      let (context, third) ← context.flushFile now 1
      .ok (context, first ++ second ++ third)) := by
    rw [jdLstorePanicFlush, if_neg (fun off => off running.mode), PanicContext.endLine]
    split <;> rfl
  rw [unfolded]
  refine (running.endLine now).bind ?_
  rintro ⟨one, blocks⟩ ⟨mode, files, entries, step, spells⟩
  refine ((flushFile_proceeds (by decide) (files 0 (by decide)) now).weaken step.writable (fun _ fine => fine)).bind ?_
  rintro ⟨two, more⟩ flushed
  have files := flushed.files files
  have step := step.trans flushed.advances
  refine ((flushFile_proceeds (by decide) (files 1 (by decide)) now).weaken step.writable (fun _ fine => fine)).bind ?_
  rintro ⟨three, last⟩ done
  have step := step.trans done.advances
  rw [List.append_nil, List.append_nil] at step
  refine .done ⟨⟨done.files files, done.ptr, done.max⟩, ?_, ?_, entries, step, spells⟩
  · exact done.mode.trans (flushed.mode.trans mode)
  · rw [done.other 0 (by decide)]
    exact flushed.settled

/-- The characters that are not dropped; `pending` is whether the pending entry has any. -/
def printedChars : Bool → List UInt8 → List UInt8
  | _, [] => []
  | pending, ch :: rest =>
    if ch = 13 then printedChars pending rest
    else if ch = 10 ∧ pending then printedChars false rest
    else ch :: printedChars true rest

theorem printedChars_return (pending : Bool) (rest : List UInt8) : printedChars pending (13 :: rest) = printedChars pending rest :=
  if_pos rfl

/-- One character, which is not `\r`. -/
theorem printedChars_cons {ch : UInt8} (printed : ch ≠ 13) {pending now : List UInt8}
    (empty : now = [] ↔ ch = 10 ∧ pending ≠ []) (rest : List UInt8) :
    printedChars (!pending.isEmpty) (ch :: rest) =
      (if ch = 10 ∧ pending ≠ [] then [] else [ch]) ++ printedChars (!now.isEmpty) rest := by
  have some : (!pending.isEmpty) = true ↔ pending ≠ [] := by
    rw [Bool.not_eq_true', List.isEmpty_eq_false_iff]
  rw [printedChars, if_neg printed]
  simp only [some]
  by_cases ends : ch = 10 ∧ pending ≠ []
  · rw [if_pos ends, if_pos ends, empty.mpr ends]
    rfl
  · have stays : now.isEmpty = false := List.isEmpty_eq_false_iff.mpr (fun none => ends (empty.mp none))
    rw [if_neg ends, if_neg ends, stays]
    rfl

theorem Running.printAll (running : context.Running pending) (ready : Bool) (chars : List (Nat × UInt8)) :
    Proceeds context.Writable (context.printAll ready chars) (.log .writeIndex) fun (next, blocks) =>
      ∃ rest, context.Printed (pending ++ printedChars (!pending.isEmpty) (chars.map (·.2))) next blocks rest := by
  induction chars generalizing context pending with
  | nil =>
    refine .done ⟨pending, running, [], [], fun index inside => ?_, .nil, (List.append_nil _).symm⟩
    rw [ite_self]
    exact .refl _ _
  | cons timed chars ih =>
    obtain ⟨now, ch⟩ := timed
    rw [PanicContext.printAll, List.map_cons]
    by_cases dropped : ch = 13
    · have skipped : context.jdLstorePanicPrintChar ready now ch = .ok (context, []) := if_pos (.inr dropped)
      rw [skipped, dropped, printedChars_return]
      exact (ih running).bind fun (next, blocks) printed => .done printed
    · have taken : context.jdLstorePanicPrintChar ready now ch = context.printActive now ch := by
        have mode := running.mode
        rw [jdLstorePanicPrintChar, if_neg (not_or.mpr ⟨by omega, dropped⟩), if_neg (by omega)]
      rw [taken]
      refine (running.printActive now ch).bind ?_
      rintro ⟨next, blocks⟩ ⟨rest, printed, empty⟩
      refine ((ih printed.running).weaken printed.writable (fun _ fine => fine)).bind ?_
      rintro ⟨later, more⟩ ⟨last, further⟩
      refine .done ⟨last, ?_⟩
      rw [printedChars_cons dropped empty, ← List.append_assoc]
      exact printed.trans further

/-- The first character starts the panic mode, with both files flushed. -/
theorem Idle.activate (idle : context.Idle) (off : context.panicMode = 0) (now : Nat) {ch : UInt8} (printed : ch ≠ 13) :
    Proceeds context.Writable (context.jdLstorePanicPrintChar true now ch) (.log .writeIndex) fun (next, blocks) =>
      ∃ rest, context.Printed (if ch = 10 ∧ ([] : List UInt8) ≠ [] then [] else [ch]) next blocks rest ∧
        (rest = [] ↔ ch = 10 ∧ ([] : List UInt8) ≠ []) := by
  have started : ({ context with panicMode := 1 } : PanicContext).Idle := ⟨idle.files, idle.ptr, idle.max⟩
  rw [jdLstorePanicPrintChar, if_neg (not_or.mpr ⟨by omega, printed⟩), if_pos off, if_neg (by decide)]
  refine ((started.running rfl).panicFlush now).bind ?_
  rintro ⟨one, blocks⟩ ⟨idle, mode, _, entries, step, spells⟩
  have first : context.Printed [] one blocks [] := ⟨idle.running mode, entries, [], step, spells, rfl⟩
  refine (((idle.running mode).printActive now ch).weaken first.writable (fun _ fine => fine)).bind ?_
  rintro ⟨next, more⟩ ⟨rest, second, empty⟩
  exact .done ⟨rest, first.trans second, empty⟩

theorem Idle.printAll (idle : context.Idle) (off : context.panicMode = 0) {chars : List (Nat × UInt8)}
    (some : ∃ timed ∈ chars, timed.2 ≠ 13) :
    Proceeds context.Writable (context.printAll true chars) (.log .writeIndex) fun (next, blocks) =>
      ∃ rest, context.Printed (printedChars false (chars.map (·.2))) next blocks rest := by
  induction chars with
  | nil =>
    obtain ⟨timed, never, _⟩ := some
    cases never
  | cons timed chars ih =>
    obtain ⟨now, ch⟩ := timed
    rw [PanicContext.printAll, List.map_cons]
    by_cases dropped : ch = 13
    · have skipped : context.jdLstorePanicPrintChar true now ch = .ok (context, []) := if_pos (.inr dropped)
      have later : ∃ timed ∈ chars, timed.2 ≠ 13 := by
        obtain ⟨timed, member, printed⟩ := some
        rcases List.mem_cons.mp member with rfl | rest
        · exact absurd dropped printed
        · exact ⟨timed, rest, printed⟩
      rw [skipped, dropped, printedChars_return]
      exact (ih later).bind fun (next, blocks) printed => .done printed
    · refine (idle.activate off now dropped).bind ?_
      rintro ⟨next, blocks⟩ ⟨rest, printed, empty⟩
      refine ((printed.running.printAll true chars).weaken printed.writable (fun _ fine => fine)).bind ?_
      rintro ⟨later, more⟩ ⟨last, further⟩
      refine .done ⟨last, ?_⟩
      have whole := printedChars_cons dropped empty (chars.map (·.2))
      rw [List.isEmpty_nil, Bool.not_true] at whole
      rw [whole]
      exact printed.trans further

/-- Characters of a panic message, and the flush behind them; the card answers. -/
def dump (chars : List (Nat × UInt8)) (now : Nat) (context : PanicContext) :
    Except PanicFault (PanicContext × List (Nat × Block)) := do
  let (context, first) ← context.printAll true chars
  let (context, second) ← context.jdLstorePanicFlush now
  .ok (context, first ++ second)

/-- The mode is on, or the first character that is not `\r` starts it. -/
def Active (chars : List (Nat × UInt8)) (context : PanicContext) : Prop :=
  context.panicMode = 1 ∨ context.panicMode = 0 ∧ ∃ timed ∈ chars, timed.2 ≠ 13

theorem Idle.dump (idle : context.Idle) (active : context.Active chars) (now : Nat) :
    Proceeds context.Writable (context.dump chars now) (.log .writeIndex) fun (final, blocks) =>
      final.Idle ∧ final.panicMode = 1 ∧ (final.logs 0).Settled ∧
        ∃ entries, context.Advances final blocks entries ∧ Spells entries (printedChars false (chars.map (·.2))) := by
  have all : Proceeds context.Writable (context.printAll true chars) (.log .writeIndex) fun (next, blocks) =>
      ∃ rest, context.Printed (printedChars false (chars.map (·.2))) next blocks rest := by
    rcases active with on | ⟨off, some⟩
    · exact (idle.running on).printAll true chars
    · exact idle.printAll off some
  refine all.bind ?_
  rintro ⟨next, blocks⟩ ⟨rest, printed⟩
  refine ((printed.running.panicFlush now).weaken printed.writable (fun _ fine => fine)).bind ?_
  rintro ⟨final, more⟩ ⟨idle, mode, settled, entries, step, spells⟩
  obtain ⟨found, chars, before, spelled, whole⟩ := printed.kept
  exact .done ⟨idle, mode, settled, found ++ entries, before.trans step, whole ▸ spelled.append spells⟩

/-- With nothing left in memory, the blocks written are all that a reader finds. -/
theorem Advances.written (advances : context.Advances next blocks entries) (ready : (next.logs 0).Ready [])
    (settled : (next.logs 0).Settled) :
    (blocksOf 0 blocks).flatMap (·.entries (context.logs 0).blockDataSize) = (context.logs 0).contents [] ++ entries := by
  have step := advances 0 (by decide)
  have size : (next.logs 0).blockDataSize = (context.logs 0).blockDataSize := by
    rw [LogFile.blockDataSize, LogFile.blockSize, step.shift]
    rfl
  have whole := step.contents []
  rw [LogFile.contents, LogFile.unflushed, if_neg (fun busy => busy settled.1), size] at whole
  rw [if_pos rfl] at whole
  rw [← whole, List.nil_append, List.nil_append, List.flatMap_append, List.flatMap_singleton, ← size,
    ready.entries_nil settled.2, List.append_nil]

end PanicContext

/-- From any state of the store between two calls, printing any characters in a panic and flushing then stores nothing
outside the data area of a block. Where sectors can be written, the blocks written to the first file hold what was in
memory and then entries of the panic log with exactly the characters printed, but for every `\r` and each newline
that ended a pending entry; and each of these blocks is on disk until the file was written round. -/
theorem panic_log_kept {context : PanicContext} {chars : List (Nat × UInt8)} (idle : context.Idle) (active : context.Active chars) (now : Nat) :
    (∀ fault, context.dump chars now = .error fault → fault = .log .writeIndex) ∧
      (context.Writable → ∃ (final : PanicContext) (blocks : List (Nat × Block)) (panic : List LogEntry), context.dump chars now = .ok (final, blocks) ∧
        final.Idle ∧ final.panicMode = 1 ∧
        (blocksOf 0 blocks).flatMap (·.entries (context.logs 0).blockDataSize) =
          (context.logs 0).contents [] ++ panic ∧
        (∀ entry ∈ panic, entry.type = typePanicLog) ∧
        panic.flatMap (·.data) = PanicContext.printedChars false (chars.map (·.2)) ∧
        ∀ index (within : index < (blocksOf 0 blocks).length),
          (blocksOf 0 blocks).length ≤ index + (context.logs 0).dataBlocks →
          (final.disks 0).slots (((context.logs 0).blockPtr + index) % (context.logs 0).dataBlocks) =
            (blocksOf 0 blocks)[index]) := by
  constructor
  · intro fault failed
    rcases idle.dump active now with ⟨expected, _⟩ | ⟨_, done, _⟩
    · exact (Except.error.inj (expected.symm.trans failed)).symm
    · cases done.symm.trans failed
  · intro writable
    rcases idle.dump active now with ⟨_, blocked⟩ | ⟨⟨final, blocks⟩, done, later, mode, settled, panic, step, spells⟩
    · exact absurd writable blocked
    · have inside := writable 0 (by decide)
      refine ⟨final, blocks, panic, done, later, mode, step.written (later.files 0 (by decide)) settled, spells.type,
        spells.data, fun index within recent => ?_⟩
      have kept := @Ring.puts_slots _ ((context.logs 0).ring (context.disks 0)) _ inside _ _ within recent
      rw [← (step 0 (by decide)).ring] at kept
      exact kept

theorem StoreRun.idle {context : PanicContext} (run : StoreRun context.toLogContext written entries)
    (ptr : context.panicCharPtr = 0) (max : context.panicMaxCharPtr = 0) : context.Idle where
  files index inside := (run.faithful.1 index inside).ready
  ptr := ptr
  max := max

def newPanic : PanicContext := { newContext with panicMode := 1, panicCharPtr := 0, panicMaxCharPtr := 0 }

private theorem newPanic_idle : newPanic.Idle :=
  @StoreRun.idle _ _ newPanic (.mounted fun _ _ => ⟨2048, 0, 7, 7, newDisk, newFile_mounts⟩) rfl rfl

private theorem newPanic_writable : newPanic.Writable := by
  intro index inside
  change newFile.blockPtr < newFile.dataBlocks
  decide

theorem panic_log_kept_new : (newPanic.logs 0).blockDataSize = 488 ∧
    ∃ (final : PanicContext) (blocks : List (Nat × Block)) (panic : List LogEntry),
      newPanic.dump [(0, 72), (0, 13), (0, 10), (0, 10)] 1 = .ok (final, blocks) ∧
      final.Idle ∧ final.panicMode = 1 ∧
      (blocksOf 0 blocks).flatMap (·.entries (newPanic.logs 0).blockDataSize) =
        (newPanic.logs 0).contents [] ++ panic ∧
      (∀ entry ∈ panic, entry.type = typePanicLog) ∧
      panic.flatMap (·.data) = [72, 10] ∧
      ∀ index (within : index < (blocksOf 0 blocks).length),
        (blocksOf 0 blocks).length ≤ index + (newPanic.logs 0).dataBlocks →
        (final.disks 0).slots (((newPanic.logs 0).blockPtr + index) % (newPanic.logs 0).dataBlocks) =
          (blocksOf 0 blocks)[index] :=
  ⟨by decide, (panic_log_kept newPanic_idle (.inl rfl) 1).2 newPanic_writable⟩

theorem parseEntries_capacity (fuel : Nat) (area : List UInt8) :
    ((parseEntries fuel area).flatMap (·.data)).length ≤ area.length := by
  fun_induction parseEntries fuel area with
  | case1 => exact Nat.zero_le _
  | case2 fuel type size low high rest used ih =>
    rw [List.flatMap_cons, List.length_append, List.length_take]
    rw [List.length_drop] at ih
    simp only [List.length_cons]
    omega
  | case3 => exact Nat.zero_le _

theorem Block.capacity (block : Block) (dataSize : Nat) :
    ((block.entries dataSize).flatMap (·.data)).length ≤ dataSize := by
  have area := parseEntries_capacity dataSize (block.data.read 0 dataSize)
  rw [Memory.read_length] at area
  rw [Block.entries, List.flatMap_map]
  exact area

/-- Blocks have no room for more data than their areas. -/
theorem slots_capacity (blocks : Nat → Block) (dataSize : Nat) (slots : List Nat) :
    ((slots.flatMap fun slot => (blocks slot).entries dataSize).flatMap (·.data)).length ≤ slots.length * dataSize := by
  induction slots with
  | nil => exact Nat.zero_le _
  | cons slot rest ih =>
    have one := (blocks slot).capacity dataSize
    rw [List.flatMap_cons, List.flatMap_append, List.length_append, List.length_cons, Nat.succ_mul]
    omega

theorem printedChars_letters (count : Nat) (pending : Bool) :
    PanicContext.printedChars pending (List.replicate count 65) = List.replicate count 65 := by
  induction count generalizing pending with
  | zero => rfl
  | succ count ih =>
    rw [List.replicate_succ, PanicContext.printedChars, if_neg (by decide), if_neg (fun both => absurd both.1 (by decide)), ih]

/-- The new file once each of its blocks was written, and mounted again: the next block has no slot. -/
def fullFile : LogFile := { newFile with blockGeneration := 2, blockPtr := 3 }

theorem fullFile_mounts : LogFile.mountLog 2048 0 7 7 (timedDisk id) = .ok (fullFile, timedDisk id) := by
  have found := @LogFile.Bounded.findBoundry 2 openedFile (timedDisk id) (timedDisk_bounded (by decide) (by decide))
  have read : openedFile.readBlock (timedDisk id) 2 = (timedDisk id).slots 2 :=
    LogFile.readBlock_valid (LogFile.withCrc_valid rfl rfl)
  have validates : validateHeader 2048 (timedDisk id).header = some 9 := by decide
  have mounted : LogFile.mountWith 2048 9 (timedDisk id) = .ok fullFile := by
    change (openedFile.findBoundry (timedDisk id)).map _ = _
    rw [found, read]
    rfl
  rw [LogFile.mountLog, validates]
  change (LogFile.mountWith 2048 9 (timedDisk id)).map _ = _
  rw [mounted]
  rfl

def fullPanic : PanicContext where
  flushTimer := 0
  logs _ := fullFile
  disks _ := timedDisk id
  panicMode := 1
  panicCharPtr := 0
  panicMaxCharPtr := 0

/-- More characters than the blocks have room for are no longer all on disk, and after a full file was mounted the
first block cannot be written. -/
theorem panic_log_wraps :
    (¬ ∀ (context : PanicContext) chars now (final : PanicContext) blocks, context.Idle → context.Writable →
      context.panicMode = 1 → context.dump chars now = .ok (final, blocks) →
      ∃ slots : List Nat, slots.Nodup ∧ (∀ slot ∈ slots, slot < (context.logs 0).dataBlocks) ∧
        ((slots.flatMap fun slot => ((final.disks 0).slots slot).entries (context.logs 0).blockDataSize).filter
          (·.type = typePanicLog)).flatMap (·.data) = PanicContext.printedChars false (chars.map (·.2))) ∧
    ∃ context : PanicContext, StoreRun context.toLogContext (fun _ => []) (fun _ => []) ∧ context.Idle ∧
      context.panicMode = 1 ∧ context.dump [(0, 65)] 1 = .error (.log .writeIndex) := by
  have mounted : StoreRun fullPanic.toLogContext (fun _ => []) (fun _ => []) :=
    .mounted fun _ _ => ⟨2048, 0, 7, 7, timedDisk id, fullFile_mounts⟩
  refine ⟨?_, fullPanic, mounted, mounted.idle rfl rfl, rfl, by rfl⟩
  intro kept
  rcases @PanicContext.Idle.dump _ (List.replicate 2000 (0, 65)) newPanic_idle (.inl rfl) 1 with
    ⟨_, blocked⟩ | ⟨⟨final, blocks⟩, done, _⟩
  · exact blocked newPanic_writable
  · obtain ⟨slots, distinct, inside, same⟩ := kept newPanic _ 1 final blocks newPanic_idle newPanic_writable rfl done
    have few : slots.length ≤ (List.range 3).length := distinct.length_le_of_subset fun slot member =>
      List.mem_range.mpr (inside slot member)
    have room := slots_capacity (final.disks 0).slots 488 slots
    have part := ((slots.flatMap fun slot => ((final.disks 0).slots slot).entries 488).filter_sublist
      (p := fun entry => decide (entry.type = typePanicLog))).flatMap (·.data)
    have total := congrArg List.length same
    rw [List.map_replicate, printedChars_letters, List.length_replicate] at total
    have least := part.length_le
    rw [List.length_range] at few
    have size : (newPanic.logs 0).blockDataSize = 488 := by decide
    rw [size] at total
    omega

end Jacdac
