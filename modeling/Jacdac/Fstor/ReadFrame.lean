import Jacdac.Fstor.Allocate

/-! What `jd_settings_get_bin` reads of the flash and writes to the caller's buffer. -/

namespace Jacdac

namespace LargeFstor

open Fstor

variable {config : FstorConfig} {store next : LargeFstor} {base : Nat} {settings : List Setting} {space : Nat} {torn : Prop}

/-- The range that the `memcpy` of `jd_settings_get_bin` reads: its address and
its number of bytes. -/
def getBinSource (config : FstorConfig) (key : Option CString) (space : Nat) (store : LargeFstor) :
    Except LargeFault (Option (Nat × Nat)) :=
  match key.filter keyOk with
  | none => .ok none
  | some key => do
    let (found, store) ← store.findEntry config key
    .ok (found.bind fun entry =>
      if space ≥ entrySize store.core.flash entry then some (entryOffset store.core.flash entry, space) else none)

theorem jdSettingsGetBin_copied {after : LargeFstor}
    (done : store.jdSettingsGetBin config key space = .ok (result, copied, after)) :
    ∃ source, store.getBinSource config key space = .ok source ∧
      copied = source.elim [] fun range => after.core.flash.read range.1 range.2 := by
  unfold jdSettingsGetBin at done
  unfold getBinSource
  cases accepted : key.filter keyOk with
  | none =>
    rw [accepted] at done
    cases done
    exact ⟨none, rfl, rfl⟩
  | some name =>
    rw [accepted] at done
    obtain ⟨⟨found, mounted⟩, lookup, done⟩ := ok_of_bind done
    dsimp only at done ⊢
    rw [lookup, ok_bind]
    refine ⟨_, rfl, ?_⟩
    cases found with
    | none =>
      cases done
      rfl
    | some entry =>
      cases done
      by_cases room : space ≥ entrySize after.core.flash entry
      · rw [if_pos room, Option.bind_some, if_pos room]
        rfl
      · rw [if_neg room, Option.bind_some, if_neg room]
        rfl

/-- A buffer after `memcpy` to its start. -/
def overwritten (dst copied : List UInt8) : List UInt8 := copied ++ dst.drop copied.length

/-- The entry that holds the value of an accepted key. -/
def FindsEntry (config : FstorConfig) (store : LargeFstor) (key : Option CString) (entry : Nat) : Prop :=
  ∃ name after, key.filter keyOk = some name ∧ store.findEntry config name = .ok (some entry, after)

/-- The call changes nothing of the buffer behind the value, and reads only the
value of the entry it found. -/
def ReadsOnly (config : FstorConfig) (store : LargeFstor) (key : Option CString) (space : Nat) : Prop :=
  ∃ result copied after source, store.jdSettingsGetBin config key space = .ok (result, copied, after) ∧
    store.getBinSource config key space = .ok source ∧
    (∀ dst : List UInt8, dst.length = space → (overwritten dst copied).drop result.toNat = dst.drop result.toNat) ∧
    ∀ address count, source = some (address, count) →
      copied = store.core.flash.read address count ∧ address + count ≤ config.totalPages * config.pageSize ∧
      ∃ entry, FindsEntry config store key entry ∧ entryOffset store.core.flash entry ≤ address ∧
        address + count ≤ entryOffset store.core.flash entry + entrySize store.core.flash entry

/-- A buffer with a byte more than the value is overwritten there. -/
theorem overwritten_differs {copied : List UInt8} {size : Nat} (length : copied.length = space) (longer : size < space) :
    ∃ dst : List UInt8, dst.length = space ∧ (overwritten dst copied).drop size ≠ dst.drop size := by
  have inside : size < copied.length := by omega
  refine ⟨List.replicate space (copied[size] + 1), List.length_replicate, fun same => ?_⟩
  have first := congrArg List.head? same
  rw [overwritten, List.drop_eq_nil_of_le (show (List.replicate space (copied[size] + 1)).length ≤ copied.length by simp [length]),
    List.append_nil, List.head?_drop, List.head?_drop, List.getElem?_eq_getElem inside,
    List.getElem?_replicate, if_pos longer] at first
  have byte := congrArg UInt8.toNat (Option.some.inj first)
  have small := copied[size].toNat_lt
  simp only [UInt8.toNat_add, UInt8.toNat_ofNat] at byte
  omega

/-- What the entry of an accepted key says. -/
theorem Kept.smallEntry (kept : Kept config torn store base settings) {name : CString} (ok : keyOk name = true) :
    store.findEntry config name = .ok (none, store) ∨
      ∃ slot, store.findEntry config name = .ok (some slot, store) ∧ entrySize store.core.flash slot < 2147483648 ∧
        entryOffset store.core.flash slot + entrySize store.core.flash slot ≤ config.totalPages * config.pageSize := by
  have latest := kept.tabled.latest name
  rw [kept.findEntry]
  cases found : lastWith Prod.fst name settings with
  | none =>
    rw [found] at latest
    generalize Fstor.latest store.core.flash base store.core.lastEntry name = slot at latest ⊢
    cases latest
    exact .inl rfl
  | some setting =>
    have small := (kept.tabled.kind found).2.2.mpr ok
    rw [found] at latest
    generalize Fstor.latest store.core.flash base store.core.lastEntry name = slot at latest ⊢
    cases latest with
    | @some slot _ holding =>
      obtain ⟨key, value | ⟨offset, size⟩⟩ := setting
      · have record : Record store.core.flash store.core.dataStart (base + config.headerSize) slot (key, value) := holding
        have size := record.size
        have inside := record.inside
        have room := kept.tabled.room
        have low := kept.tabled.area.le
        have words := config.areas_lt
        have storage := config.areas_inside
        dsimp only at size inside
        exact .inr ⟨slot, rfl, by omega, by omega⟩
      · cases small

/-- Reading touches only the setting exactly when the buffer is not longer than the value. -/
theorem Kept.readsOnly_iff (kept : Kept config torn store base settings) (key : Option CString) (space : Nat) :
    ReadsOnly config store key space ↔
      ∀ entry, FindsEntry config store key entry → space ≤ entrySize store.core.flash entry := by
  cases accepted : key.filter keyOk with
  | none =>
    refine iff_of_true ⟨-1, [], store, none, ?_, ?_, fun dst _ => rfl, fun _ _ here => (Option.some_ne_none _ here.symm).elim⟩ ?_
    · rw [jdSettingsGetBin, accepted]
    · rw [getBinSource, accepted]
    · rintro entry ⟨name, after, named, _⟩
      cases accepted.symm.trans named
  | some name =>
    have ok := (Option.filter_eq_some_iff.mp accepted).2
    rcases kept.smallEntry ok with lookup | ⟨slot, lookup, small, inside⟩
    · refine iff_of_true ⟨-2, [], store, none, ?_, ?_, fun dst _ => rfl, fun _ _ here => (Option.some_ne_none _ here.symm).elim⟩ ?_
      · rw [jdSettingsGetBin, accepted]
        dsimp only
        rw [lookup, ok_bind]
      · rw [getBinSource, accepted]
        dsimp only
        rw [lookup, ok_bind]
        rfl
      · rintro entry ⟨other, after, named, found⟩
        cases accepted.symm.trans named
        cases lookup.symm.trans found
    · have number : (signed32 (entrySize store.core.flash slot)).toNat = entrySize store.core.flash slot := by
        rw [signed32, if_pos small]
        exact Int.toNat_natCast _
      have finds : ∀ entry, FindsEntry config store key entry ↔ entry = slot := by
        intro entry
        constructor
        · rintro ⟨other, after, named, found⟩
          cases accepted.symm.trans named
          cases lookup.symm.trans found
          rfl
        · rintro rfl
          exact ⟨name, store, accepted, lookup⟩
      have read : store.jdSettingsGetBin config key space = .ok (signed32 (entrySize store.core.flash slot),
          (if space ≥ entrySize store.core.flash slot then
            store.core.flash.read (entryOffset store.core.flash slot) space else []), store) := by
        rw [jdSettingsGetBin, accepted]
        dsimp only
        rw [lookup, ok_bind]
      have range : store.getBinSource config key space = .ok (if space ≥ entrySize store.core.flash slot then
          some (entryOffset store.core.flash slot, space) else none) := by
        rw [getBinSource, accepted]
        dsimp only
        rw [lookup, ok_bind]
        rfl
      simp only [finds, forall_eq]
      constructor
      · rintro ⟨result, copied, after, source, done, _, frame, _⟩
        cases done.symm.trans read
        by_contra longer
        rw [if_pos (by omega), number] at frame
        obtain ⟨dst, length, differs⟩ := overwritten_differs (Memory.read_length store.core.flash
          (entryOffset store.core.flash slot) space) (show entrySize store.core.flash slot < space by omega)
        exact differs (frame dst length)
      · intro shorter
        refine ⟨_, _, _, _, read, range, fun dst length => ?_, fun address count here => ?_⟩
        · rw [number]
          by_cases exactly : space ≥ entrySize store.core.flash slot
          · have same : space = entrySize store.core.flash slot := by omega
            rw [if_pos exactly, overwritten, Memory.read_length, ← same]
            exact List.drop_left' (Memory.read_length ..)
          · rw [if_neg exactly]
            rfl
        · by_cases exactly : space ≥ entrySize store.core.flash slot
          · rw [if_pos exactly] at here ⊢
            cases here
            exact ⟨rfl, by omega, slot, (finds slot).mpr rfl, Nat.le_refl _, by omega⟩
          · rw [if_neg exactly] at here
            cases here

end LargeFstor

/-- In every reachable state, reading a setting leaves the buffer behind the value
and reads only the value exactly when the key is rejected, has no entry, or has a
value that is at least as long as the buffer. -/
theorem read_touches_only_setting_iff (config : FstorConfig)
    (run : LargeFstor.LargeRun config (fun _ _ _ => True) store) (key : Option CString) (space : Nat) :
    LargeFstor.ReadsOnly config store key space ↔
      ∀ entry, LargeFstor.FindsEntry config store key entry → space ≤ Fstor.entrySize store.core.flash entry := by
  obtain ⟨base, settings, kept⟩ := run.kept
  exact kept.readsOnly_iff key space

/-- The key `b`. -/
def keyB : CString := ⟨[98], by decide⟩

namespace LargeFstor

/-- Set `a` and `b`, and look `b` up: the size of its value, and what is copied
for a buffer of nine bytes. -/
def setTwo : Except LargeFault (Option Nat × List UInt8) := do
  let store ← jdFstorInit largeConfig ⟨Fstor.boot erasedFlash, fun _ => false⟩
  let (_, store) ← store.jdSettingsSetBin largeConfig (some keyA) [7]
  let (_, store) ← store.jdSettingsSetBin largeConfig (some keyB) [9]
  let (found, _) ← store.findEntry largeConfig keyB
  let (_, copied, _) ← store.jdSettingsGetBin largeConfig (some keyB) 9
  return (found.map (Fstor.entrySize store.core.flash), copied)

/-- The byte of `a` follows the padding of `b`. -/
theorem setTwo_run : ∃ store entry, LargeRun largeConfig (fun _ _ _ => True) store ∧
    FindsEntry largeConfig store (some keyB) entry ∧ Fstor.entrySize store.core.flash entry = 1 := by
  have done : setTwo = .ok (some 1, [9, 255, 255, 255, 255, 255, 255, 255, 7]) := by decide +kernel
  obtain ⟨first, init, done⟩ := ok_of_bind done
  obtain ⟨⟨_, second⟩, one, done⟩ := ok_of_bind done
  obtain ⟨⟨_, third⟩, two, done⟩ := ok_of_bind done
  obtain ⟨⟨found, after⟩, lookup, done⟩ := ok_of_bind done
  obtain ⟨_, _, done⟩ := ok_of_bind done
  have size := congrArg Prod.fst (Except.ok.inj done)
  obtain ⟨entry, rfl, length⟩ := Option.map_eq_some_iff.mp size
  exact ⟨third, entry, .set (.set (.mounted init) (some keyA) [7] one) (some keyB) [9] two,
    ⟨keyB, after, by decide, lookup⟩, length⟩

end LargeFstor

theorem read_touches_only_setting_exact :
    ∃ store entry, LargeFstor.LargeRun largeConfig (fun _ _ _ => True) store ∧
      LargeFstor.FindsEntry largeConfig store (some keyB) entry ∧ Fstor.entrySize store.core.flash entry = 1 ∧
      LargeFstor.ReadsOnly largeConfig store (some keyB) 1 := by
  obtain ⟨store, entry, run, finds, size⟩ := LargeFstor.setTwo_run
  refine ⟨store, entry, run, finds, size, (read_touches_only_setting_iff largeConfig run (some keyB) 1).mpr ?_⟩
  rintro other ⟨name, after, named, lookup⟩
  obtain ⟨again, later, called, found⟩ := finds
  cases named.symm.trans called
  cases lookup.symm.trans found
  exact Nat.le_of_eq size.symm

/-- A buffer longer than the value gets bytes of another key. -/
theorem read_copies_other_setting :
    ¬ ∀ config store, LargeFstor.LargeRun config (fun _ _ _ => True) store →
      ∀ key space, LargeFstor.ReadsOnly config store key space := by
  intro holds
  obtain ⟨store, entry, run, finds, size⟩ := LargeFstor.setTwo_run
  obtain ⟨base, settings, kept⟩ := run.kept
  have short := (kept.readsOnly_iff (some keyB) 9).mp (holds largeConfig store run (some keyB) 9) entry finds
  omega

end Jacdac
