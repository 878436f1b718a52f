import Jacdac.Light.Animation

/-! What becomes of the patterns that `jd_blink` queues. -/

namespace Jacdac

namespace StatusOutput

def acceptedPattern : StatusOutput → Option UInt8
  | .accepted encoded => some encoded
  | _ => none

def finishedPattern : StatusOutput → Option UInt8
  | .finished encoded => some encoded
  | _ => none

end StatusOutput

def acceptedBlinks (out : List StatusOutput) : List UInt8 := out.filterMap StatusOutput.acceptedPattern

/-- The patterns that left the queue, in order. -/
def finishedBlinks (out : List StatusOutput) : List UInt8 := out.filterMap StatusOutput.finishedPattern

/-- The color that the override turns on: it was off before. -/
def turnedOn (before after : UInt8) : List UInt8 := if before = 0 ∧ after ≠ 0 then [after] else []

/-- The colors that the override turns on in a run, call by call. -/
def turnedOnColors (ledSetRgb : Bool) (state : StatusState) (events : List StatusEvent) : List UInt8 :=
  (statusLight ledSetRgb).observed (fun before after => turnedOn before.colorOverride after.colorOverride) state events

/-- The colors of a pattern that is shown in full; a faint one is turned on and off in one call. -/
def fullBlink (encoded : UInt8) : List UInt8 :=
  if blinkDuration encoded = 0 then [] else List.replicate (blinkRepetitions encoded) (encoded &&& 7)

theorem turnedOn_kept (override : UInt8) : turnedOn override override = [] := if_neg fun changed => changed.2 changed.1

theorem turnedOn_off (before : UInt8) : turnedOn before 0 = [] := if_neg fun changed => changed.2 rfl

section Outputs

variable (first second : List StatusOutput)

@[simp] theorem acceptedBlinks_append : acceptedBlinks (first ++ second) = acceptedBlinks first ++ acceptedBlinks second :=
  List.filterMap_append

@[simp] theorem finishedBlinks_append : finishedBlinks (first ++ second) = finishedBlinks first ++ finishedBlinks second :=
  List.filterMap_append

end Outputs

/-- Nothing happens to a pattern. -/
structure Unmarked (out : List StatusOutput) : Prop where
  accepted : acceptedBlinks out = []
  finished : finishedBlinks out = []

theorem Unmarked.nil : Unmarked [] := ⟨rfl, rfl⟩

theorem Unmarked.show_ (state : StatusState) : Unmarked [state.show_] := ⟨rfl, rfl⟩

namespace SameBlinks

theorem frameSampled (now : Nat) (sampled : Bool × Nat) (state : StatusState) :
    SameBlinks state (state.frameSampled now sampled).1 ∧ Unmarked (state.frameSampled now sampled).2 := by
  obtain ⟨samples, sample⟩ := sampled
  have stored : SameBlinks state { state with stepSample := sample } := by
    cases state
    exact ⟨rfl, rfl, rfl⟩
  unfold StatusState.frameSampled
  cases samples with
  | false => exact ⟨stored, .nil⟩
  | true =>
    have glowed := stored.trans (Glows.processGlow now { state with stepSample := sample }).toSameBlinks
    dsimp only
    rw [if_neg (not_not.mpr rfl)]
    generalize { state with stepSample := sample }.processGlow now = next at glowed ⊢
    have looped : SameBlinks next { next with channels := StatusState.channelLoop next.channels } := by
      cases next
      exact ⟨rfl, rfl, rfl⟩
    refine ⟨glowed.trans looped, ?_⟩
    split
    · exact .show_ _
    · exact .nil

theorem jdGlow (now : Nat) (ch : Fin 4) (v : UInt8) (state : StatusState) : SameBlinks state (state.jdGlow now ch v) := by
  unfold StatusState.jdGlow
  split
  · exact refl state
  · have stored : SameBlinks state { state with glowCh := Function.update state.glowCh ch v } := by
      cases state
      exact ⟨rfl, rfl, rfl⟩
    exact stored.trans (Glows.reGlow now _).toSameBlinks

theorem handleSet (now : Nat) (anim : StatusLight) (state : StatusState) : SameBlinks state (state.handleSet now anim) := by
  unfold StatusState.handleSet
  generalize u32 (now + 2 * 1048576) = step
  have stored : SameBlinks state { state with glow := glowProtect, glowStep := step } := by
    cases state
    exact ⟨rfl, rfl, rfl⟩
  exact stored.trans (Glows.set anim _).toSameBlinks

end SameBlinks

/-- What a step of a pattern does to its turns: a faint one counts two at once, an other one is turned
off or on. -/
inductive BlinkStep (encoded : UInt8) (before after : StatusState) : Prop where
  | faint (faint : blinkDuration encoded = 0) (rep : after.blinkRep = u8 (before.blinkRep + 2))
    (override : after.colorOverride = before.colorOverride ∨ after.colorOverride = 0)
  | off (plain : blinkDuration encoded ≠ 0) (odd : before.blinkRep % 2 = 1)
    (rep : after.blinkRep = u8 (before.blinkRep + 1)) (override : after.colorOverride = 0)
  | on (plain : blinkDuration encoded ≠ 0) (even : before.blinkRep % 2 = 0)
    (rep : after.blinkRep = u8 (before.blinkRep + 1)) (override : after.colorOverride = encoded &&& 7)

theorem stepBlink_step (ledSetRgb : Bool) (now : Nat) (encoded : UInt8) (state : StatusState) :
    BlinkStep encoded state (state.stepBlink ledSetRgb now encoded).1 ∧
      (state.stepBlink ledSetRgb now encoded).1.queuedBlinks = state.queuedBlinks ∧
      acceptedBlinks (state.stepBlink ledSetRgb now encoded).2 = [] ∧
      finishedBlinks (state.stepBlink ledSetRgb now encoded).2 = [] := by
  cases state
  unfold StatusState.stepBlink
  generalize u32 (now + blinkDuration encoded * (8 * 1024)) = step
  split
  · rename_i faint
    cases ledSetRgb with
    | false => exact ⟨.faint faint rfl (.inr rfl), rfl, rfl, rfl⟩
    | true => exact ⟨.faint faint rfl (.inl rfl), rfl, rfl, rfl⟩
  · rename_i plain
    split
    · rename_i odd
      exact ⟨.off plain odd rfl rfl, rfl, rfl, rfl⟩
    · rename_i even
      exact ⟨.on plain (Nat.mod_two_ne_one.mp even) rfl rfl, rfl, rfl, rfl⟩

theorem endBlink_view (now : Nat) (state : StatusState) : (state.endBlink now).queuedBlinks 0 = state.queuedBlinks 1 ∧
    (state.endBlink now).queuedBlinks 1 = state.queuedBlinks 2 ∧
    (state.endBlink now).queuedBlinks 2 = state.queuedBlinks 2 ∧
    (state.endBlink now).blinkRep = state.blinkRep ∧ (state.endBlink now).colorOverride = state.colorOverride := by
  cases state
  exact ⟨rfl, rfl, rfl, rfl, rfl⟩

/-- The turns of a pattern up to this step of it. -/
def blinkTurns (encoded : UInt8) (rep : Nat) : List UInt8 :=
  if blinkDuration encoded = 0 then [] else List.replicate ((rep + 1) / 2) (encoded &&& 7)

/-- A queue with at most this pattern in it. -/
def blinkQueue (encoded : UInt8) : List UInt8 := if encoded = 0 then [] else [encoded]

/-- With this pattern first, at this step of it, and this color: it is the only one, those before it
were shown in full, and the color is on in odd steps only. -/
structure Shown (out : List StatusOutput) (colors : List UInt8) (encoded : UInt8) (rep : Nat) (override : UInt8) : Prop where
  order : acceptedBlinks out = finishedBlinks out ++ blinkQueue encoded
  turned : colors = (finishedBlinks out).flatMap fullBlink ++ blinkTurns encoded rep
  idle : encoded = 0 → override = 0
  dark : rep % 2 = 0 → override = 0
  pending : encoded ≠ 0 → rep < 2 * blinkRepetitions encoded
  faint : encoded ≠ 0 → blinkDuration encoded = 0 → rep % 2 = 0
  colored : encoded ≠ 0 → blinkDuration encoded ≠ 0 → encoded &&& 7 ≠ 0

theorem blinkRepetitions_lt (encoded : UInt8) : blinkRepetitions encoded < 8 := Nat.mod_lt _ (Nat.zero_lt_succ 7)

theorem blinkTurns_faint {encoded : UInt8} (faint : blinkDuration encoded = 0) (rep : Nat) : blinkTurns encoded rep = [] :=
  if_pos faint

theorem blinkTurns_plain {encoded : UInt8} (plain : blinkDuration encoded ≠ 0) (rep : Nat) :
    blinkTurns encoded rep = List.replicate ((rep + 1) / 2) (encoded &&& 7) := if_neg plain

namespace BlinkStep

variable {encoded : UInt8} {before after : StatusState}

theorem turns (step : BlinkStep encoded before after) (small : before.blinkRep < 14)
    (off : before.blinkRep % 2 = 0 → before.colorOverride = 0) (colored : blinkDuration encoded ≠ 0 → encoded &&& 7 ≠ 0) :
    blinkTurns encoded after.blinkRep =
      blinkTurns encoded before.blinkRep ++ turnedOn before.colorOverride after.colorOverride := by
  cases step with
  | faint faint rep override =>
    have quiet : turnedOn before.colorOverride after.colorOverride = [] := by
      rcases override with same | zero
      · rw [same, turnedOn_kept]
      · rw [zero, turnedOn_off]
    rw [quiet, blinkTurns_faint faint, blinkTurns_faint faint, List.append_nil]
  | off plain odd rep override =>
    have count : (before.blinkRep + 1 + 1) / 2 = (before.blinkRep + 1) / 2 := by omega
    rw [override, turnedOn_off, rep, u8, Nat.mod_eq_of_lt (by omega), blinkTurns_plain plain, blinkTurns_plain plain, count,
      List.append_nil]
  | on plain even rep override =>
    have count : (before.blinkRep + 1 + 1) / 2 = (before.blinkRep + 1) / 2 + 1 := by omega
    have lit : turnedOn before.colorOverride after.colorOverride = [encoded &&& 7] := by
      rw [override, off even]
      exact if_pos ⟨rfl, colored plain⟩
    rw [lit, rep, u8, Nat.mod_eq_of_lt (by omega), blinkTurns_plain plain, blinkTurns_plain plain, count,
      List.replicate_succ']

theorem dark (step : BlinkStep encoded before after) (off : blinkDuration encoded = 0 → before.colorOverride = 0)
    (even : after.blinkRep % 2 = 0) : after.colorOverride = 0 := by
  cases step with
  | faint faint rep override =>
    rcases override with same | zero
    · exact same.trans (off faint)
    · exact zero
  | off plain odd rep override => exact override
  | on plain even' rep override =>
    rw [rep, u8] at even
    omega

/-- How far the turns are. -/
theorem rep_cases (step : BlinkStep encoded before after) (small : before.blinkRep < 14)
    (even : blinkDuration encoded = 0 → before.blinkRep % 2 = 0) :
    (blinkDuration encoded = 0 → after.blinkRep % 2 = 0) ∧ before.blinkRep < after.blinkRep ∧
      after.blinkRep / 2 ≤ before.blinkRep / 2 + 1 ∧
      (before.blinkRep / 2 < after.blinkRep / 2 → after.blinkRep % 2 = 0) := by
  cases step with
  | faint faint rep override =>
    have started := even faint
    rw [rep, u8]
    omega
  | off plain odd rep override =>
    rw [rep, u8]
    omega
  | on plain even' rep override =>
    rw [rep, u8]
    omega

end BlinkStep

namespace Shown

variable {out more : List StatusOutput} {colors : List UInt8} {encoded override : UInt8} {rep : Nat}

theorem append (shown : Shown out colors encoded rep override) (unmarked : Unmarked more) :
    Shown (out ++ more) colors encoded rep override where
  order := by
    rw [acceptedBlinks_append, finishedBlinks_append, unmarked.accepted, unmarked.finished, List.append_nil,
      List.append_nil]
    exact shown.order
  turned := by
    rw [finishedBlinks_append, unmarked.finished, List.append_nil]
    exact shown.turned
  idle := shown.idle
  dark := shown.dark
  pending := shown.pending
  faint := shown.faint
  colored := shown.colored

/-- A pattern that finds the queue empty. -/
theorem accept (shown : Shown out colors 0 rep override) (repeats : blinkRepetitions encoded ≠ 0)
    (colored : blinkDuration encoded ≠ 0 → encoded &&& 7 ≠ 0) :
    Shown (out ++ [.accepted encoded]) colors encoded 0 override where
  order := by
    have present : encoded ≠ 0 := by
      rintro rfl
      exact repeats rfl
    have order : acceptedBlinks out = finishedBlinks out ++ [] := shown.order
    have finished : finishedBlinks [.accepted encoded] = [] := rfl
    rw [acceptedBlinks_append, finishedBlinks_append, order, finished, blinkQueue, if_neg present, List.append_nil]
    rfl
  turned := by
    have turned : colors = (finishedBlinks out).flatMap fullBlink ++ [] := shown.turned
    have finished : finishedBlinks [.accepted encoded] = [] := rfl
    have quiet : blinkTurns encoded 0 = [] := by
      unfold blinkTurns
      split <;> rfl
    rw [finishedBlinks_append, turned, finished, quiet, List.append_nil, List.append_nil, List.append_nil]
  idle := fun _ => shown.idle rfl
  dark := fun _ => shown.idle rfl
  pending := fun _ => Nat.mul_pos (Nat.zero_lt_succ 1) (Nat.pos_of_ne_zero repeats)
  faint := fun _ _ => rfl
  colored := fun _ => colored

section Steps

variable {before after : StatusState}

theorem small (shown : Shown out colors encoded before.blinkRep override) (present : encoded ≠ 0) : before.blinkRep < 14 := by
  have pending := shown.pending present
  have bound := blinkRepetitions_lt encoded
  omega

theorem off (shown : Shown out colors encoded before.blinkRep before.colorOverride) (present : encoded ≠ 0)
    (faint : blinkDuration encoded = 0) : before.colorOverride = 0 :=
  shown.dark (shown.faint present faint)

/-- The next step of a pattern that goes on after it. -/
theorem step (shown : Shown out colors encoded before.blinkRep before.colorOverride) (present : encoded ≠ 0)
    (step : BlinkStep encoded before after) (accepted : acceptedBlinks more = []) (finished : finishedBlinks more = [])
    (onward : after.blinkRep / 2 < blinkRepetitions encoded) :
    Shown (out ++ more) (colors ++ turnedOn before.colorOverride after.colorOverride) encoded after.blinkRep
      after.colorOverride where
  order := by
    rw [acceptedBlinks_append, finishedBlinks_append, accepted, finished, List.append_nil, List.append_nil]
    exact shown.order
  turned := by
    rw [finishedBlinks_append, finished, List.append_nil, step.turns (shown.small present) shown.dark (shown.colored present),
      ← List.append_assoc, ← shown.turned]
  idle := fun absent => absurd absent present
  dark := step.dark (shown.off present)
  pending := fun _ => by omega
  faint := fun _ => (step.rep_cases (shown.small present) (shown.faint present)).1
  colored := shown.colored

/-- The last step of a pattern. -/
theorem finish (shown : Shown out colors encoded before.blinkRep before.colorOverride) (present : encoded ≠ 0)
    (step : BlinkStep encoded before after) (accepted : acceptedBlinks more = []) (finished : finishedBlinks more = [])
    (ends : blinkRepetitions encoded ≤ after.blinkRep / 2) :
    Shown (out ++ (more ++ [.finished encoded])) (colors ++ turnedOn before.colorOverride after.colorOverride) 0
      after.blinkRep after.colorOverride := by
  have pending := shown.pending present
  obtain ⟨_, _, most, full⟩ := step.rep_cases (shown.small present) (shown.faint present)
  have even : after.blinkRep % 2 = 0 := full (by omega)
  have off : after.colorOverride = 0 := step.dark (shown.off present) even
  have turns : blinkTurns encoded after.blinkRep = fullBlink encoded := by
    have count : (after.blinkRep + 1) / 2 = blinkRepetitions encoded := by omega
    rw [blinkTurns, count, fullBlink]
  have ended : finishedBlinks (more ++ [.finished encoded]) = [encoded] := by
    rw [finishedBlinks_append, finished]
    rfl
  have unaccepted : acceptedBlinks (more ++ [.finished encoded]) = [] := by
    rw [acceptedBlinks_append, accepted]
    rfl
  constructor
  case order =>
    rw [acceptedBlinks_append, finishedBlinks_append, unaccepted, ended, shown.order, blinkQueue, if_neg present,
      List.append_nil]
    exact (List.append_nil _).symm
  case turned =>
    have whole := step.turns (shown.small present) shown.dark (shown.colored present)
    rw [turns] at whole
    rw [finishedBlinks_append, ended, shown.turned, List.append_assoc, ← whole, List.flatMap_append]
    simp [blinkTurns, blinkDuration]
  case idle => exact fun _ => off
  case dark => exact fun _ => off
  case pending => exact fun absent => absurd rfl absent
  case faint => exact fun absent => absurd rfl absent
  case colored => exact fun absent => absurd rfl absent

end Steps

end Shown

/-- The first slot is shown, and the other two are empty. -/
structure ShownAlone (out : List StatusOutput) (colors : List UInt8) (state : StatusState) : Prop where
  shown : Shown out colors (state.queuedBlinks 0) state.blinkRep state.colorOverride
  second : state.queuedBlinks 1 = 0
  third : state.queuedBlinks 2 = 0

attribute [local instance] threeSlots in
/-- With this call of `jd_blink` no pattern waits behind an other one, and none without a color is accepted that is not
faint: the queue has the pattern already, or the pattern is faint, or it has a color and the queue is empty. -/
def BlinksAlone (state : StatusState) : StatusEvent → Prop
  | .blink _ encoded => state.queuedBlinks 0 = encoded ∨ blinkDuration encoded = 0 ∨
      state.queuedBlinks 0 = 0 ∧ encoded &&& 7 ≠ 0
  | _ => True

/-- The pattern of a call of `jd_blink` has repetitions. -/
def StatusEvent.Repeats : StatusEvent → Prop
  | .blink _ encoded => blinkRepetitions encoded ≠ 0
  | _ => True

namespace ShownAlone

variable {out more : List StatusOutput} {colors : List UInt8} {state next : StatusState}

theorem same (alone : ShownAlone out colors state) (blinks : SameBlinks state next) (unmarked : Unmarked more) :
    ShownAlone (out ++ more) colors next where
  shown := by
    rw [blinks.queue, blinks.rep, blinks.override]
    exact alone.shown.append unmarked
  second := by rw [blinks.queue, alone.second]
  third := by rw [blinks.queue, alone.third]

theorem jdBlink (alone : ShownAlone out colors state) {encoded : UInt8} (now : Nat) (repeats : blinkRepetitions encoded ≠ 0)
    (only : state.queuedBlinks 0 = encoded ∨ blinkDuration encoded = 0 ∨ state.queuedBlinks 0 = 0 ∧ encoded &&& 7 ≠ 0) :
    ShownAlone (out ++ (state.jdBlink now encoded).2) colors (state.jdBlink now encoded).1 ∧
      (state.jdBlink now encoded).1.colorOverride = state.colorOverride := by
  have ignored : ShownAlone (out ++ []) colors state := alone.same (.refl state) .nil
  have slots : List.finRange 3 = [0, 1, 2] := by decide
  rw [StatusState.jdBlink, slots, StatusState.blinkLoop]
  split_ifs with queued empty shows first
  · exact ⟨ignored, rfl⟩
  · have shown := alone.shown
    rw [empty] at shown
    have colored : blinkDuration encoded ≠ 0 → encoded &&& 7 ≠ 0 := fun plain =>
      ((only.resolve_left queued).resolve_left plain).2
    exact ⟨⟨shown.accept repeats colored, alone.second, alone.third⟩, rfl⟩
  · exact absurd rfl first
  · exact absurd (.inr rfl) shows
  · have faint : blinkDuration encoded = 0 := (only.resolve_left queued).resolve_right fun free => empty free.1
    have behind : ¬ (blinkDuration encoded ≠ 0 ∨ (1 : Fin 3) = 0) := by
      rintro (plain | one)
      · exact plain faint
      · exact absurd one (by decide)
    rw [StatusState.blinkLoop, alone.second, if_pos rfl, if_neg behind]
    split
    · exact ⟨ignored, rfl⟩
    · exact ⟨ignored, rfl⟩

theorem blinkSampled (alone : ShownAlone out colors state) (present : state.queuedBlinks 0 ≠ 0) (ledSetRgb : Bool) (now : Nat)
    (sampled : Bool × Nat) :
    ShownAlone (out ++ (state.blinkSampled ledSetRgb now sampled).2)
      (colors ++ turnedOn state.colorOverride (state.blinkSampled ledSetRgb now sampled).1.colorOverride)
      (state.blinkSampled ledSetRgb now sampled).1 := by
  obtain ⟨samples, sample⟩ := sampled
  have stored : SameBlinks state { state with blinkStep := sample } := by
    cases state
    exact ⟨rfl, rfl, rfl⟩
  unfold StatusState.blinkSampled
  cases samples with
  | false =>
    have quiet : turnedOn state.colorOverride state.colorOverride = [] := turnedOn_kept _
    have kept := alone.same stored .nil
    rw [← List.append_nil colors, ← quiet] at kept
    exact kept
  | true =>
    have started := alone.same stored .nil
    rw [List.append_nil] at started
    have head : state.queuedBlinks 0 = { state with blinkStep := sample }.queuedBlinks 0 := rfl
    dsimp only
    rw [if_neg (not_not.mpr rfl)]
    rw [head] at present ⊢
    have override : { state with blinkStep := sample }.colorOverride = state.colorOverride := rfl
    generalize { state with blinkStep := sample } = before at started present override ⊢
    rw [← override]
    obtain ⟨step, queue, accepted, finished⟩ := stepBlink_step ledSetRgb now (before.queuedBlinks 0) before
    generalize before.stepBlink ledSetRgb now (before.queuedBlinks 0) = stepped at step queue accepted finished ⊢
    split
    · rename_i ends
      obtain ⟨first, second, third, rep, color⟩ := endBlink_view now stepped.1
      have shown := started.shown.finish present step accepted finished ends
      rw [← rep, ← color] at shown
      rw [queue, started.second] at first
      rw [queue, started.third] at second third
      rw [← first] at shown
      exact ⟨shown, second, third⟩
    · rename_i onward
      have shown := started.shown.step present step accepted finished (Nat.lt_of_not_le onward)
      rw [← queue] at shown
      exact ⟨shown, queue ▸ started.second, queue ▸ started.third⟩

theorem processBlink (alone : ShownAlone out colors state) (ledSetRgb : Bool) (now : Nat) :
    ShownAlone (out ++ (state.processBlink ledSetRgb now).2)
      (colors ++ turnedOn state.colorOverride (state.processBlink ledSetRgb now).1.colorOverride)
      (state.processBlink ledSetRgb now).1 := by
  unfold StatusState.processBlink
  generalize jdShouldSample now (128 * 1024) state.blinkStep = sampled
  split
  · rw [turnedOn_kept, List.append_nil colors]
    exact alone.same (.refl state) .nil
  · rename_i present
    exact alone.blinkSampled present ledSetRgb now sampled

theorem process (alone : ShownAlone out colors state) (ledSetRgb : Bool) (now : Nat) :
    ShownAlone (out ++ (state.process ledSetRgb now).2)
      (colors ++ turnedOn state.colorOverride (state.process ledSetRgb now).1.colorOverride)
      (state.process ledSetRgb now).1 := by
  have blinked := alone.processBlink ledSetRgb now
  rw [StatusState.process, andThen_fst, andThen_snd, StatusState.processFrame]
  generalize state.processBlink ledSetRgb now = middle at blinked ⊢
  generalize jdShouldSample now 65536 middle.1.stepSample = sampled
  obtain ⟨blinks, unmarked⟩ := SameBlinks.frameSampled now sampled middle.1
  rw [← List.append_assoc, blinks.override]
  exact blinked.same blinks unmarked

theorem step (alone : ShownAlone out colors state) (ledSetRgb : Bool) {event : StatusEvent} (repeats : event.Repeats)
    (only : BlinksAlone state event) :
    ShownAlone (out ++ ((statusLight ledSetRgb).step state event).2)
      (colors ++ turnedOn state.colorOverride ((statusLight ledSetRgb).step state event).1.colorOverride)
      ((statusLight ledSetRgb).step state event).1 := by
  have dark {more : List StatusOutput} {next : StatusState} (kept : ShownAlone (out ++ more) colors next)
      (override : next.colorOverride = state.colorOverride) :
      ShownAlone (out ++ more) (colors ++ turnedOn state.colorOverride next.colorOverride) next := by
    rwa [override, turnedOn_kept, List.append_nil]
  cases event with
  | blink now encoded =>
    obtain ⟨kept, override⟩ := alone.jdBlink (u32 now) repeats only
    exact dark kept override
  | glow now ch v =>
    have glowed := SameBlinks.jdGlow (u32 now) ch v state
    exact dark (alone.same glowed .nil) glowed.override
  | set now anim =>
    have handled := SameBlinks.handleSet (u32 now) anim state
    exact dark (alone.same handled .nil) handled.override
  | process now => exact alone.process ledSetRgb (u32 now)

end ShownAlone

/-- `status_ctx` before any call. -/
def StatusState.init (channels : Fin 3 → Channel) : StatusState where
  stepSample := 0
  glowStep := 0
  blinkStep := 0
  glow := 0
  glowCh _ := 0
  glowPhase := 0
  blinkRep := 0
  colorOverride := 0
  queuedBlinks _ := 0
  channels := channels

theorem ShownAlone.init (channels : Fin 3 → Channel) : ShownAlone [] [] (.init channels) where
  shown := by
    constructor
    case order => rfl
    case turned =>
      have empty : blinkTurns ((StatusState.init channels).queuedBlinks 0) (StatusState.init channels).blinkRep =
          blinkTurns 0 0 := rfl
      have quiet : blinkTurns 0 0 = [] := by decide
      rw [empty, quiet]
      rfl
    case idle => exact fun _ => rfl
    case dark => exact fun _ => rfl
    case pending => exact fun present => absurd rfl present
    case faint => exact fun present => absurd rfl present
    case colored => exact fun present => absurd rfl present
  second := rfl
  third := rfl

section Runs

variable {ledSetRgb : Bool} {events : List StatusEvent}

theorem ShownAlone.run {out : List StatusOutput} {colors : List UInt8} {state : StatusState}
    (alone : ShownAlone out colors state) (repeats : ∀ event ∈ events, event.Repeats)
    (only : (statusLight ledSetRgb).Along BlinksAlone state events) :
    ShownAlone (out ++ (statusLight ledSetRgb).emitted state events) (colors ++ turnedOnColors ledSetRgb state events)
      ((statusLight ledSetRgb).after state events) := by
  induction events generalizing out colors state with
  | nil =>
    rw [turnedOnColors, Machine.observed_nil, List.append_nil]
    exact alone.same (.refl state) .nil
  | cons event events ih =>
    obtain ⟨first, rest⟩ := only
    have stepped := alone.step ledSetRgb (repeats event List.mem_cons_self) first
    rw [Machine.emitted_cons, Machine.after_cons, turnedOnColors, Machine.observed_cons, ← List.append_assoc,
      ← List.append_assoc]
    exact ih stepped (fun later member => repeats later (List.mem_cons_of_mem event member)) rest

end Runs

/-- A call of `jd_status_process` at a time when a pattern is due. -/
theorem Shown.due {out : List StatusOutput} {colors : List UInt8} {state : StatusState}
    (shown : Shown out colors (state.queuedBlinks 0) state.blinkRep state.colorOverride) (present : state.queuedBlinks 0 ≠ 0)
    (ledSetRgb : Bool) (now : Nat) (due : (jdShouldSample now (128 * 1024) state.blinkStep).1 = true) :
    finishedBlinks (state.process ledSetRgb now).2 = [state.queuedBlinks 0] ∨
      state.blinkRep < (state.process ledSetRgb now).1.blinkRep ∧
        (state.process ledSetRgb now).1.blinkRep / 2 < blinkRepetitions (state.queuedBlinks 0) := by
  rw [StatusState.process, andThen_fst, andThen_snd, StatusState.processFrame, StatusState.processBlink, if_neg present]
  generalize jdShouldSample now (128 * 1024) state.blinkStep = sampled at due ⊢
  obtain ⟨samples, sample⟩ := sampled
  cases due
  have progress : finishedBlinks (state.blinkSampled ledSetRgb now (true, sample)).2 = [state.queuedBlinks 0] ∨
      state.blinkRep < (state.blinkSampled ledSetRgb now (true, sample)).1.blinkRep ∧
        (state.blinkSampled ledSetRgb now (true, sample)).1.blinkRep / 2 < blinkRepetitions (state.queuedBlinks 0) := by
    have rep : state.blinkRep = { state with blinkStep := sample }.blinkRep := rfl
    have pending := shown.pending present
    have bound := blinkRepetitions_lt (state.queuedBlinks 0)
    have even := shown.faint present
    unfold StatusState.blinkSampled
    dsimp only
    rw [if_neg (not_not.mpr rfl)]
    rw [rep] at pending even ⊢
    generalize { state with blinkStep := sample } = before at pending even ⊢
    obtain ⟨step, queue, accepted, finished⟩ := stepBlink_step ledSetRgb now (state.queuedBlinks 0) before
    generalize before.stepBlink ledSetRgb now (state.queuedBlinks 0) = stepped at step queue accepted finished ⊢
    split
    · left
      rw [finishedBlinks_append, finished]
      rfl
    · rename_i onward
      exact .inr ⟨(step.rep_cases (by omega) even).2.1, Nat.lt_of_not_le onward⟩
  generalize state.blinkSampled ledSetRgb now (true, sample) = middle at progress ⊢
  generalize jdShouldSample now 65536 middle.1.stepSample = sampled
  obtain ⟨blinks, unmarked⟩ := SameBlinks.frameSampled now sampled middle.1
  rw [finishedBlinks_append, unmarked.finished, List.append_nil, blinks.rep]
  exact progress

/-- In a run in which no pattern waits behind an other one and all have a color, at every moment: the accepted patterns
are those that left the queue, in order and once, and the one in it; the override took on the color of each that left
it as often as that repeats, and of the one in it at most so often; without one in it the color is off; and whenever
one is due it ends or comes nearer to its end. -/
theorem blinks_shown (ledSetRgb : Bool) (channels : Fin 3 → Channel) (events : List StatusEvent)
    (repeats : ∀ event ∈ events, event.Repeats)
    (only : (statusLight ledSetRgb).Along BlinksAlone (.init channels) events)
    (early late : List StatusEvent) (split : events = early ++ late) :
    let state := (statusLight ledSetRgb).after (.init channels) early
    let out := (statusLight ledSetRgb).emitted (.init channels) early
    acceptedBlinks out = finishedBlinks out ++ blinkQueue (state.queuedBlinks 0) ∧
      (∃ turns ≤ blinkRepetitions (state.queuedBlinks 0),
        turnedOnColors ledSetRgb (.init channels) early =
          (finishedBlinks out).flatMap fullBlink ++ List.replicate turns (state.queuedBlinks 0 &&& 7)) ∧
      (state.queuedBlinks 0 = 0 → state.colorOverride = 0) ∧
      ∀ now, state.queuedBlinks 0 ≠ 0 → (jdShouldSample (u32 now) (128 * 1024) state.blinkStep).1 = true →
        finishedBlinks ((statusLight ledSetRgb).step state (.process now)).2 = [state.queuedBlinks 0] ∨
          state.blinkRep < ((statusLight ledSetRgb).step state (.process now)).1.blinkRep ∧
            ((statusLight ledSetRgb).step state (.process now)).1.blinkRep / 2 <
              blinkRepetitions (state.queuedBlinks 0) := by
  intro state out
  subst split
  have alone : ShownAlone out (turnedOnColors ledSetRgb (.init channels) early) state := (ShownAlone.init channels).run
    (fun event member => repeats event (List.mem_append_left _ member)) only.left
  generalize state = reached at alone ⊢
  generalize out = shown at alone ⊢
  generalize turnedOnColors ledSetRgb (.init channels) early = colors at alone ⊢
  refine ⟨alone.shown.order, ?_, alone.shown.idle, fun now present due => alone.shown.due present ledSetRgb (u32 now) due⟩
  rw [alone.shown.turned]
  by_cases faint : blinkDuration (reached.queuedBlinks 0) = 0
  · refine ⟨0, Nat.zero_le _, ?_⟩
    rw [blinkTurns_faint faint, List.replicate_zero]
  · have present : reached.queuedBlinks 0 ≠ 0 := by
      intro empty
      rw [empty] at faint
      exact faint rfl
    have pending := alone.shown.pending present
    refine ⟨(reached.blinkRep + 1) / 2, by omega, ?_⟩
    rw [blinkTurns_plain faint]

/-- A green pattern, then, after it has ended, a blue one. -/
def blinkEvents : List StatusEvent :=
  [.blink 0 74, .process 1, .process 200000, .blink 300000 76, .process 300001, .process 500000]

instance decidableBlinksAlone (state : StatusState) (event : StatusEvent) : Decidable (BlinksAlone state event) :=
  match event with
  | .blink _ encoded => inferInstanceAs
      (Decidable (state.queuedBlinks 0 = encoded ∨ blinkDuration encoded = 0 ∨
        state.queuedBlinks 0 = 0 ∧ encoded &&& 7 ≠ 0))
  | .glow .. => inferInstanceAs (Decidable True)
  | .set .. => inferInstanceAs (Decidable True)
  | .process _ => inferInstanceAs (Decidable True)

instance decidableRepeats (event : StatusEvent) : Decidable event.Repeats :=
  match event with
  | .blink _ encoded => inferInstanceAs (Decidable (blinkRepetitions encoded ≠ 0))
  | .glow .. => inferInstanceAs (Decidable True)
  | .set .. => inferInstanceAs (Decidable True)
  | .process _ => inferInstanceAs (Decidable True)

def darkChannels : Fin 3 → Channel := fun _ => ⟨0, 0, 0, 0, 0, 0⟩

theorem blinks_shown_two :
    let out := (statusLight false).emitted (.init darkChannels) blinkEvents
    let state := (statusLight false).after (.init darkChannels) blinkEvents
    acceptedBlinks out = [74, 76] ∧ turnedOnColors false (.init darkChannels) blinkEvents = [2, 4] ∧
      acceptedBlinks out = finishedBlinks out ++ blinkQueue (state.queuedBlinks 0) :=
  ⟨by decide +kernel, by decide +kernel, (blinks_shown false darkChannels blinkEvents (by decide) (by decide +kernel)
    blinkEvents [] (List.append_nil _).symm).1⟩

/-- A pattern that waits goes on from the repetitions of the one before it: after it the color stays
on. A pattern without a color is never turned on. -/
theorem blinks_not_shown :
    let waiting : List StatusEvent := [.blink 0 73, .blink 0 74, .process 1, .process 8194, .process 300000]
    let colorless : List StatusEvent := [.blink 0 72, .process 1, .process 200000]
    ((statusLight false).after (.init darkChannels) waiting).queuedBlinks 0 = 0 ∧
      ((statusLight false).after (.init darkChannels) waiting).colorOverride = 2 ∧
      finishedBlinks ((statusLight false).emitted (.init darkChannels) colorless) = [72] ∧
      turnedOnColors false (.init darkChannels) colorless = [] := by decide +kernel

end Jacdac
