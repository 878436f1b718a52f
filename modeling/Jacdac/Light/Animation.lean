import Jacdac.Light.Single
import Jacdac.Light.Status

/-! The animations of the LED and of the status light over runs. -/

namespace Jacdac

namespace LedSingleState

variable {spec : LedSpec} {state : LedSingleState}

/-- The number of frames among calls of `led_process` at these times. -/
def frames (state : LedSingleState) (times : List Nat) : Nat :=
  (sampleCalls frameUs state.stepSample times).countP SampleCall.returned

theorem sampleCalls_cons (period sample time : Nat) (times : List Nat) :
    sampleCalls period sample (time :: times) =
      ⟨time, (jdShouldSample (u32 time) period sample).1, (jdShouldSample (u32 time) period sample).2⟩ ::
        sampleCalls period (jdShouldSample (u32 time) period sample).2 times := by
  rw [sampleCalls]

theorem processed (time : Nat) : ((ledService spec).step state (.process time)).1 =
    (state.processSampled (jdShouldSample (u32 time) frameUs state.stepSample)).1 := by
  rw [ledService]
  dsimp only
  rw [process]

/-- A channel goes through its frames, whatever is shown. -/
theorem after_channels (times : List Nat) (i : Fin 3) :
    ((ledService spec).after state (times.map .process)).channels i =
      Channel.advance^[state.frames times] (state.channels i) := by
  induction times generalizing state with
  | nil => rfl
  | cons time times ih =>
    rw [List.map_cons, Machine.after_cons, ih, processed, frames, frames, sampleCalls_cons]
    generalize jdShouldSample (u32 time) frameUs state.stepSample = sampled
    obtain ⟨stored, moved⟩ := state.processSampled_channels sampled
    rw [stored, moved]
    obtain ⟨samples, sample⟩ := sampled
    cases samples with
    | false => rw [List.countP_cons_of_neg Bool.false_ne_true, if_neg Bool.false_ne_true]
    | true => rw [List.countP_cons_of_pos rfl, if_pos rfl, Function.iterate_succ_apply]

end LedSingleState

/-- The fields of the blinks are the same. -/
structure SameBlinks (before after : StatusState) : Prop where
  queue : after.queuedBlinks = before.queuedBlinks
  rep : after.blinkRep = before.blinkRep
  override : after.colorOverride = before.colorOverride

theorem SameBlinks.refl (state : StatusState) : SameBlinks state state := ⟨rfl, rfl, rfl⟩

theorem SameBlinks.trans {first second third : StatusState} (one : SameBlinks first second)
    (two : SameBlinks second third) : SameBlinks first third :=
  ⟨two.queue.trans one.queue, two.rep.trans one.rep, two.override.trans one.override⟩

theorem StatusState.set_channels (anim : StatusLight) (state : StatusState) :
    (state.set anim).channels = fun i => (state.channels i).animate (anim.color i) anim.speed := by
  cases state
  rfl

/-- What a glow may change: no blink, and the channels get a new animation at most. -/
structure Glows (before after : StatusState) : Prop extends SameBlinks before after where
  channels : after.channels = before.channels ∨ ∃ color, after.channels = (before.set color).channels

namespace Glows

variable {first second third : StatusState}

theorem refl (state : StatusState) : Glows state state := ⟨.refl state, .inl rfl⟩

theorem set (anim : StatusLight) (state : StatusState) : Glows state (state.set anim) := by
  cases state
  exact ⟨⟨rfl, rfl, rfl⟩, .inr ⟨anim, rfl⟩⟩

/-- Other fields may change first. -/
theorem behind (same : SameBlinks first second) (channels : second.channels = first.channels)
    (glows : Glows second third) : Glows first third where
  toSameBlinks := same.trans glows.toSameBlinks
  channels := by
    rcases glows.channels with kept | ⟨color, animated⟩
    · exact .inl (kept.trans channels)
    · exact .inr ⟨color, by rw [animated, StatusState.set_channels, StatusState.set_channels, channels]⟩

theorem reGlow (now : Nat) (state : StatusState) : Glows state (state.reGlow now) := by
  unfold StatusState.reGlow
  split
  · exact refl state
  · have changed (next : StatusState) (_ : next = if state.glow ≠ state.topGlow then
        { state with glow := state.topGlow, glowPhase := 0, glowStep := now } else state) :
        SameBlinks state next ∧ next.channels = state.channels := by
      subst next
      cases state
      split <;> exact ⟨⟨rfl, rfl, rfl⟩, rfl⟩
    dsimp only
    generalize same : (if state.glow ≠ state.topGlow then
      { state with glow := state.topGlow, glowPhase := 0, glowStep := now } else state) = next
    obtain ⟨blinks, channels⟩ := changed next same.symm
    split
    · exact behind blinks channels (set _ next)
    · exact behind blinks channels (refl next)

theorem processGlow (now : Nat) (state : StatusState) : Glows state (state.processGlow now) := by
  unfold StatusState.processGlow
  generalize inPast now state.glowStep = past
  split
  · split
    · have faded : SameBlinks state { state with glow := 0 } := by
        cases state
        exact ⟨rfl, rfl, rfl⟩
      exact behind faded rfl (reGlow now _)
    · dsimp only
      generalize (glowSpeeds[glowSpeed state.glow]?).getD ⟨0, 0, 0⟩ = desc
      generalize u32 (now + desc.timeOn) = on
      generalize u32 (now + desc.timeOff) = off
      have phased : SameBlinks state (if state.glowPhase ≠ 0 then { state with glowStep := on, glowPhase := 0 }
          else { state with glowStep := off, glowPhase := 1 }) := by
        cases state
        split <;> exact ⟨rfl, rfl, rfl⟩
      refine behind phased ?_ (set _ _)
      split <;> rfl
  · exact refl state

end Glows

/-- The animation is the same, and its next frame is due at the same time. -/
structure SameAnimation (before after : StatusState) : Prop where
  channels : after.channels = before.channels
  stepSample : after.stepSample = before.stepSample

namespace SameAnimation

variable {first second third : StatusState}

theorem refl (state : StatusState) : SameAnimation state state := ⟨rfl, rfl⟩

theorem trans (one : SameAnimation first second) (two : SameAnimation second third) : SameAnimation first third :=
  ⟨two.channels.trans one.channels, two.stepSample.trans one.stepSample⟩

end SameAnimation

namespace StatusState

variable {state : StatusState}

theorem endBlink_animation (now : Nat) (state : StatusState) : SameAnimation state (state.endBlink now) := by
  cases state
  exact ⟨rfl, rfl⟩

theorem stepBlink_animation (ledSetRgb : Bool) (now : Nat) (encoded : UInt8) (state : StatusState) :
    SameAnimation state (state.stepBlink ledSetRgb now encoded).1 := by
  unfold stepBlink
  split
  · cases ledSetRgb <;> exact ⟨rfl, rfl⟩
  · split <;> exact ⟨rfl, rfl⟩

theorem blinkSampled_animation (ledSetRgb : Bool) (now : Nat) (sampled : Bool × Nat) :
    SameAnimation state (state.blinkSampled ledSetRgb now sampled).1 := by
  obtain ⟨samples, sample⟩ := sampled
  have stored : SameAnimation state { state with blinkStep := sample } := by
    cases state
    exact ⟨rfl, rfl⟩
  unfold blinkSampled
  cases samples with
  | false => exact stored
  | true =>
    have shown := stored.trans ({ state with blinkStep := sample }.stepBlink_animation ledSetRgb now (state.queuedBlinks 0))
    dsimp only
    rw [if_neg (not_not.mpr rfl)]
    generalize { state with blinkStep := sample }.stepBlink ledSetRgb now (state.queuedBlinks 0) = stepped at shown ⊢
    split
    · exact shown.trans (stepped.1.endBlink_animation now)
    · exact shown

theorem processBlink_animation (ledSetRgb : Bool) (now : Nat) :
    SameAnimation state (state.processBlink ledSetRgb now).1 := by
  unfold processBlink
  generalize jdShouldSample now (128 * 1024) state.blinkStep = sampled
  split
  · exact .refl state
  · exact blinkSampled_animation ledSetRgb now sampled

theorem frameSampled_channels (now : Nat) (sampled : Bool × Nat) :
    if sampled.1 then
      (state.frameSampled now sampled).1.channels = channelLoop state.channels ∨
        ∃ color, (state.frameSampled now sampled).1.channels = channelLoop (state.set color).channels
    else (state.frameSampled now sampled).1.channels = state.channels := by
  obtain ⟨samples, sample⟩ := sampled
  unfold frameSampled
  cases samples with
  | false => rfl
  | true =>
    have glowed := Glows.processGlow now { state with stepSample := sample }
    dsimp only
    rw [if_pos rfl, if_neg (not_not.mpr rfl)]
    generalize { state with stepSample := sample }.processGlow now = next at glowed ⊢
    rcases glowed.channels with same | ⟨color, changed⟩
    · exact .inl (congrArg channelLoop same)
    · refine .inr ⟨color, congrArg channelLoop (changed.trans ?_)⟩
      rw [set_channels, set_channels]

/-- A call of `jd_status_process` runs the loop over the channels exactly when a frame is due, perhaps
after a new animation. -/
theorem process_channels (ledSetRgb : Bool) (now : Nat) :
    if (jdShouldSample now 65536 state.stepSample).1 then
      (state.process ledSetRgb now).1.channels = channelLoop state.channels ∨
        ∃ color, (state.process ledSetRgb now).1.channels = channelLoop (state.set color).channels
    else (state.process ledSetRgb now).1.channels = state.channels := by
  obtain ⟨channels, step⟩ := state.processBlink_animation ledSetRgb now
  rw [process, andThen_fst, processFrame]
  generalize (state.processBlink ledSetRgb now).1 = middle at channels step ⊢
  rw [step]
  generalize jdShouldSample now 65536 state.stepSample = sampled
  have framed := middle.frameSampled_channels now sampled
  simp only [set_channels, channels] at framed ⊢
  exact framed

theorem channelLoop_iterate (frames : Nat) (channels : Fin 3 → Channel) (i : Fin 3) :
    channelLoop^[frames] channels i = Channel.advance^[frames] (channels i) := by
  induction frames generalizing channels with
  | zero => rfl
  | succ frames ih =>
    rw [Function.iterate_succ_apply, Function.iterate_succ_apply, ih]
    rfl

end StatusState

/-- What an animation of a channel to a color does up to here: its value is between that at the start
and the target, the next frame does not wrap, and after `2 ^ 16` frames it is over. -/
structure Channel.Animates (start : UInt16) (color : UInt8) (frames : Nat) (channel : Channel) : Prop where
  lower : min start.toNat (color.toNat * 256) ≤ channel.value.toNat
  upper : channel.value.toNat ≤ max start.toNat (color.toNat * 256 + 255)
  exact_ : channel.advance.value.toNat = color.toNat * 256 ∨
    (channel.advance.value.toNat : Int) = channel.value.toNat + channel.speed
  ended : 65536 ≤ frames → channel.value.toNat = color.toNat * 256 ∧ channel.speed = 0

theorem Channel.advance_full (channel : Channel) : channel.advance.full = channel.full := by
  rcases channel.advance_cases with ends | ⟨_, value, moves, _⟩
  · rw [ends]
    rfl
  · rw [moves]
    rfl

theorem Channel.animates (channel : Channel) (color speed : UInt8) (frames : Nat) :
    (Channel.advance^[frames] (channel.animate color speed)).Animates channel.value color frames := by
  obtain ⟨heading, landed⟩ := channel.animation color speed frames
  have full : (Channel.advance^[frames] (channel.animate color speed)).full = color.toNat * 256 := by
    induction frames with
    | zero => rfl
    | succ frames ih =>
      obtain ⟨heading, landed⟩ := channel.animation color speed frames
      rw [Function.iterate_succ_apply', Channel.advance_full]
      exact ih heading landed
  generalize Channel.advance^[frames] (channel.animate color speed) = moved at heading landed full
  refine ⟨full ▸ heading.lower, full ▸ heading.upper, ?_, fun enough => full ▸ landed enough⟩
  rcases moved.advance_cases with ends | ⟨_, value, moves, sum, _⟩
  · rw [ends, moved.land_value, full]
    exact .inl rfl
  · rw [moves]
    exact .inr sum

/-- Whatever the color, the speed and the value at the start: in the LED service every channel goes
to the color within `2 ^ 16` frames, without leaving the range or wrapping, and stays there. So does
the loop of the status light, and `jd_status_process` runs that loop exactly when a frame is due,
perhaps after a new command. -/
theorem animation_converges (spec : LedSpec) :
    (∀ (state : LedSingleState) (anim : StatusLight) (times : List Nat) (i : Fin 3),
      (((ledService spec).after (state.animate anim) (times.map .process)).channels i).Animates
        (state.channels i).value (anim.color i) ((state.animate anim).frames times)) ∧
    (∀ (state : StatusState) (anim : StatusLight) (frames : Nat) (i : Fin 3),
      (StatusState.channelLoop^[frames] (state.set anim).channels i).Animates
        (state.channels i).value (anim.color i) frames) ∧
    ∀ (state : StatusState) (ledSetRgb : Bool) (now : Nat),
      if (jdShouldSample now 65536 state.stepSample).1 then
        (state.process ledSetRgb now).1.channels = StatusState.channelLoop state.channels ∨
          ∃ color, (state.process ledSetRgb now).1.channels = StatusState.channelLoop (state.set color).channels
      else (state.process ledSetRgb now).1.channels = state.channels := by
  refine ⟨fun state anim times i => ?_, fun state anim frames i => ?_, fun state ledSetRgb now => ?_⟩
  · rw [LedSingleState.after_channels]
    exact (state.channels i).animates (anim.color i) anim.speed _
  · rw [StatusState.channelLoop_iterate]
    exact (state.channels i).animates (anim.color i) anim.speed frames
  · exact state.process_channels ledSetRgb now

end Jacdac
