import Jacdac.Log.File

/-! The millisecond clock of `jd_services.c`, which counts in whole milliseconds and
carries the rest as a time stamp in the past. -/

namespace Jacdac

/-- What `jd_refresh_now` keeps. -/
structure MsClock where
  now : Nat
  prevUs : Nat
  nowMsLong : Nat
  nowMs : Nat
  deriving DecidableEq, Repr

namespace MsClock

def init : MsClock := { now := 0, prevUs := 0, nowMsLong := 0, nowMs := 0 }

/-- The loop of `jd_refresh_now`, with the rest of `new_delta` and `now_ms_long`. -/
def countLoop (newDelta nowMsLong : Nat) : Nat × Nat :=
  if newDelta > 1000 then countLoop (newDelta - 1000) (u64 (nowMsLong + 1)) else (newDelta, nowMsLong)
termination_by newDelta
decreasing_by omega

/-- `jd_refresh_now`, where `tim_get_micros` returns `nowLong`. -/
def jdRefreshNow (nowLong : Nat) (clock : MsClock) : MsClock :=
  let now := u32 nowLong
  let newDelta := u32 (now + 4294967296 - clock.prevUs)
  let counted :=
    if newDelta < 16 * 1024 then countLoop newDelta clock.nowMsLong
    else (newDelta % 1000, u64 (clock.nowMsLong + newDelta / 1000))
  { now
    prevUs := u32 (now + 4294967296 - counted.1)
    nowMsLong := counted.2
    nowMs := u32 counted.2 }

def refreshed (times : List Nat) : MsClock := times.foldl (fun clock time => clock.jdRefreshNow time) init

/-- The microseconds that are not counted yet. -/
def rest (clock : MsClock) : Nat := u32 (clock.now + 4294967296 - clock.prevUs)

/-- The counted milliseconds and the rest make up the time. -/
structure Accounts (clock : MsClock) (time : Nat) : Prop where
  now : clock.now = u32 time
  stored : clock.prevUs < 4294967296
  total : 1000 * clock.nowMsLong + clock.rest = time
  small : clock.rest ≤ 1000

variable {clock : MsClock} {time later : Nat}

/-- The loop moves whole milliseconds over. -/
theorem countLoop_spec (newDelta nowMsLong : Nat) (fits : nowMsLong + newDelta < 18446744073709551616) :
    1000 * (countLoop newDelta nowMsLong).2 + (countLoop newDelta nowMsLong).1 = 1000 * nowMsLong + newDelta ∧
      (countLoop newDelta nowMsLong).1 ≤ 1000 := by
  induction newDelta, nowMsLong using countLoop.induct with
  | case1 newDelta nowMsLong more ih =>
    have next : u64 (nowMsLong + 1) = nowMsLong + 1 := Nat.mod_eq_of_lt (by omega)
    rw [next] at ih
    obtain ⟨total, small⟩ := ih (by omega)
    rw [countLoop, if_pos more, next]
    exact ⟨by omega, small⟩
  | case2 newDelta nowMsLong done =>
    rw [countLoop, if_neg done]
    exact ⟨rfl, Nat.le_of_not_gt done⟩

namespace Accounts

theorem init : Accounts .init 0 := ⟨rfl, Nat.zero_lt_succ _, rfl, Nat.zero_le _⟩

/-- The difference to the stored time stamp is the time since then and the rest. -/
theorem newDelta (accounts : clock.Accounts time) (onward : time ≤ later) (soon : later - time < 4294966296) :
    u32 (u32 later + 4294967296 - clock.prevUs) = later - time + clock.rest := by
  obtain ⟨now, stored, _, small⟩ := accounts
  unfold rest at small ⊢
  rw [now] at small ⊢
  unfold u32 at *
  omega

theorem refresh (accounts : clock.Accounts time) (onward : time ≤ later) (soon : later - time < 4294966296)
    (fits : later < 18446744073709551616) : (clock.jdRefreshNow later).Accounts later := by
  have delta := accounts.newDelta onward soon
  obtain ⟨_, _, total, small⟩ := accounts
  -- either branch keeps the sum and leaves at most a millisecond
  have counted : ∀ result : Nat × Nat, 1000 * result.2 + result.1 = later → result.1 ≤ 1000 →
      Accounts
        { now := u32 later, prevUs := u32 (u32 later + 4294967296 - result.1), nowMsLong := result.2,
          nowMs := u32 result.2 } later := by
    intro result sum left
    have rest : u32 (u32 later + 4294967296 - u32 (u32 later + 4294967296 - result.1)) = result.1 := by
      unfold u32
      omega
    refine ⟨rfl, Nat.mod_lt _ (Nat.zero_lt_succ _), ?_, ?_⟩
    · rw [MsClock.rest, rest]
      exact sum
    · rw [MsClock.rest, rest]
      exact left
  unfold jdRefreshNow
  dsimp only
  rw [delta]
  split
  · obtain ⟨sum, left⟩ := countLoop_spec (later - time + clock.rest) clock.nowMsLong (by omega)
    exact counted _ (by omega) left
  · have whole : u64 (clock.nowMsLong + (later - time + clock.rest) / 1000) =
        clock.nowMsLong + (later - time + clock.rest) / 1000 := Nat.mod_eq_of_lt (by omega)
    rw [whole]
    exact counted _ (by omega) (by omega)

end Accounts

/-- Times of the calls: none goes back, each fits into 64 bits and comes less than `2 ^ 32 - 1000`
after the one before, the first one after zero. -/
structure Refreshes (times : List Nat) : Prop where
  steps : (0 :: times).IsChain fun time later => time ≤ later ∧ later - time < 4294966296
  fits : ∀ time ∈ times, time < 18446744073709551616

theorem Accounts.foldl (accounts : clock.Accounts time) {times : List Nat} {last : Nat}
    (steps : (time :: (times ++ [last])).IsChain fun time later => time ≤ later ∧ later - time < 4294966296)
    (fits : ∀ time ∈ times ++ [last], time < 18446744073709551616) :
    ((times ++ [last]).foldl (fun clock time => clock.jdRefreshNow time) clock).Accounts last := by
  induction times generalizing clock time with
  | nil =>
    obtain ⟨onward, soon⟩ := (List.isChain_cons_cons.mp steps).1
    exact accounts.refresh onward soon (fits last List.mem_cons_self)
  | cons next times ih =>
    obtain ⟨⟨onward, soon⟩, later⟩ := List.isChain_cons_cons.mp steps
    have refreshed := accounts.refresh onward soon (fits next List.mem_cons_self)
    exact ih refreshed later fun time member => fits time (List.mem_cons_of_mem next member)

/-- Whatever the times of the calls, after each of them the counted milliseconds and the carried rest
are exactly the time of the call, and the rest is at most a millisecond. -/
theorem jd_refresh_now_exact {times : List Nat} {last : Nat} (run : Refreshes (times ++ [last])) :
    let clock := refreshed (times ++ [last])
    1000 * clock.nowMsLong + u32 (clock.now + 4294967296 - clock.prevUs) = last ∧
      u32 (clock.now + 4294967296 - clock.prevUs) ≤ 1000 := by
  have accounts := Accounts.init.foldl run.steps run.fits
  exact ⟨accounts.total, accounts.small⟩

/-- Both branches, on both sides of a wrap of the 32-bit time. -/
theorem jd_refresh_now_exact_wrap :
    let clock := refreshed ([2500, 4294960000, 4294969000] ++ [4294970000])
    1000 * clock.nowMsLong + u32 (clock.now + 4294967296 - clock.prevUs) = 4294970000 ∧
      u32 (clock.now + 4294967296 - clock.prevUs) ≤ 1000 :=
  jd_refresh_now_exact ⟨by simp, by simp⟩

end MsClock

end Jacdac
