/-! Chains of calls that may fail. -/

namespace Jacdac

variable {Value Result Fault Other : Type}

theorem ok_bind (value : Value) (rest : Value → Except Fault Result) : (Except.ok value >>= rest) = rest value := rfl

theorem ok_of_bind {call : Except Fault Value} {rest : Value → Except Fault Result} {result : Result}
    (done : (call >>= rest) = .ok result) : ∃ value, call = .ok value ∧ rest value = .ok result := by
  cases call with
  | error fault => cases done
  | ok value => exact ⟨value, rfl, done⟩

theorem ok_of_map {call : Except Fault Value} {change : Value → Result} {result : Result}
    (done : call.map change = .ok result) : ∃ value, call = .ok value ∧ change value = result := by
  cases call with
  | error fault => cases done
  | ok value => exact ⟨value, rfl, Except.ok.inj done⟩

theorem ok_of_mapError {call : Except Fault Value} {change : Fault → Other} {value : Value}
    (done : call.mapError change = .ok value) : call = .ok value := by
  cases call with
  | error fault => cases done
  | ok other => exact congrArg Except.ok (Except.ok.inj done)

end Jacdac
