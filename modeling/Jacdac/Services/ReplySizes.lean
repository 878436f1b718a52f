import Jacdac.Pipe.TableInvariant
import Jacdac.Services.RegisterEffects
import Jacdac.Services.Replies
import Jacdac.Tx.SendRun

/-! The sizes of the packets that these services send, against the room in a
frame. -/

namespace Jacdac

/-- The payload that fits an empty frame, next to its header. -/
def maxSend : Nat := 232

def SendsFit (sends : List Packet) : Prop := ∀ packet ∈ sends, packet.serviceSize ≤ maxSend

theorem sendsFit_nil : SendsFit [] := nofun

theorem sendsFit_single : SendsFit [packet] ↔ packet.serviceSize ≤ maxSend := by
  simp [SendsFit]

theorem sendsFit_append : SendsFit (first ++ second) ↔ SendsFit first ∧ SendsFit second := by
  simp only [SendsFit, List.mem_append, or_imp, forall_and]

namespace RegDescription

variable {ptrSize : Nat} (desc : RegDescription ptrSize)

/-- The only byte arrays are padding. -/
def Numeric : Prop := ∀ entry ∈ desc.entries, ∀ size, entry.type = .bytes size → entry.code = regPadding

theorem scalar_size (ptr : ptrSize = 4 ∨ ptrSize = 8) (type : RegType) (scalar : ∀ size, type ≠ .bytes size) :
    type.size ptrSize ≤ 8 := by
  cases type with
  | bytes size => exact absurd rfl (scalar size)
  | ptr =>
    show ptrSize ≤ 8
    omega
  | _ => exact Nat.le_of_ble_eq_true rfl

theorem reply_length (numeric : desc.Numeric) {value : List UInt8} (replied : desc.reply state reg = some value) :
    value.length ≤ 8 := by
  obtain ⟨slot, chosen, got⟩ := Option.bind_eq_some_iff.mp replied
  obtain ⟨small, found⟩ := Option.ite_none_left_eq_some.mp chosen
  obtain ⟨member, named⟩ := find_some found
  obtain ⟨before, after, entries, _⟩ := RegEntry.mem_layout_iff.mp member
  have scalar : ∀ size, slot.entry.type ≠ .bytes size := by
    intro size array
    have padding := numeric slot.entry (by rw [entries]; simp) size array
    unfold regPadding at padding
    omega
  unfold getRegister at got
  dsimp only at got
  split at got
  · rw [← Option.some.inj got]
    exact Nat.le_of_ble_eq_true rfl
  · rw [← (Option.ite_none_left_eq_some.mp got).2 |> Option.some.inj, Memory.read_length]
    exact scalar_size desc.ptr slot.entry.type scalar

end RegDescription

theorem notImplemented_fits (spec : ServiceSpec) (pkt : ServiceRequest) :
    SendsFit (pkt.jdSendNotImplemented spec) := by
  unfold ServiceRequest.jdSendNotImplemented
  split
  · exact sendsFit_nil
  · refine sendsFit_single.mpr ?_
    simp only [Packet.serviceSize, List.length_append, littleEndian_length]
    decide

/-- The registers of the services have short replies. -/
theorem registerFinal_fits (spec : ServiceSpec) (desc : RegDescription spec.ptrSize) (numeric : desc.Numeric)
    (state : Memory) (pkt : ServiceRequest) :
    ∃ ret after sends, serviceHandleRegisterFinal spec state pkt desc.sdesc = .ok (ret, after, sends) ∧
      SendsFit sends := by
  have handled : ∃ result, serviceHandleRegister spec.ptrSize state ⟨pkt.serviceCommand, pkt.data⟩ desc.sdesc =
      .ok result ∧ ∀ value, result.sent = some value → value.length ≤ 8 := by
    by_cases get : isGet pkt.serviceCommand = true
    · exact ⟨_, desc.handle_get ⟨pkt.serviceCommand, pkt.data⟩ get state,
        fun value replied => desc.reply_length numeric replied⟩
    · by_cases set : isSet pkt.serviceCommand = true
      · exact ⟨_, desc.handle_set ⟨pkt.serviceCommand, pkt.data⟩ set state, nofun⟩
      · refine ⟨⟨0, state, none⟩, ?_, nofun⟩
        simp only [serviceHandleRegister, if_pos (And.intro get set)]
  obtain ⟨result, done, short⟩ := handled
  unfold serviceHandleRegisterFinal
  rw [done]
  refine ⟨_, _, _, rfl, sendsFit_append.mpr ⟨?_, ?_⟩⟩
  · split
    · exact sendsFit_nil
    · rename_i value replied
      exact sendsFit_single.mpr ((short value replied).trans (by decide))
  · split
    · exact notImplemented_fits spec pkt
    · exact sendsFit_nil

/-- The state of the four services. -/
structure ServicesState where
  control : ControlState
  i2c : I2cState
  led : LedDisplayState
  settings : SettingsState

/-- A packet for one of the services, or a tick of the flood ping. The ticks of
the other services send nothing. -/
inductive ServiceStep where
  | control (pkt : ServiceRequest)
  | floodTick (jdTxIsIdle : Bool)
  | i2c (bus : I2cBus) (pkt : ServiceRequest)
  | led (pkt : ServiceRequest)
  | settings (accepted : Bool) (pkt : ServiceRequest)

namespace ServicesState

/-- One step, with the packets given to `jd_send`. -/
def step (spec : ServiceSpec) (state : ServicesState) : ServiceStep → Except RegFault (ServicesState × List Packet)
  | .control pkt => .ok ({ state with control := state.control.handlePacket spec pkt }, [])
  | .floodTick idle =>
    let (control, sends) := state.control.processFlood spec idle
    .ok ({ state with control }, sends)
  | .i2c bus pkt => (i2cservHandlePacket spec bus state.i2c pkt).map fun (i2c, sends) => ({ state with i2c }, sends)
  | .led pkt => (leddisplayHandlePacket spec state.led pkt).map fun (led, sends) => ({ state with led }, sends)
  | .settings accepted pkt =>
    (settingsHandlePacket spec accepted state.settings pkt).map fun (settings, sends) =>
      ({ state with settings }, sends)

/-- When the packets of a step fit a frame. -/
def Fits (spec : ServiceSpec) (state : ServicesState) : ServiceStep → Prop
  | .control _ => True
  | .floodTick idle => state.control.floodRemaining ≠ 0 → idle = true → state.control.floodSize ≤ 228
  | .i2c bus pkt =>
    pkt.serviceCommand = spec.cmdTransaction → state.i2c.enabled = true → 2 ≤ pkt.data.length → ¬ i2cRefused spec bus pkt →
      (bus.reads (i2cAddress spec pkt) (i2cNumRead spec pkt)).isSome → i2cNumRead spec pkt ≤ 231
  | .led pkt => pkt.serviceCommand = jdGet spec.ledRegPixels → state.led.numpixels spec ≤ 77
  | .settings _ pkt =>
    pkt.serviceCommand = spec.cmdGet → (settingsKey pkt).length ≤ maxKeySize →
      (settingsKey pkt).length + 1 + (state.settings.value (settingsKey pkt)).length ≤ 232

end ServicesState

/-- The outcome of a handler: it returns, and its packets fit exactly under the condition. -/
def SendsFitIff (outcome : Except RegFault (α × List Packet)) (condition : Prop) : Prop :=
  ∃ after sends, outcome = .ok (after, sends) ∧ (SendsFit sends ↔ condition)

theorem SendsFitIff.map {outcome : Except RegFault (α × List Packet)} (fits : SendsFitIff outcome condition)
    (change : α → β) : SendsFitIff (outcome.map fun (after, sends) => (change after, sends)) condition := by
  obtain ⟨after, sends, done, same⟩ := fits
  exact ⟨change after, sends, by rw [done]; rfl, same⟩

theorem processFlood_fits (spec : ServiceSpec) (state : ControlState) (idle : Bool) :
    SendsFit (state.processFlood spec idle).2 ↔
      (state.floodRemaining ≠ 0 → idle = true → state.floodSize ≤ 228) := by
  unfold ControlState.processFlood
  split
  · rename_i runs
    rw [sendsFit_single, Packet.serviceSize, List.length_append, littleEndian_length, List.length_map,
      List.length_range]
    unfold maxSend
    constructor
    · intro fits _ _
      omega
    · intro small
      have := small runs.1 runs.2
      omega
  · rename_i waits
    exact iff_of_true sendsFit_nil fun pending ready => absurd ⟨pending, ready⟩ waits

theorem numeric_i2cserv (spec : ServiceSpec) : (i2cservRegs spec).Numeric := by
  intro entry member size array
  rcases List.mem_cons.mp member with rfl | other
  · rfl
  · rw [List.mem_singleton.mp other] at array
    cases array

theorem i2cserv_fits (spec : ServiceSpec) (bus : I2cBus) (state : I2cState) (pkt : ServiceRequest) :
    SendsFitIff (i2cservHandlePacket spec bus state pkt)
      (pkt.serviceCommand = spec.cmdTransaction → state.enabled = true → 2 ≤ pkt.data.length → ¬ i2cRefused spec bus pkt →
        (bus.reads (i2cAddress spec pkt) (i2cNumRead spec pkt)).isSome → i2cNumRead spec pkt ≤ 231) := by
  have short (status : UInt8) : SendsFit [pkt.respond [status]] := sendsFit_single.mpr (Nat.le_of_ble_eq_true rfl)
  unfold i2cservHandlePacket
  split
  · rename_i transaction
    split
    · rename_i disabled
      exact ⟨state, _, rfl, iff_of_true (short _) fun _ enabled => absurd enabled disabled⟩
    · split
      · rename_i disabled long
        refine ⟨state, _, rfl, ?_⟩
        unfold i2cservTransaction
        split
        · rename_i refused
          exact iff_of_true (short _) fun _ _ _ taken => absurd refused taken
        · rename_i taken
          split
          · split
            · rename_i failed
              refine iff_of_true (short _) fun _ _ _ _ succeeded => ?_
              rw [failed] at succeeded
              cases succeeded
            · rename_i rdbuf read
              have length := bus.reads_length _ _ _ read
              rw [sendsFit_single, ServiceRequest.respond, Packet.serviceSize, List.length_cons, length]
              unfold maxSend
              constructor
              · intro fits _ _ _ _ _
                omega
              · intro small
                have := small transaction (by simpa using disabled) long taken (by rw [read]; rfl)
                omega
          · rename_i none
            refine iff_of_true (short _) fun _ _ _ _ _ => ?_
            omega
      · rename_i short
        exact ⟨state, [], rfl, iff_of_true sendsFit_nil fun _ _ long => absurd long short⟩
  · rename_i other
    obtain ⟨ret, registers, sends, done, fits⟩ :=
      registerFinal_fits spec (i2cservRegs spec) (numeric_i2cserv spec) state.registers pkt
    rw [done]
    exact ⟨_, sends, rfl, iff_of_true fits fun same => absurd same other⟩

theorem numeric_leddisplay (spec : ServiceSpec) : (leddisplayRegs spec).Numeric := by
  intro entry member size array
  simp only [leddisplayRegs, List.mem_cons, List.not_mem_nil, or_false] at member
  rcases member with rfl | rfl | rfl | rfl | rfl | rfl
  · rfl
  all_goals cases array

theorem leddisplay_fits (spec : ServiceSpec) (state : LedDisplayState) (pkt : ServiceRequest) :
    SendsFitIff (leddisplayHandlePacket spec state pkt)
      (pkt.serviceCommand = jdGet spec.ledRegPixels → state.numpixels spec ≤ 77) := by
  unfold leddisplayHandlePacket
  split
  · rename_i get
    refine ⟨state, _, rfl, ?_⟩
    rw [sendsFit_single, ServiceRequest.respond, Packet.serviceSize, Memory.read_length]
    unfold maxSend
    constructor
    · intro fits _
      omega
    · intro small
      have := small get
      omega
  · rename_i notGet
    split
    · exact ⟨_, [], rfl, iff_of_true sendsFit_nil fun get => absurd get notGet⟩
    · obtain ⟨ret, registers, sends, done, fits⟩ :=
        registerFinal_fits spec (leddisplayRegs spec) (numeric_leddisplay spec) state.registers pkt
      rw [done]
      exact ⟨_, sends, rfl, iff_of_true fits fun get => absurd get notGet⟩

theorem numeric_settings (spec : ServiceSpec) : (settingsRegs spec).Numeric := by
  intro entry member size array
  rw [List.mem_singleton.mp member]
  rfl

theorem settings_fits (spec : ServiceSpec) (accepted : Bool) (state : SettingsState) (pkt : ServiceRequest) :
    SendsFitIff (settingsHandlePacket spec accepted state pkt)
      (pkt.serviceCommand = spec.cmdGet → (settingsKey pkt).length ≤ maxKeySize →
        (settingsKey pkt).length + 1 + (state.value (settingsKey pkt)).length ≤ 232) := by
  unfold settingsHandlePacket
  dsimp only
  split
  · split
    · rename_i long
      exact ⟨state, [], rfl, iff_of_true sendsFit_nil fun _ short => absurd short (Nat.not_le.mpr long)⟩
    · rename_i short
      split
      · rename_i get
        refine ⟨state, _, rfl, ?_⟩
        rw [sendsFit_single, ServiceRequest.respond, Packet.serviceSize, List.length_append, List.length_cons]
        unfold maxSend
        constructor
        · intro fits _ _
          omega
        · intro small
          have := small get (Nat.le_of_not_lt short)
          omega
      · rename_i notGet
        exact ⟨_, [], rfl, iff_of_true sendsFit_nil fun get => absurd get notGet⟩
  · rename_i other
    obtain ⟨ret, registers, sends, done, fits⟩ :=
      registerFinal_fits spec (settingsRegs spec) (numeric_settings spec) state.registers pkt
    rw [done]
    exact ⟨_, sends, rfl, iff_of_true fits fun get => absurd (.inr (.inr get)) other⟩

theorem step_fits (spec : ServiceSpec) (state : ServicesState) (step : ServiceStep) :
    SendsFitIff (state.step spec step) (state.Fits spec step) := by
  cases step with
  | control pkt => exact ⟨_, [], rfl, iff_of_true sendsFit_nil trivial⟩
  | floodTick idle => exact ⟨_, _, rfl, processFlood_fits spec state.control idle⟩
  | i2c bus pkt => exact (i2cserv_fits spec bus state.i2c pkt).map fun i2c => { state with i2c }
  | led pkt => exact (leddisplay_fits spec state.led pkt).map fun led => { state with led }
  | settings accepted pkt => exact (settings_fits spec accepted state.settings pkt).map fun settings => { state with settings }

/-- The packets of a step, given to `jd_send` one after the other. -/
def sendAll (config : TxConfig) : TxState → List Packet → Except TxFault TxState
  | tx, [] => .ok tx
  | tx, packet :: rest =>
    match jdSend config tx packet.serviceIndex.toNat packet.serviceCommand packet.payload with
    | .error fault => .error fault
    | .ok (tx, _) => sendAll config tx rest

/-- The ways in which `jd_send` must not fail: its assertion, and the panic of
`jd_queue_push`. -/
def TxFault.overrun : TxFault → Prop
  | .targetNull => True
  | .queue .emptyFrame => True
  | _ => False

/-- A buffer that is in use is sent without a panic for an empty frame. -/
theorem emit_safe (used : tx.txAccBuffer.size ≠ 0) (failed : emit config tx = .error fault) : ¬ fault.overrun := by
  unfold emit at failed
  split at failed
  · rename_i queueFault sent
    cases failed
    cases queueFault with
    | emptyFrame => exact absurd ((withCrc_size config tx.txAccBuffer).symm.trans (jdSendFrameRaw_empty sent)) used
    | _ => exact id
  · cases failed

/-- A packet that fits a frame is put into it, if need be after the frame was sent. -/
theorem jdSend_safe {packets : List Packet} (held : Accumulates tx.txAccBuffer packets) (packet : Packet)
    (fits : packet.serviceSize ≤ maxSend)
    (failed : jdSend config tx packet.serviceIndex.toNat packet.serviceCommand packet.payload = .error fault) :
    ¬ fault.overrun := by
  have payload : serialPayloadSize = 236 := rfl
  have bound : maxSend = 232 := rfl
  unfold jdSend at failed
  cases first : appendPacket tx.txAccBuffer packet.serviceIndex.toNat packet.serviceCommand packet.payload with
  | error other =>
    rw [first] at failed
    cases failed
    exact id
  | ok result =>
    have command := appendPacket_command first
    rcases held.append packet ⟨fits, command⟩ with ⟨full, beyond⟩ | ⟨next, appended, _⟩
    · rw [full] at failed
      dsimp only at failed
      split at failed
      · rename_i other emitted
        cases failed
        exact emit_safe (by omega) emitted
      · rename_i next emitted
        rcases (emit_reset emitted).append packet ⟨fits, command⟩ with ⟨_, small⟩ | ⟨last, appended, _⟩
        · have empty : next.txAccBuffer.size = 0 := (emit_reset emitted).laid.symm
          omega
        · rw [appended] at failed
          cases failed
    · rw [appended] at failed
      cases failed

theorem sendAll_run (run : SendRun config tx pending emitted) (sends : List Packet) (fits : SendsFit sends)
    (sent : sendAll config tx sends = .ok after) : ∃ pending emitted, SendRun config after pending emitted := by
  induction sends generalizing tx pending emitted with
  | nil =>
    cases sent
    exact ⟨pending, emitted, run⟩
  | cons packet rest ih =>
    have size : packet.serviceSize ≤ 232 := fits packet List.mem_cons_self
    have later : SendsFit rest := fun other member => fits other (List.mem_cons_of_mem _ member)
    unfold sendAll at sent
    split at sent
    · cases sent
    · rename_i next frame done
      cases frame with
      | none => exact ih (run.send packet size done) later sent
      | some frame => exact ih (run.sendFull packet size done) later sent

theorem sendAll_safe (run : SendRun config tx pending emitted) (sends : List Packet) (fits : SendsFit sends)
    (failed : sendAll config tx sends = .error fault) : ¬ fault.overrun := by
  induction sends generalizing tx pending emitted with
  | nil => cases failed
  | cons packet rest ih =>
    have size : packet.serviceSize ≤ 232 := fits packet List.mem_cons_self
    have later : SendsFit rest := fun other member => fits other (List.mem_cons_of_mem _ member)
    unfold sendAll at failed
    split at failed
    · rename_i other done
      cases failed
      exact jdSend_safe run.sound.1 packet size done
    · rename_i next frame done
      cases frame with
      | none => exact ih (run.send packet size done) later failed
      | some frame => exact ih (run.sendFull packet size done) later failed

/-- Zeroed services, with a display of `numPixels` and the values in flash. -/
def ServicesState.boot (spec : ServiceSpec) (enabled : Bool) (numPixels : Nat)
    (stored : List UInt8 → Option (List UInt8)) : ServicesState where
  control := ⟨0, 0, 0⟩
  i2c := ⟨fun _ => 0, enabled⟩
  led := ⟨Memory.write (fun _ => 0) (spec.ptrSize + 6) (littleEndian 2 numPixels), fun _ => 0⟩
  settings := ⟨fun _ => 0, stored⟩

/-- Runs of the services and of the send path, whose steps all meet the condition. -/
inductive ServiceRun (spec : ServiceSpec) (config : TxConfig) : ServicesState → TxState → Prop where
  | boot (enabled : Bool) (numPixels : Nat) (stored : List UInt8 → Option (List UInt8)) (sendSize rxSize : Nat) :
    ServiceRun spec config (.boot spec enabled numPixels stored) (.boot sendSize rxSize)
  | drain (run : ServiceRun spec config state tx) (link : Link) : ServiceRun spec config state { tx with link }
  | flush (run : ServiceRun spec config state tx) (flushed : jdTxFlush config tx = .ok (next, frame)) :
    ServiceRun spec config state next
  | step (run : ServiceRun spec config state tx) (step : ServiceStep) (fits : state.Fits spec step)
      (done : state.step spec step = .ok (after, sends)) (sent : sendAll config tx sends = .ok next) :
    ServiceRun spec config after next

theorem ServiceRun.sends {spec : ServiceSpec} {config : TxConfig} {state : ServicesState} {tx : TxState}
    (run : ServiceRun spec config state tx) : ∃ pending emitted, SendRun config tx pending emitted := by
  induction run with
  | boot enabled numPixels stored sendSize rxSize => exact ⟨[], [], .boot sendSize rxSize⟩
  | drain _ link ih =>
    obtain ⟨pending, emitted, sends⟩ := ih
    exact ⟨pending, emitted, sends.drain link⟩
  | @flush _ _ _ frame _ flushed ih =>
    obtain ⟨pending, emitted, sends⟩ := ih
    cases frame with
    | none => exact ⟨pending, emitted, sends.flushEmpty flushed⟩
    | some frame => exact ⟨_, _, sends.flush flushed⟩
  | @step state _ _ _ _ _ step fits done sent ih =>
    obtain ⟨pending, emitted, reached⟩ := ih
    obtain ⟨_, packets, stepped, same⟩ := step_fits spec state step
    obtain ⟨_, rfl⟩ := Prod.mk.inj (Except.ok.inj (done.symm.trans stepped))
    exact sendAll_run reached _ (same.mpr fits) sent

/-- In every run whose steps meet the condition, the packets of the next step fit
a frame exactly if it meets the condition too, and then `jd_send` reaches neither
its assertion nor the panic for an empty frame. -/
theorem service_sends_fit_iff {spec : ServiceSpec} {config : TxConfig} {state : ServicesState} {tx : TxState}
    (run : ServiceRun spec config state tx) (step : ServiceStep) :
    ∃ after sends, state.step spec step = .ok (after, sends) ∧
      ((∀ packet ∈ sends, packet.serviceSize ≤ 232) ↔ state.Fits spec step) ∧
      (state.Fits spec step → ∀ fault, sendAll config tx sends = .error fault → ¬ fault.overrun) := by
  obtain ⟨pending, emitted, reached⟩ := run.sends
  obtain ⟨after, sends, stepped, same⟩ := step_fits spec state step
  refine ⟨after, sends, stepped, same, fun fits fault failed => ?_⟩
  exact sendAll_safe reached sends (same.mpr fits) failed

/-- Codes like those of the specification. -/
def sampleSpec : ServiceSpec where
  ptrSize := 4
  ptr := RegDescription.ptr_four
  cmdNotImplemented := 3
  cmdFloodPing := 0x83
  floodPing data := if data.length < 9 then none else
    some ⟨fromLittle (data.take 4), fromLittle ((data.drop 4).take 4), (data.getD 8 0).toNat⟩
  cmdTransaction := 0x80
  i2cTransaction data := ⟨(data.getD 0 0).toNat, (data.getD 1 0).toNat, data.drop 2⟩
  statusOk := 0
  statusNackAddr := 1
  statusNackData := 2
  statusNoI2c := 3
  i2cRegOk := ⟨0x180, by decide⟩
  ledRegPixels := ⟨0x2, by decide⟩
  ledRegBrightness := ⟨0x1, by decide⟩
  ledRegActualBrightness := ⟨0x180, by decide⟩
  ledRegVariant := ⟨0x107, by decide⟩
  ledRegNumPixels := ⟨0x182, by decide⟩
  ledRegMaxPower := ⟨0x7, by decide⟩
  cmdGet := 0x80
  cmdSet := 0x81
  cmdDelete := 0x84
  settingsDistinct := by decide

/-- The command that asks for one flood ping with 255 bytes. -/
def floodCommand : ServiceRequest := ⟨0, 0x83, false, 0, [1, 0, 0, 0, 0, 0, 0, 0, 255], by decide⟩

theorem service_sends_fit_iff_command : ∃ after sends,
    (ServicesState.boot sampleSpec true 10 fun _ => none).step sampleSpec (.control floodCommand) = .ok (after, sends) ∧
      ∀ packet ∈ sends, packet.serviceSize ≤ 232 := by
  have config : TxConfig := ⟨[1, 0, 0, 0, 0, 0, 0, 0], rfl, fun _ => true, fun _ => true⟩
  obtain ⟨after, sends, stepped, same, _⟩ :=
    service_sends_fit_iff (.boot true 10 (fun _ => none) 512 512 : ServiceRun sampleSpec config _ _) (.control floodCommand)
  exact ⟨after, sends, stepped, same.mpr trivial⟩

/-- The next tick sends 259 bytes: the empty buffer is sent first, and panics. -/
theorem flood_ping_overruns :
    let state := (ServicesState.boot sampleSpec true 10 fun _ => none)
    let flooded := { state with control := state.control.handlePacket sampleSpec floodCommand }
    let sends := (flooded.control.processFlood sampleSpec true).2
    state.step sampleSpec (.control floodCommand) = .ok (flooded, []) ∧
    sends.map Packet.serviceSize = [259] ∧
    (match sendAll ⟨[1, 0, 0, 0, 0, 0, 0, 0], rfl, fun _ => true, fun _ => true⟩ (.boot 512 512) sends with
      | .ok _ => none
      | .error fault => some fault) = some (.queue .emptyFrame) := by
  refine ⟨rfl, ?_, ?_⟩
  · decide +kernel
  · decide +kernel

end Jacdac
