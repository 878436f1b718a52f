import Jacdac.Pipe.Exchange
import Jacdac.Pipe.Table

/-! What every operation of an output pipe keeps, first for one descriptor and
then for the list of them. -/

namespace Jacdac

theorem appendPacket_fits (num : serviceNum < 256) (cmd : serviceCmd < 65536)
    (fits : frame.size + 4 + payload.length ≤ serialPayloadSize) :
    ∃ next, appendPacket frame serviceNum serviceCmd payload = .ok (some next) ∧ 0 < next.size := by
  have limit : serialPayloadSize = 236 := rfl
  have left : u32 (serialPayloadSize + 4294967296 - frame.size) = serialPayloadSize - frame.size := by
    unfold u32; omega
  have need : u32 (payload.length + 4) = payload.length + 4 := u32_of_lt (by omega)
  have room : ¬ payload.length + 4 > serialPayloadSize - frame.size := by omega
  have close := align_lt (payload.length + 4)
  have grown := align_ge (payload.length + 4)
  simp only [appendPacket, jdPushInFrame, left, need]
  rw [if_neg (by omega), if_neg (by omega), if_neg room]
  refine ⟨_, rfl, ?_⟩
  rw [Frame.setData_size, Frame.setSize_size, Frame.setData_size]
  omega

theorem jdQueuePush_empty (failed : jdQueuePush queue frame = .error .emptyFrame) : frame.size = 0 := by
  by_cases empty : frame.size = 0
  · exact empty
  · simp only [jdQueuePush, if_neg empty, bind, Except.bind, pure, Except.pure, throw, throwThe,
      MonadExceptOf.throw] at failed
    generalize (if (reserve queue (frmSize frame)).1 = 0 then _ else _) = stored at failed
    by_cases front : stored.front ≤ stored.size
    · by_cases back : stored.back ≤ stored.size
      · by_cases curr : stored.currSize ≤ stored.size
        · simp [front, back, curr] at failed
        · simp [front, back, curr] at failed
      · simp [front, back] at failed
    · simp [front] at failed

/-- The panic of `jd_queue_push` needs an empty frame. -/
theorem jdSendFrameRaw_empty (failed : jdSendFrameRaw config link frame = .error .emptyFrame) :
    frame.size = 0 := by
  simp only [jdSendFrameRaw, pushSend] at failed
  split at failed
  · rename_i pushed
    cases failed
    split at pushed
    · exact jdQueuePush_empty pushed
    · cases pushed
  · split at failed
    · rename_i received
      cases failed
      simp only [jdRxFrameReceivedCore] at received
      split at received
      · split at received
        · rename_i pushed
          cases received
          have none := jdQueuePush_empty pushed
          rwa [Frame.setFlags_size] at none
        · cases received
      · cases received
    · cases failed

namespace OPipe

variable {pipe next : OPipe}

/-- The bytes a call wants to have room for. -/
def Call.length : Call → Nat
  | .write data => data.length
  | .writeMeta data => data.length
  | .checkSpace len => len
  | .flush => 0
  | .close => 0

/-- The call does not ask an empty idle pipe for more than a frame holds. -/
def Call.Modest (pipe : OPipe) (call : Call) : Prop :=
  ¬ (pipe.status = .opened ∧ pipe.currRetry = 0 ∧ pipe.frame.size = 0 ∧
    serialPayloadSize < 4 + call.length)

instance (pipe : OPipe) (call : Call) : Decidable (call.Modest pipe) :=
  inferInstanceAs (Decidable (¬ _))

/-- A frame to send, or to send again, is not empty. -/
def Loaded (pipe : OPipe) : Prop := pipe.currRetry ≠ 0 → 0 < pipe.frame.size

/-- What an operation leaves of a pipe that it does not unlink. -/
structure Kept (met : Prop) (pipe next : OPipe) : Prop where
  counter : next.counter < 65536
  loaded : met → next.Loaded
  free : next.status = .free ↔ pipe.status = .free

/-- `jd_opipe_check_space` never fails an assertion. -/
theorem checkSpace_total (now : Nat) (pipe : OPipe) (len : Nat) :
    ∃ result next, jdOpipeCheckSpace now pipe len = .ok (result, next) ∧
      ((next = pipe ∧ (result = .ok → pipe.currRetry = 0 ∧
          u32 (pipe.frame.size + 4 + len) ≤ serialPayloadSize)) ∨
        (result ≠ .ok ∧ next = pipe.flushed now ∧ pipe.status = .opened ∧ pipe.currRetry = 0 ∧
          ¬ u32 (pipe.frame.size + 4 + len) ≤ serialPayloadSize)) := by
  unfold jdOpipeCheckSpace
  split
  · exact ⟨_, _, rfl, .inl ⟨rfl, by simp⟩⟩
  · split
    · exact ⟨_, _, rfl, .inl ⟨rfl, by simp⟩⟩
    · rename_i opened
      split
      · exact ⟨_, _, rfl, .inl ⟨rfl, by simp⟩⟩
      · rename_i idle
        split
        · rename_i fits
          exact ⟨_, _, rfl, .inl ⟨rfl, fun _ => ⟨not_not.mp idle, fits⟩⟩⟩
        · rename_i beyond
          rw [doFlush_eq (not_not.mp idle)]
          exact ⟨_, _, rfl, .inr ⟨by simp, rfl, not_not.mp opened, not_not.mp idle, beyond⟩⟩

/-- No length below `2 ^ 20` overflows the size check. -/
theorem size_check (pipe : OPipe) (short : len < 1048576 + 1) :
    u32 (pipe.frame.size + 4 + len) = pipe.frame.size + 4 + len := by
  have small := pipe.frame.size_lt
  exact u32_of_lt (by omega)

/-- Flushing a frame keeps the pipe sound unless the frame is empty. -/
theorem flushed_kept (counter : pipe.counter < 65536) (used : met → 0 < pipe.frame.size) (now : Nat) :
    Kept met pipe (pipe.flushed now) :=
  ⟨counter, fun holds _ => used holds, Iff.rfl⟩

theorem checkSpace_kept (pipe : OPipe) (counter : pipe.counter < 65536) (loaded : met → pipe.Loaded)
    (modest : met → pipe.status = .opened → pipe.currRetry = 0 → pipe.frame.size = 0 →
      4 + len ≤ serialPayloadSize) (short : len < 1048576 + 1) (now : Nat) :
    ∃ result next, jdOpipeCheckSpace now pipe len = .ok (result, next) ∧ Kept met pipe next := by
  obtain ⟨result, next, done, outcome⟩ := checkSpace_total now pipe len
  refine ⟨result, next, done, ?_⟩
  rcases outcome with ⟨rfl, _⟩ | ⟨_, rfl, opened, idle, beyond⟩
  · exact ⟨counter, loaded, Iff.rfl⟩
  · rw [size_check pipe short] at beyond
    refine flushed_kept counter (fun holds => Nat.pos_of_ne_zero fun empty => ?_) now
    have room := modest holds opened idle empty
    omega

theorem nextCounter_lt (counter : value < 65536) : nextCounter value < 65536 := by
  unfold nextCounter
  omega

theorem command_lt (counter : pipe.counter < 65536) (flags : mask < 65536) :
    pipe.counter ||| mask < 65536 :=
  Nat.or_lt_two_pow (n := 16) counter flags

/-- `jd_opipe_write_ex` never fails an assertion either: what passes the size
check fits into the frame. -/
theorem writeEx_kept (pipe : OPipe) (counter : pipe.counter < 65536) (loaded : met → pipe.Loaded)
    (modest : met → pipe.status = .opened → pipe.currRetry = 0 → pipe.frame.size = 0 →
      4 + data.length ≤ serialPayloadSize) (short : data.length < 1048576) (flags : mask < 65536)
    (now : Nat) :
    ∃ result next, jdOpipeWriteEx now pipe data mask = .ok (result, next) ∧ Kept met pipe next ∧
      (result = .ok → next.currRetry = 0 ∧ 0 < next.frame.size) := by
  obtain ⟨result, next, done, outcome⟩ := checkSpace_total now pipe data.length
  obtain ⟨_, _, again, kept⟩ := checkSpace_kept pipe counter loaded modest (Nat.lt_succ_of_lt short) now
  cases done.symm.trans again
  unfold jdOpipeWriteEx
  rw [done]
  cases result with
  | ok =>
    rcases outcome with ⟨rfl, fits⟩ | ⟨impossible, _⟩
    · obtain ⟨idle, fits⟩ := fits rfl
      rw [size_check _ (Nat.lt_succ_of_lt short)] at fits
      have index : serviceIndexStream.toNat < 256 := by decide
      obtain ⟨frame, pushed, used⟩ := appendPacket_fits index (command_lt counter flags) fits
      dsimp only
      rw [pushed]
      exact ⟨_, _, rfl, ⟨nextCounter_lt counter, fun _ _ => used, Iff.rfl⟩, fun _ => ⟨idle, used⟩⟩
    · exact absurd rfl impossible
  | tryAgain => exact ⟨_, _, rfl, kept, by simp⟩
  | timeout => exact ⟨_, _, rfl, kept, by simp⟩
  | error => exact ⟨_, _, rfl, kept, by simp⟩

/-- A close packet never meets the status check it goes around. -/
theorem sendClosePkt_kept (pipe : OPipe) (counter : pipe.counter < 65536) (loaded : met → pipe.Loaded)
    (linked : pipe.status ≠ .free) (now : Nat) :
    ∃ result next, jdOpipeSendClosePkt now pipe = .ok (result, next) ∧ Kept met pipe next := by
  have limit : serialPayloadSize = 236 := rfl
  have wrote : ∃ result next, jdOpipeWriteEx now { pipe with status := .opened } []
      (pipeCloseMask ||| pipeMetadataMask) = .ok (result, next) ∧
      Kept met { pipe with status := .opened } next ∧
      (result = .ok → next.currRetry = 0 ∧ 0 < next.frame.size) :=
    writeEx_kept { pipe with status := .opened } counter loaded (fun _ _ _ _ => by simp [limit]) (by decide) (by decide) now
  obtain ⟨result, next, done, kept, used⟩ := wrote
  unfold jdOpipeSendClosePkt
  rw [done]
  cases result with
  | ok =>
    obtain ⟨idle, filled⟩ := used rfl
    have flush : doFlush now { next with status := .closedWaiting } =
        .ok (({ next with status := .closedWaiting } : OPipe).flushed now) := doFlush_eq idle
    dsimp only
    rw [flush]
    exact ⟨_, _, rfl, kept.counter, fun _ _ => filled, by simp [flushed, linked]⟩
  | tryAgain => exact ⟨_, _, rfl, kept.counter, kept.loaded, by simp [linked]⟩
  | timeout => exact ⟨_, _, rfl, kept.counter, kept.loaded, by simp [linked]⟩
  | error => exact ⟨_, _, rfl, kept.counter, kept.loaded, by simp [linked]⟩

/-- The calls of an application, apart from closing a dropped pipe. -/
theorem call_kept (counter : pipe.counter < 65536) (loaded : met → pipe.Loaded) {call : Call}
    (short : call.length < 1048576) (modest : met → call.Modest pipe)
    (linked : ¬ (pipe.status = .dropped ∧ call.isClose)) (now : Nat) :
    ∃ result next, pipe.call now call = .ok (result, next) ∧ Kept met pipe next := by
  have room : met → pipe.status = .opened → pipe.currRetry = 0 → pipe.frame.size = 0 →
      4 + call.length ≤ serialPayloadSize := by
    intro holds opened idle empty
    exact Nat.le_of_not_lt fun beyond => modest holds ⟨opened, idle, empty, beyond⟩
  cases call with
  | write data =>
    obtain ⟨result, next, done, kept, _⟩ := writeEx_kept pipe counter loaded room short (by decide : 0 < 65536) now
    exact ⟨result, next, done, kept⟩
  | writeMeta data =>
    have mask : pipeMetadataMask < 65536 := by decide
    obtain ⟨result, next, done, kept, _⟩ := writeEx_kept pipe counter loaded room short mask now
    exact ⟨result, next, done, kept⟩
  | checkSpace len => exact checkSpace_kept pipe counter loaded room (Nat.lt_succ_of_lt short) now
  | flush =>
    by_cases empty : pipe.status = .opened ∧ pipe.currRetry = 0 ∧ pipe.frame.size = 0
    · exact ⟨.ok, pipe, if_pos empty, counter, loaded, Iff.rfl⟩
    · have flush : pipe.jdOpipeFlush now = jdOpipeCheckSpace now pipe 0x100000 := if_neg empty
      rw [call, flush]
      refine checkSpace_kept pipe counter loaded (fun _ opened idle none => ?_) (by decide) now
      exact absurd ⟨opened, idle, none⟩ empty
  | close =>
    rw [call, jdOpipeClose]
    cases status : pipe.status with
    | dropped => exact absurd ⟨status, rfl⟩ linked
    | free => exact ⟨_, _, rfl, counter, loaded, Iff.rfl⟩
    | closedWaiting => exact ⟨_, _, rfl, counter, loaded, Iff.rfl⟩
    | opened => exact sendClosePkt_kept pipe counter loaded (by simp [status]) now
    | closedUnsent => exact sendClosePkt_kept pipe counter loaded (by simp [status]) now

/-- An incoming packet, apart from the last acknowledgement of a closed pipe. -/
theorem handlePacket_kept (counter : pipe.counter < 65536) (loaded : met → pipe.Loaded) {ack : Ack}
    (linked : ¬ (ack.isCrcAck ∧ pipe.acknowledges ack ∧ pipe.status = .closedWaiting)) (now : Nat) :
    ∃ next, pipe.jdOpipeHandlePacket now ack = .ok next ∧ Kept met pipe next := by
  unfold jdOpipeHandlePacket
  split
  · exact ⟨_, rfl, counter, loaded, Iff.rfl⟩
  · rename_i isAck
    split
    · rename_i matched
      have idle : ({ pipe with currRetry := 0, frame := jdResetFrame pipe.frame } : OPipe).Loaded :=
        fun busy => absurd rfl busy
      dsimp only
      cases status : pipe.status with
      | closedWaiting => exact absurd ⟨by simpa using isAck, matched, status⟩ linked
      | closedUnsent =>
        have closed : ∃ result next, jdOpipeSendClosePkt now
            { pipe with currRetry := 0, frame := jdResetFrame pipe.frame } = .ok (result, next) ∧
            Kept met { pipe with currRetry := 0, frame := jdResetFrame pipe.frame } next :=
          sendClosePkt_kept { pipe with currRetry := 0, frame := jdResetFrame pipe.frame } counter
            (fun _ => idle) (by simp [status]) now
        obtain ⟨result, next, done, kept⟩ := closed
        rw [status] at done
        dsimp only
        rw [done]
        exact ⟨_, rfl, kept.counter, kept.loaded, kept.free⟩
      | free => exact ⟨_, rfl, counter, fun _ => idle, by simp [status]⟩
      | opened => exact ⟨_, rfl, counter, fun _ => idle, by simp [status]⟩
      | dropped => exact ⟨_, rfl, counter, fun _ => idle, by simp [status]⟩
    · exact ⟨_, rfl, counter, loaded, Iff.rfl⟩

/-- A tick fails only in the queues, and not because of an empty frame if the pipe is loaded. -/
theorem process_kept (counter : pipe.counter < 65536) (loaded : met → pipe.Loaded)
    (linked : pipe.status ≠ .free) (config : TxConfig) (now : Nat) (link : Link) :
    (∃ fault, pipe.jdOpipeProcess config now link = .error (.queue fault) ∧
      (met → fault ≠ .emptyFrame)) ∨
    ∃ next after copied, pipe.jdOpipeProcess config now link = .ok (next, after, copied) ∧
      Kept met pipe next := by
  unfold jdOpipeProcess
  split
  · rename_i due
    split
    · cases sent : jdSendFrameRaw config link pipe.frame with
      | error fault =>
        refine .inl ⟨fault, rfl, fun holds empty => ?_⟩
        subst empty
        have none := jdSendFrameRaw_empty sent
        have some := loaded holds due.1
        omega
      | ok result =>
        obtain ⟨ret, frame, after⟩ := result
        have size : frame.size = pipe.frame.size := by
          obtain ⟨_, same⟩ := jdSendFrameRaw_outcome sent
          exact congrArg UInt8.toNat (same 2 (by decide))
        have used : met → 0 < frame.size := fun holds => size ▸ loaded holds due.1
        right
        dsimp only
        split
        · exact ⟨_, _, _, rfl, counter, fun holds _ => used holds, Iff.rfl⟩
        · exact ⟨_, _, _, rfl, counter, fun holds _ => used holds, Iff.rfl⟩
    · right
      split
      · exact ⟨_, _, _, rfl, counter, fun holds _ => loaded holds due.1, Iff.rfl⟩
      · exact ⟨_, _, _, rfl, counter, loaded, by simp [linked]⟩
  · exact .inr ⟨_, _, _, rfl, counter, loaded, Iff.rfl⟩

end OPipe

namespace PipeTable

variable {table next : PipeTable}

/-- The list links exactly the pipes in use, and each of them is in order. -/
structure Sound (met : Prop) (table : PipeTable) (nodes : List Nat) : Prop where
  chain : Chain table.next table.opipes nodes
  member : ∀ str, str ∈ nodes ↔ (table.descs str).status ≠ .free
  counter : ∀ str, (table.descs str).counter < 65536
  loaded : met → ∀ str, (table.descs str).Loaded

theorem Sound.initial : Sound met PipeTable.initial [] :=
  ⟨rfl, fun str => by simp [PipeTable.initial, OPipe.zero], fun _ => Nat.zero_lt_succ _,
    fun _ _ busy => absurd rfl busy⟩

theorem Sound.mono (sound : Sound met table nodes) (weaker : other → met) : Sound other table nodes :=
  ⟨sound.chain, sound.member, sound.counter, fun holds => sound.loaded (weaker holds)⟩

@[simp] theorem set_descs_self (table : PipeTable) (str : Nat) (pipe : OPipe) :
    (table.set str pipe).descs str = pipe := Function.update_self ..

theorem set_descs_ne (table : PipeTable) (pipe : OPipe) (other : node ≠ str) :
    (table.set str pipe).descs node = table.descs node := Function.update_of_ne other _ _

theorem erase_descs_self (table : PipeTable) (str : Nat) : (table.erase str).descs str = .zero :=
  Function.update_self ..

/-- An operation on one pipe that keeps it. -/
theorem Sound.set (sound : Sound met table nodes) (kept : OPipe.Kept met (table.descs str) pipe) :
    Sound met (table.set str pipe) nodes := by
  refine ⟨sound.chain, fun node => ?_, fun node => ?_, fun holds node => ?_⟩
  all_goals
    by_cases same : node = str
  · rw [same, set_descs_self, ne_eq, kept.free]
    exact sound.member str
  · rw [set_descs_ne _ _ same]
    exact sound.member node
  · rw [same, set_descs_self]
    exact kept.counter
  · rw [set_descs_ne _ _ same]
    exact sound.counter node
  · rw [same, set_descs_self]
    exact kept.loaded holds
  · rw [set_descs_ne _ _ same]
    exact sound.loaded holds node

theorem Sound.erased (sound : Sound met table nodes) {others : List Nat}
    (chain : Chain next.next next.opipes others) (descs : next.descs = table.descs)
    (member : ∀ node, node ∈ others ↔ node ∈ nodes ∧ node ≠ str) :
    Sound met (next.erase str) others := by
  have self := erase_descs_self next str
  have rest (node : Nat) (other : node ≠ str) : (next.erase str).descs node = table.descs node :=
    (Function.update_of_ne other _ _).trans (congrFun descs node)
  refine ⟨?_, fun node => ?_, fun node => ?_, fun holds node => ?_⟩
  · refine chain.congr fun node inside => Function.update_of_ne ?_ _ _
    exact ((member node).mp inside).2
  all_goals
    by_cases same : node = str
  · rw [same, self, member]
    simp [OPipe.zero]
  · rw [rest node same, member, sound.member node]
    simp [same]
  · rw [same, self]
    exact Nat.zero_lt_succ _
  · rw [rest node same]
    exact sound.counter node
  · rw [same, self]
    exact fun busy => absurd rfl busy
  · rw [rest node same]
    exact sound.loaded holds node

/-- `jd_opipe_unlink` ends within the length of the list and takes the node out. -/
theorem Sound.unlink (sound : Sound met table nodes) (str : Nat) :
    ∃ next others, (∀ limit, nodes.length ≤ limit → table.jdOpipeUnlink limit str = .ok next) ∧
      Sound met next others ∧ (next.descs str).status = .free ∧
      ((table.descs str).status ≠ .free → next.next str = none) := by
  have zeroed (next : PipeTable) : ((next.erase str).descs str).status = .free := by
    rw [erase_descs_self]
    rfl
  have cut (next : PipeTable) : (next.erase str).next str = none := Function.update_self ..
  by_cases free : (table.descs str).status = .free
  · exact ⟨table, nodes, fun limit _ => if_pos free, sound, free, fun used => absurd free used⟩
  · obtain ⟨before, after, rfl⟩ := List.append_of_mem ((sound.member str).mpr free)
    have apart := (List.nodup_cons.mp (List.nodup_middle.mp sound.chain.nodup)).1
    have others (node : Nat) : node ∈ before ++ after ↔ node ∈ before ++ str :: after ∧ node ≠ str := by
      have left : node ∈ before ++ after → node ≠ str := by
        rintro member rfl
        exact apart member
      simp only [List.mem_append, List.mem_cons] at left ⊢
      tauto
    rcases sound.chain.unlink with ⟨first, rest⟩ | ⟨behind, previous, found, rest⟩
    · exact ⟨_, before ++ after, fun limit _ => (if_neg free).trans (if_pos first), sound.erased rest rfl others,
        zeroed _, fun _ => cut _⟩
    · refine ⟨({ table with next := Function.update table.next previous (table.next str) } : PipeTable).erase str,
        before ++ after, fun limit enough => ?_, sound.erased rest rfl others, zeroed _, fun _ => cut _⟩
      rw [jdOpipeUnlink, if_neg free, if_neg behind, found limit enough]

theorem Sound.open (sound : Sound met table nodes) (str : Nat) (deviceId : List UInt8) (portNum : Nat) :
    ∃ result next others,
      (∀ limit, nodes.length ≤ limit → table.jdOpipeOpen limit str deviceId portNum = .ok (result, next)) ∧
      Sound met next others := by
  by_cases zero : deviceId.all (· == 0)
  · exact ⟨_, _, nodes, fun _ _ => if_pos zero, sound⟩
  · obtain ⟨middle, others, unlinked, after, free, _⟩ := sound.unlink str
    have fresh : str ∉ others := fun inside => (after.member str).mp inside free
    have opened : (((middle.descs str).jdOpipeOpen deviceId portNum).2).status = .opened := by
      simp [OPipe.jdOpipeOpen, zero]
    refine ⟨.ok, { middle.set str ((middle.descs str).jdOpipeOpen deviceId portNum).2 with
        next := Function.update middle.next str middle.opipes, opipes := some str }, str :: others,
      fun limit enough => ?_, after.chain.push fresh, fun node => ?_, fun node => ?_, fun holds node => ?_⟩
    · rw [jdOpipeOpen, if_neg zero, unlinked limit enough]
      rfl
    all_goals
      dsimp only
      by_cases same : node = str
    · rw [same, set_descs_self, opened]
      simp
    · rw [set_descs_ne _ _ same, ← after.member node]
      simp [same]
    · rw [same, set_descs_self]
      simp only [OPipe.jdOpipeOpen, zero, u16]
      exact Nat.mod_lt _ (by decide)
    · rw [set_descs_ne _ _ same]
      exact after.counter node
    · rw [same, set_descs_self]
      intro busy
      simp [OPipe.jdOpipeOpen, zero] at busy
    · rw [set_descs_ne _ _ same]
      exact after.loaded holds node

theorem Sound.call (sound : Sound met table nodes) (str : Nat) {call : OPipe.Call}
    (short : call.length < 1048576) (now : Nat) :
    ∃ result next others,
      (∀ limit, nodes.length ≤ limit → table.call limit now str call = .ok (result, next)) ∧
      Sound (met ∧ call.Modest (table.descs str)) next others := by
  by_cases dropped : (table.descs str).status = .dropped ∧ call.isClose
  · obtain ⟨middle, others, unlinked, after, _⟩ := sound.unlink str
    refine ⟨.ok, middle, others, fun limit enough => ?_, after.mono And.left⟩
    rw [PipeTable.call, if_pos dropped, unlinked limit enough]
    rfl
  · obtain ⟨result, next, done, kept⟩ := OPipe.call_kept (sound.counter str)
      (fun holds : met ∧ call.Modest (table.descs str) => sound.loaded holds.1 str) short And.right dropped now
    refine ⟨result, table.set str next, nodes, fun limit _ => ?_, (sound.mono And.left).set kept⟩
    rw [PipeTable.call, if_neg dropped, done]

/-- The rest of the walk of `jd_opipe_handle_packet`. Unlinking the current node
clears its link and so ends the walk. -/
theorem Sound.handleLoop (sound : Sound met table nodes) (ack : OPipe.Ack) (now : Nat)
    (rest : Chain table.next cursor visits) (within : ∀ str ∈ visits, str ∈ nodes) :
    ∃ next others, (∀ limit fuel, nodes.length ≤ limit → visits.length ≤ fuel →
      handleLoop limit now ack fuel cursor table = .ok next) ∧ Sound met next others := by
  induction visits generalizing table cursor with
  | nil =>
    cases (rest : cursor = none)
    exact ⟨table, nodes, fun limit fuel _ _ => by cases fuel <;> rfl, sound⟩
  | cons str visits ih =>
    obtain ⟨rfl, tail⟩ := rest
    have used := (sound.member str).mp (within str (by simp))
    have step (limit fuel : Nat) (fuelled : (str :: visits).length ≤ fuel) :
        PipeTable.handleLoop limit now ack fuel (some str) table =
          (table.handleAt limit now ack str).bind fun table =>
            PipeTable.handleLoop limit now ack (fuel - 1) (table.next str) table := by
      obtain ⟨fuel, rfl⟩ := Nat.exists_eq_succ_of_ne_zero (by simp at fuelled; omega : fuel ≠ 0)
      rw [PipeTable.handleLoop]
      rfl
    by_cases last : ack.isCrcAck ∧ (table.descs str).acknowledges ack ∧
        (table.descs str).status = .closedWaiting
    · obtain ⟨middle, others, unlinked, after, _, cut⟩ := sound.unlink str
      refine ⟨middle, others, fun limit fuel enough fuelled => ?_, after⟩
      rw [step limit fuel fuelled, handleAt, if_pos last, unlinked limit enough]
      simp only [Except.bind, cut used]
      cases fuel - 1 <;> rfl
    · obtain ⟨next, done, kept⟩ := OPipe.handlePacket_kept (sound.counter str)
        (fun holds => sound.loaded holds str) last now
      obtain ⟨final, others, walked, after⟩ :=
        ih (sound.set kept) tail fun other member => within other (by simp [member])
      refine ⟨final, others, fun limit fuel enough fuelled => ?_, after⟩
      rw [step limit fuel fuelled, handleAt, if_neg last, done]
      exact walked limit (fuel - 1) enough (by simp at fuelled; omega)

theorem Sound.handlePacket (sound : Sound met table nodes) (ack : OPipe.Ack) (now : Nat) :
    ∃ next others, (∀ limit, nodes.length ≤ limit → table.jdOpipeHandlePacket limit now ack = .ok next) ∧
      Sound met next others := by
  by_cases isAck : ack.isCrcAck
  · obtain ⟨next, others, walked, after⟩ :=
      sound.handleLoop ack now sound.chain fun _ inside => inside
    exact ⟨next, others, fun limit enough => (if_pos isAck).trans (walked limit limit enough enough), after⟩
  · exact ⟨table, nodes, fun _ _ => if_neg isAck, sound⟩

/-- The rest of the walk of `jd_opipe_process`. -/
theorem Sound.processLoop (sound : Sound met table nodes) (config : TxConfig) (now : Nat) (link : Link)
    (rest : Chain table.next cursor visits) (within : ∀ str ∈ visits, str ∈ nodes) :
    (∃ fault, (∀ fuel, visits.length ≤ fuel →
      processLoop config now fuel cursor link table = .error (.pipe (.queue fault))) ∧
      (met → fault ≠ .emptyFrame)) ∨
    ∃ after next, (∀ fuel, visits.length ≤ fuel →
      processLoop config now fuel cursor link table = .ok (after, next)) ∧ Sound met next nodes := by
  induction visits generalizing table cursor link with
  | nil =>
    cases (rest : cursor = none)
    exact .inr ⟨link, table, fun fuel _ => by cases fuel <;> rfl, sound⟩
  | cons str visits ih =>
    obtain ⟨rfl, tail⟩ := rest
    have used := (sound.member str).mp (within str (by simp))
    have some (fuel : Nat) (fuelled : (str :: visits).length ≤ fuel) :
        ∃ less, fuel = less + 1 ∧ visits.length ≤ less := ⟨fuel - 1, by simp at fuelled; omega⟩
    rcases OPipe.process_kept (sound.counter str) (fun holds => sound.loaded holds str) used config now link with
      ⟨fault, failed, unloaded⟩ | ⟨pipe, passed, copied, done, kept⟩
    · refine .inl ⟨fault, fun fuel fuelled => ?_, unloaded⟩
      obtain ⟨less, rfl, _⟩ := some fuel fuelled
      rw [PipeTable.processLoop, failed]
    · rcases ih (sound.set kept) passed tail fun other member => within other (by simp [member]) with
        ⟨fault, failed, unloaded⟩ | ⟨after, next, walked, final⟩
      · refine .inl ⟨fault, fun fuel fuelled => ?_, unloaded⟩
        obtain ⟨less, rfl, shorter⟩ := some fuel fuelled
        rw [PipeTable.processLoop, done]
        exact failed less shorter
      · refine .inr ⟨after, next, fun fuel fuelled => ?_, final⟩
        obtain ⟨less, rfl, shorter⟩ := some fuel fuelled
        rw [PipeTable.processLoop, done]
        exact walked less shorter

end PipeTable

end Jacdac
