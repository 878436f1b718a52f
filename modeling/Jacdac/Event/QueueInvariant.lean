import Jacdac.Event.Queue
import Jacdac.Frame.RoundTrip
import Mathlib.Data.List.Forall2

/-! The buffer of the event queue read as a list of records, and what each
operation does to that list. -/

namespace Jacdac

/-- One `ev_t`. -/
structure EventRecord where
  timestamp : Nat
  serviceIndex : UInt8
  serviceCommand : Nat
  payload : List UInt8

namespace EventRecord

/-- `ev_size`. -/
def span (record : EventRecord) : Nat := EventInfo.evSize record.payload.length

theorem span_mod (record : EventRecord) : record.span % 4 = 0 := by
  unfold span EventInfo.evSize align; omega

theorem span_ge (record : EventRecord) : 8 + record.payload.length ≤ record.span := by
  unfold span EventInfo.evSize align; omega

/-- The record lies at `ev`. -/
structure Stored (buffer : Memory) (ev : Nat) (record : EventRecord) : Prop where
  timestamp : buffer.number ev 4 = record.timestamp
  size : (buffer (ev + 4)).toNat = record.payload.length
  index : buffer (ev + 5) = record.serviceIndex
  command : buffer.number (ev + 6) 2 = record.serviceCommand
  payload : buffer.read (ev + 8) record.payload.length = record.payload

/-- Only the cells of the record matter, wherever they are. -/
theorem Stored.move (stored : Stored buffer ev record)
    (same : ∀ offset < 8 + record.payload.length, other (place + offset) = buffer (ev + offset)) :
    Stored other place record where
  timestamp := by
    rw [← stored.timestamp, Memory.number, Memory.number,
      Memory.read_eq_iff.mpr fun offset inside => same offset (by omega)]
  size := by rw [same 4 (by omega), stored.size]
  index := by rw [same 5 (by omega), stored.index]
  command := by
    have cells : Memory.read other (place + 6) 2 = buffer.read (ev + 6) 2 := by
      apply Memory.read_eq_iff.mpr
      intro offset inside
      rw [Nat.add_assoc, Nat.add_assoc]
      exact same (6 + offset) (by omega)
    rw [← stored.command, Memory.number, Memory.number, cells]
  payload := by
    rw [← stored.payload, Memory.read_length]
    apply Memory.read_eq_iff.mpr
    intro offset inside
    rw [Nat.add_assoc, Nat.add_assoc]
    exact same (8 + offset) (by omega)

end EventRecord

/-- The records lie one after the other from `ev` to `stop`. -/
def Queued (buffer : Memory) : Nat → List EventRecord → Nat → Prop
  | ev, [], stop => ev = stop
  | ev, record :: rest, stop => record.Stored buffer ev ∧ Queued buffer (ev + record.span) rest stop

namespace Queued

theorem bound (queued : Queued buffer ev records stop) : ev + 8 * records.length ≤ stop := by
  induction records generalizing ev with
  | nil => exact Nat.le_of_eq queued
  | cons record rest ih =>
    have := ih queued.2
    have := record.span_ge
    simp only [List.length_cons]
    omega

theorem mod (queued : Queued buffer ev records stop) : stop % 4 = ev % 4 := by
  induction records generalizing ev with
  | nil => rw [show ev = stop from queued]
  | cons record rest ih =>
    have := ih queued.2
    have := record.span_mod
    omega

theorem move (shift : Nat) (queued : Queued buffer (shift + ev) records (shift + stop))
    (same : ∀ cell, ev ≤ cell → cell < stop → other cell = buffer (shift + cell)) :
    Queued other ev records stop := by
  induction records generalizing ev with
  | nil => exact Nat.add_left_cancel queued
  | cons record rest ih =>
    obtain ⟨stored, tail⟩ := queued
    have bound := tail.bound
    have size := record.span_ge
    rw [Nat.add_assoc] at tail
    refine ⟨stored.move ?_, ih tail fun cell lower upper => same cell (by omega) upper⟩
    intro offset inside
    rw [same _ (by omega) (by omega), Nat.add_assoc]

theorem congr (queued : Queued buffer ev records stop)
    (same : ∀ cell, ev ≤ cell → cell < stop → other cell = buffer cell) :
    Queued other ev records stop := by
  refine move 0 (by simpa using queued) fun cell lower upper => ?_
  rw [Nat.zero_add]
  exact same cell lower upper

theorem append (first : Queued buffer ev records middle) (second : Queued buffer middle others stop) :
    Queued buffer ev (records ++ others) stop := by
  induction records generalizing ev with
  | nil =>
    rw [show ev = middle from first]
    exact second
  | cons record rest ih => exact ⟨first.1, ih first.2⟩

/-- Only an empty queue ends where it starts. -/
theorem eq_nil (queued : Queued buffer 0 records 0) : records = [] := by
  have bound := queued.bound
  exact List.eq_nil_of_length_eq_zero (by omega)

end Queued

namespace EventInfo

theorem evShift_queued {info : EventInfo} (queued : Queued info.buffer 0 (record :: rest) info.qptr)
    (small : info.qptr < 65536) :
    Queued info.evShift.buffer 0 rest info.evShift.qptr ∧
      info.evShift.qptr + record.span = info.qptr ∧ info.evShift.counter = info.counter := by
  obtain ⟨stored, tail⟩ := queued
  have size : evSize (info.serviceSizeAt 0) = record.span :=
    congrArg evSize stored.size
  have bound := tail.bound
  have whole := tail.mod
  have pad := record.span_mod
  rw [Nat.zero_add] at tail bound whole
  have left : u16 (info.qptr + 65536 - record.span) = info.qptr - record.span := by
    unfold u16; omega
  simp only [evShift, size, left]
  refine ⟨?_, by omega, trivial⟩
  rw [jdWordMove_eq _ (Nat.zero_le _), show 4 * ((info.qptr - record.span) / 4) =
    info.qptr - record.span by omega]
  have split : info.qptr = record.span + (info.qptr - record.span) := by omega
  rw [split] at tail
  refine Queued.move record.span (by simpa using tail) ?_
  intro cell _ upper
  have copied : info.buffer.write 0 (info.buffer.read record.span (info.qptr - record.span)) (0 + cell) =
      info.buffer (record.span + cell) := Memory.write_read_inside upper
  rwa [Nat.zero_add] at copied

/-- The packet of a queued record, unless it is marked as done. -/
theorem packetAt_stored {info : EventInfo} {record : EventRecord}
    (stored : record.Stored info.buffer ev) :
    info.packetAt ev = ⟨record.serviceIndex &&& 0x7f, record.serviceCommand, record.payload⟩ := by
  have size : info.serviceSizeAt ev = record.payload.length := stored.size
  have index : info.serviceIndexAt ev = record.serviceIndex := stored.index
  rw [packetAt, size, index, stored.command, stored.payload]

theorem nextEv_stored {info : EventInfo} {record : EventRecord}
    (stored : record.Stored info.buffer ev) :
    info.nextEv ev = ev + record.span := by
  have size : info.serviceSizeAt ev = record.payload.length := stored.size
  rw [nextEv, size]
  rfl

theorem setServiceIndex_stored {info : EventInfo} {record : EventRecord}
    (stored : record.Stored info.buffer ev) (index : UInt8) :
    { record with serviceIndex := index }.Stored (info.setServiceIndex ev index).buffer ev := by
  have cell (offset : Nat) (other : offset ≠ 5) :
      (info.setServiceIndex ev index).buffer (ev + offset) = info.buffer (ev + offset) :=
    Memory.write_outside (by simp; omega)
  have same (offset length : Nat) (before : offset + length ≤ 5 ∨ 6 ≤ offset) :
      (info.setServiceIndex ev index).buffer.read (ev + offset) length =
        info.buffer.read (ev + offset) length :=
    Memory.read_write_disjoint (by simp; omega)
  exact
    { timestamp := (congrArg fromLittle (same 0 4 (by omega))).trans stored.timestamp
      size := (congrArg UInt8.toNat (cell 4 (by omega))).trans stored.size
      index := by simp [setServiceIndex, Memory.write]
      command := (congrArg fromLittle (same 6 2 (by omega))).trans stored.command
      payload := (same 8 _ (by omega)).trans stored.payload }

theorem setTimestamp_stored {info : EventInfo} {record : EventRecord}
    (stored : record.Stored info.buffer ev) (small : time < 4294967296) :
    { record with timestamp := time }.Stored (info.setTimestamp ev time).buffer ev := by
  have cell (offset : Nat) (other : 4 ≤ offset) :
      (info.setTimestamp ev time).buffer (ev + offset) = info.buffer (ev + offset) :=
    Memory.write_outside (by simp; omega)
  have same (offset length : Nat) (after : 4 ≤ offset) :
      (info.setTimestamp ev time).buffer.read (ev + offset) length =
        info.buffer.read (ev + offset) length :=
    Memory.read_write_disjoint (by simp; omega)
  exact
    { timestamp := Memory.number_of_read (Memory.read_write_block (by simp)) (by simpa using small)
      size := (congrArg UInt8.toNat (cell 4 (by omega))).trans stored.size
      index := (cell 5 (by omega)).trans stored.index
      command := (congrArg fromLittle (same 6 2 (by omega))).trans stored.command
      payload := (same 8 _ (by omega)).trans stored.payload }

/-- Replace one element on the left by one related to no less. -/
theorem forall₂_replace {relation : α → β → Prop} {others : List β}
    (all : List.Forall₂ relation (before ++ old :: rest) others)
    (weaker : ∀ other, relation old other → relation new other) :
    List.Forall₂ relation (before ++ new :: rest) others := by
  induction before generalizing others with
  | nil =>
    cases all with
    | cons head tail => exact .cons (weaker _ head) tail
  | cons first before ih =>
    cases all with
    | cons head tail => exact .cons head (ih tail)

/-- The record still is this raised packet, or is marked as done. -/
def Represents (record : EventRecord) (packet : Packet) : Prop :=
  record.serviceCommand = packet.serviceCommand ∧ record.payload = packet.payload ∧
    (record.serviceIndex = 0xff ∨ record.serviceIndex &&& 0x7f = packet.serviceIndex)

/-- A pass over a queue that held `origin`: `before` was visited, `after` is
still to come, and everything sent so far is one of the queued packets. -/
structure Progress (origin : List Packet) (before after : List EventRecord) (pass : Pass) (ev : Nat) :
    Prop where
  done : Queued pass.info.buffer 0 before ev
  todo : Queued pass.info.buffer ev after pass.info.qptr
  same : List.Forall₂ Represents (before ++ after) (origin.drop pass.left)
  length : pass.left + (before.length + after.length) = origin.length
  bound : pass.info.qptr ≤ eventQueueSize
  sent : ∀ entry ∈ pass.sent, origin[entry.1]? = some entry.2

namespace Progress

variable {origin : List Packet} {before after rest : List EventRecord} {pass : Pass}
  {record : EventRecord} {ev : Nat}

theorem skip (progress : Progress origin before (record :: rest) pass ev) :
    Progress origin (before ++ [record]) rest pass (ev + record.span) where
  done := progress.done.append ⟨progress.todo.1, rfl⟩
  todo := progress.todo.2
  same := by simpa using progress.same
  length := by
    have length := progress.length
    simp only [List.length_append, List.length_cons, List.length_nil] at length ⊢
    omega
  bound := progress.bound
  sent := progress.sent

theorem stop (progress : Progress origin before after pass ev) :
    Progress origin (before ++ after) [] pass pass.info.qptr where
  done := progress.done.append progress.todo
  todo := rfl
  same := by simpa using progress.same
  length := by simpa using progress.length
  bound := progress.bound
  sent := progress.sent

/-- At the start of the buffer nothing was visited yet. -/
theorem nothing (progress : Progress origin before after pass 0) : before = [] :=
  progress.done.eq_nil

theorem shift (progress : Progress origin [] (record :: rest) pass 0) :
    Progress origin [] rest { pass with info := pass.info.evShift, left := pass.left + 1 } 0 := by
  have size : eventQueueSize = 128 := rfl
  have bound := progress.bound
  obtain ⟨queued, shorter, _⟩ := evShift_queued progress.todo (by omega)
  have same := progress.same
  rw [List.nil_append] at same
  have length := progress.length
  simp only [List.length_nil, List.length_cons] at length
  exact
    { done := rfl
      todo := queued
      same := by
        obtain ⟨packet, packets, _, tail, split⟩ := List.forall₂_cons_left_iff.mp same
        rw [← List.drop_drop, split]
        exact tail
      length := by simp; omega
      bound := by simp only; omega
      sent := progress.sent }

/-- The current record, unless done, is sent as it was raised. -/
theorem sends (progress : Progress origin before (record :: rest) pass ev)
    (live : pass.info.serviceIndexAt ev ≠ 0xff) :
    Progress origin before (record :: rest)
      { pass with sent := pass.sent ++ [(pass.left + before.length, pass.info.packetAt ev)] } ev := by
  refine { progress with sent := ?_ }
  intro entry member
  rcases List.mem_append.mp member with earlier | last
  · exact progress.sent entry earlier
  · rw [List.mem_singleton.mp last]
    obtain ⟨stored, _⟩ := progress.todo
    have here : (origin.drop pass.left)[before.length]? = some (pass.info.packetAt ev) := by
      have length := progress.same.length_eq
      have inside : before.length < (origin.drop pass.left).length := by
        rw [← length]; simp
      have same := List.Forall₂.get progress.same (by simp) inside
      simp only [List.get_eq_getElem, List.getElem_append_right (Nat.le_refl _), Nat.sub_self,
        List.getElem_cons_zero] at same
      obtain ⟨command, payload, index⟩ := same
      have index := index.resolve_left fun marked => live (stored.index.trans marked)
      rw [List.getElem?_eq_getElem inside, packetAt_stored stored, command, payload, index]
    rwa [List.getElem?_drop] at here

/-- The current record changes in place. -/
theorem rewrite (progress : Progress origin before (record :: rest) pass ev) (buffer : Memory)
    (other : EventRecord) (stored : other.Stored buffer ev) (span : other.span = record.span)
    (represents : ∀ packet, Represents record packet → Represents other packet)
    (same : ∀ cell, cell < ev ∨ ev + record.span ≤ cell → buffer cell = pass.info.buffer cell) :
    Progress origin before (other :: rest) { pass with info := { pass.info with buffer } } ev where
  done := progress.done.congr fun cell _ upper => same cell (.inl upper)
  todo := by
    refine ⟨stored, ?_⟩
    rw [span]
    exact progress.todo.2.congr fun cell lower _ => same cell (.inr lower)
  same := forall₂_replace progress.same represents
  length := progress.length
  bound := progress.bound
  sent := progress.sent

end Progress

theorem Represents.rewrite {record : EventRecord} (represents : Represents record packet)
    (live : record.serviceIndex ≠ 0xff)
    (kept : index = 0xff ∨ index &&& 0x7f = record.serviceIndex &&& 0x7f) (time : Nat) :
    Represents { record with timestamp := time, serviceIndex := index } packet := by
  obtain ⟨command, payload, same⟩ := represents
  refine ⟨command, payload, ?_⟩
  rcases kept with marked | kept
  · exact .inl marked
  · exact .inr (kept.trans (same.resolve_left live))

theorem setServiceIndex_outside {info : EventInfo} (index : UInt8)
    (outside : cell < ev ∨ ev + 8 ≤ cell) :
    (info.setServiceIndex ev index).buffer cell = info.buffer cell :=
  Memory.write_outside (by simp; omega)

theorem setTimestamp_outside {info : EventInfo} (time : Nat) (outside : cell < ev ∨ ev + 8 ≤ cell) :
    (info.setTimestamp ev time).buffer cell = info.buffer cell :=
  Memory.write_outside (by simp; omega)

theorem Progress.mark {pass : Pass} (progress : Progress origin before (record :: rest) pass ev)
    (live : pass.info.serviceIndexAt ev ≠ 0xff) :
    Progress origin before ({ record with serviceIndex := 0xff } :: rest)
      { pass with info := pass.info.setServiceIndex ev 0xff } ev := by
  have stored := progress.todo.1
  have room := record.span_ge
  have live : record.serviceIndex ≠ 0xff := fun marked => live (stored.index.trans marked)
  exact progress.rewrite _ _ (setServiceIndex_stored stored 0xff) rfl
    (fun packet represents => represents.rewrite live (.inl rfl) record.timestamp)
    (fun cell outside => setServiceIndex_outside _ (by omega))

private theorem low_bits_kept (byte : UInt8) : (byte ||| 0x80) &&& 0x7f = byte &&& 0x7f := by
  have low (number : Nat) : number &&& 127 = number % 2 ^ 7 := Nat.and_two_pow_sub_one_eq_mod number 7
  apply UInt8.toNat_inj.mp
  rw [UInt8.toNat_and, UInt8.toNat_and, UInt8.toNat_or]
  show (byte.toNat ||| 128) &&& 127 = byte.toNat &&& 127
  rw [low, low, Nat.or_mod_two_pow]
  exact Nat.or_zero _

/-- The first repetition: the next one is due later. -/
theorem Progress.postpone {pass : Pass} (progress : Progress origin before (record :: rest) pass ev)
    (live : pass.info.serviceIndexAt ev ≠ 0xff) (small : time < 4294967296) :
    ∃ other, Progress origin before (other :: rest)
      { pass with info := (pass.info.setTimestamp ev time).setServiceIndex ev ((pass.info.setTimestamp ev time).serviceIndexAt ev ||| 0x80) } ev := by
  have stored := progress.todo.1
  have room := record.span_ge
  have live : record.serviceIndex ≠ 0xff := fun marked => live (stored.index.trans marked)
  have later := setTimestamp_stored stored small
  have index : (pass.info.setTimestamp ev time).serviceIndexAt ev = record.serviceIndex := later.index
  rw [index]
  refine ⟨_, progress.rewrite _ _ (setServiceIndex_stored later _) rfl
    (fun packet represents => represents.rewrite live (.inr (low_bits_kept _)) time) ?_⟩
  intro cell outside
  exact (setServiceIndex_outside _ (by omega)).trans (setTimestamp_outside _ (by omega))

/-- One pass leaves a suffix of the queue, and sends only queued packets. -/
theorem processFrom_progress {pass : Pass}
    (run : processFrom now accept fuel pass index ev = some result)
    (progress : Progress origin before after pass ev) (position : index = before.length) :
    (∃ records, Progress origin records [] result result.info.qptr) ∧
      result.info.counter = pass.info.counter := by
  induction fuel generalizing pass index ev before after with
  | zero => cases run
  | succ fuel ih =>
    subst position
    simp only [processFrom] at run
    split at run
    · rename_i inside
      cases after with
      | nil => exact absurd (show ev = pass.info.qptr from progress.todo) (by omega)
      | cons record rest =>
        have next : pass.info.nextEv ev = ev + record.span := nextEv_stored progress.todo.1
        split at run
        · rename_i marked
          split at run
          · rename_i start
            subst start
            cases progress.nothing
            obtain ⟨shape, counter⟩ := ih run progress.shift rfl
            exact ⟨shape, counter⟩
          · rw [next] at run
            exact ih run progress.skip (by simp)
        · rename_i live
          split at run
          · split at run
            · cases run
              exact ⟨⟨_, progress.stop⟩, rfl⟩
            · have progress := progress.sends live
              split at run
              · split at run
                · rename_i start
                  subst start
                  cases progress.nothing
                  obtain ⟨shape, counter⟩ := ih run progress.shift rfl
                  exact ⟨shape, counter⟩
                · have progress := progress.mark live
                  rw [nextEv_stored progress.todo.1] at run
                  obtain ⟨shape, counter⟩ := ih run progress.skip (by simp)
                  exact ⟨shape, counter⟩
              · have small : u32 (pass.info.timestampAt ev + secondDelay) < 4294967296 :=
                  Nat.mod_lt _ (by decide)
                obtain ⟨_, progress⟩ := progress.postpone live small
                rw [nextEv_stored progress.todo.1] at run
                obtain ⟨shape, counter⟩ := ih run progress.skip (by simp)
                exact ⟨shape, counter⟩
          · rw [next] at run
            exact ih run progress.skip (by simp)
    · cases run
      exact ⟨⟨_, progress.stop⟩, rfl⟩

/-- The queue holds exactly these raised packets, oldest first. -/
structure Holds (info : EventInfo) (packets : List Packet) : Prop where
  records : ∃ records, Queued info.buffer 0 records info.qptr ∧
    List.Forall₂ Represents records packets
  bound : info.qptr ≤ eventQueueSize

theorem Holds.boot : Holds EventInfo.boot [] := ⟨⟨[], rfl, .nil⟩, Nat.zero_le _⟩

/-- Every record has an eight-byte header. -/
theorem Holds.length_le (holds : Holds info packets) : packets.length ≤ 16 := by
  obtain ⟨records, queued, same⟩ := holds.records
  have bound := queued.bound
  have limit := holds.bound
  have size : eventQueueSize = 128 := rfl
  have length := same.length_eq
  omega

theorem Holds.process {pass : Pass} (holds : Holds info packets)
    (run : doProcessEventQueue now accept fuel info = some pass) :
    Holds pass.info (packets.drop pass.left) ∧ pass.left ≤ packets.length ∧
    (∀ entry ∈ pass.sent, packets[entry.1]? = some entry.2) ∧
    pass.info.counter = info.counter := by
  obtain ⟨records, queued, same⟩ := holds.records
  have start : Progress packets [] records { info, sent := [], left := 0 } 0 :=
    { done := rfl
      todo := queued
      same := same
      length := by simpa using same.length_eq
      bound := holds.bound
      sent := by simp }
  obtain ⟨⟨visited, progress⟩, counter⟩ := processFrom_progress run start rfl
  have visitedSame := progress.same
  rw [List.append_nil] at visitedSame
  have length := progress.length
  exact ⟨⟨⟨visited, progress.done, visitedSame⟩, progress.bound⟩, by omega, progress.sent, counter⟩

/-- Evicting drops the oldest records and stops with enough room. -/
theorem makeRoom_queued {info : EventInfo} (queued : Queued info.buffer 0 records info.qptr)
    (bound : info.qptr ≤ eventQueueSize) (fits : reqlen ≤ eventQueueSize) (enough : info.qptr ≤ fuel) :
    Queued (makeRoom reqlen fuel info).1.buffer 0 (records.drop (makeRoom reqlen fuel info).2)
      (makeRoom reqlen fuel info).1.qptr ∧
    (makeRoom reqlen fuel info).2 ≤ records.length ∧
    (makeRoom reqlen fuel info).1.qptr + reqlen ≤ eventQueueSize ∧
    (makeRoom reqlen fuel info).1.counter = info.counter := by
  induction fuel generalizing info records with
  | zero =>
    have room : info.qptr + reqlen ≤ eventQueueSize := by omega
    exact ⟨queued, Nat.zero_le _, room, rfl⟩
  | succ fuel ih =>
    rw [makeRoom]
    split
    · rename_i full
      have size : eventQueueSize = 128 := rfl
      cases records with
      | nil =>
        have empty : 0 = info.qptr := queued
        omega
      | cons record rest =>
        have least := record.span_ge
        obtain ⟨shifted, shorter, counter⟩ := evShift_queued queued (by omega)
        obtain ⟨left, within, room, kept⟩ := ih shifted (by omega) (by omega)
        exact ⟨left, Nat.succ_le_succ within, room, kept.trans counter⟩
    · rename_i free
      exact ⟨queued, Nat.zero_le _, Nat.not_lt.mp free, rfl⟩

/-- Evicting stops with enough room. -/
theorem Holds.makeRoom (holds : Holds info packets) (fits : reqlen ≤ eventQueueSize)
    (enough : info.qptr ≤ fuel) :
    Holds (makeRoom reqlen fuel info).1 (packets.drop (makeRoom reqlen fuel info).2) ∧
    (EventInfo.makeRoom reqlen fuel info).2 ≤ packets.length ∧
    (EventInfo.makeRoom reqlen fuel info).1.qptr + reqlen ≤ eventQueueSize ∧
    (EventInfo.makeRoom reqlen fuel info).1.counter = info.counter := by
  obtain ⟨records, queued, same⟩ := holds.records
  obtain ⟨left, within, room, counter⟩ := makeRoom_queued queued holds.bound fits enough
  refine ⟨⟨⟨_, left, List.forall₂_drop _ same⟩, by omega⟩, ?_, room, counter⟩
  rwa [same.length_eq] at within

/-- What `jd_send_event_ext` queues: a payload of at most 120 bytes from a service
with a normal index. -/
structure Queueable (packet : Packet) : Prop where
  size : packet.serviceSize ≤ 120
  index : packet.serviceIndex < 0x80
  command : packet.serviceCommand < 65536

def freshRecord (now : Nat) (packet : Packet) : EventRecord :=
  ⟨u32 (now + firstDelay), packet.serviceIndex, packet.serviceCommand, packet.payload⟩

theorem enqueue_stored {info : EventInfo} (queueable : Queueable packet) (now : Nat) :
    (freshRecord now packet).Stored (enqueue now info packet).buffer info.qptr := by
  have size := queueable.size
  have length : packet.payload.length = packet.serviceSize := rfl
  have fits : (UInt8.ofNat packet.serviceSize).toNat = packet.serviceSize := by
    rw [UInt8.toNat_ofNat']; omega
  have whole : (enqueue now info packet).buffer.read info.qptr (4 + (1 + (1 + (2 + packet.serviceSize)))) =
      littleEndian 4 (u32 (now + firstDelay)) ++ ([UInt8.ofNat packet.serviceSize] ++
        ([packet.serviceIndex] ++ (littleEndian 2 packet.serviceCommand ++ packet.payload))) := by
    rw [enqueue]
    refine (Memory.read_write_block ?_).trans (by simp)
    simp; omega
  rw [Memory.read_append, Memory.read_append, Memory.read_append, Memory.read_append] at whole
  obtain ⟨time, whole⟩ := List.append_inj whole (by simp)
  obtain ⟨sizeCell, whole⟩ := List.append_inj whole (by simp)
  obtain ⟨indexCell, whole⟩ := List.append_inj whole (by simp)
  obtain ⟨command, payload⟩ := List.append_inj whole (by simp)
  have timeSmall : u32 (now + firstDelay) < 256 ^ 4 := Nat.mod_lt _ (by decide)
  exact
    { timestamp := Memory.number_of_read time timeSmall
      size := (congrArg UInt8.toNat (List.singleton_inj.mp sizeCell)).trans fits
      index := List.singleton_inj.mp indexCell
      command := Memory.number_of_read command queueable.command
      payload := payload }

private theorem low_index {index : UInt8} (normal : index < 0x80) : index &&& 0x7f = index := by
  have less : index.toNat < 2 ^ 7 := UInt8.lt_iff_toNat_lt.mp normal
  apply UInt8.toNat_inj.mp
  rw [UInt8.toNat_and]
  exact (Nat.and_two_pow_sub_one_eq_mod index.toNat 7).trans (Nat.mod_eq_of_lt less)

/-- A new record comes behind the others. -/
theorem enqueue_queued {info : EventInfo} (queued : Queued info.buffer 0 records info.qptr)
    (queueable : Queueable packet) (room : info.qptr + (packet.serviceSize + 8) ≤ eventQueueSize) (now : Nat) :
    Queued (enqueue now info packet).buffer 0 (records ++ [freshRecord now packet]) (enqueue now info packet).qptr ∧
      (enqueue now info packet).qptr ≤ eventQueueSize := by
  have last : Queued (enqueue now info packet).buffer info.qptr [freshRecord now packet]
      (info.qptr + evSize packet.serviceSize) := ⟨enqueue_stored queueable now, rfl⟩
  have whole := queued.mod
  have size := queueable.size
  have limit : eventQueueSize = 128 := rfl
  have fits : (UInt8.ofNat packet.serviceSize).toNat = packet.serviceSize := by
    rw [UInt8.toNat_ofNat']; omega
  have after : (enqueue now info packet).qptr = info.qptr + evSize packet.serviceSize := by
    simp only [enqueue, fits, u16, evSize, align]
    omega
  have kept : Queued (enqueue now info packet).buffer 0 records info.qptr :=
    queued.congr fun cell _ upper => Memory.write_outside (.inl upper)
  refine ⟨after ▸ kept.append last, ?_⟩
  rw [after]
  unfold evSize align
  omega

theorem Holds.enqueue (holds : Holds info packets) (queueable : Queueable packet)
    (room : info.qptr + (packet.serviceSize + 8) ≤ eventQueueSize) (now : Nat) :
    Holds (enqueue now info packet) (packets ++ [packet]) := by
  obtain ⟨records, queued, same⟩ := holds.records
  obtain ⟨longer, bound⟩ := enqueue_queued queued queueable room now
  refine ⟨⟨_, longer, ?_⟩, bound⟩
  exact List.rel_append same (.cons ⟨rfl, rfl, .inr (low_index queueable.index)⟩ .nil)

theorem cmdEventMk_lt (counter code : Nat) : cmdEventMk counter code < 65536 := by
  unfold cmdEventMk
  omega

/-- What raising an event does: it is put into the queue unless it is too long. -/
theorem jdSendEventExt_cases {info next : EventInfo}
    (raised : info.jdSendEventExt now serviceIndex eventId data = .ok (packet, next, left)) :
    packet = ⟨serviceIndex, cmdEventMk (info.counter + 1) eventId, data⟩ ∧
      (eventQueueSize < data.length + 8 ∧ next = { info with counter := (info.counter + 1) % 256 } ∧ left = 0 ∨
        data.length + 8 ≤ eventQueueSize ∧
          next = enqueue now
            (makeRoom (data.length + 8) info.qptr { info with counter := (info.counter + 1) % 256 }).1 packet ∧
          left = (makeRoom (data.length + 8) info.qptr { info with counter := (info.counter + 1) % 256 }).2) := by
  have wrapped : cmdEventMk ((info.counter + 1) % 256) eventId = cmdEventMk (info.counter + 1) eventId := by
    unfold cmdEventMk
    omega
  simp only [jdSendEventExt, nextEventCmd] at raised
  split at raised
  · cases raised
  · rename_i command counted known
    split at known
    · cases known
    · obtain ⟨rfl, rfl⟩ := Prod.mk.inj (Except.ok.inj known)
      rw [wrapped] at raised
      split at raised
      · rename_i long
        obtain ⟨rfl, rfl, rfl⟩ := (Except.ok.inj raised : (_, _, _) = (_, _, _))
        exact ⟨rfl, .inl ⟨long, rfl, rfl⟩⟩
      · rename_i short
        obtain ⟨rfl, rfl, rfl⟩ := (Except.ok.inj raised : (_, _, _) = (_, _, _))
        exact ⟨rfl, .inr ⟨Nat.not_lt.mp short, rfl, rfl⟩⟩

/-- Raising an event sends its packet and queues it, evicting the oldest. -/
theorem Holds.raise (holds : Holds info packets) (normal : serviceIndex < 0x80)
    (short : data.length ≤ 120)
    (raised : jdSendEventExt now info serviceIndex eventId data = .ok (packet, next, left)) :
    packet = ⟨serviceIndex, cmdEventMk (info.counter + 1) eventId, data⟩ ∧
    next.counter = (info.counter + 1) % 256 ∧ left ≤ packets.length ∧
    Holds next (packets.drop left ++ [packet]) := by
  have limit : eventQueueSize = 128 := rfl
  obtain ⟨rfl, outcome⟩ := jdSendEventExt_cases raised
  rcases outcome with ⟨long, _⟩ | ⟨fits, rfl, rfl⟩
  · omega
  · have counted : Holds { info with counter := (info.counter + 1) % 256 } packets := ⟨holds.records, holds.bound⟩
    obtain ⟨held, within, room, counter⟩ := counted.makeRoom fits (Nat.le_refl _)
    have queueable : Queueable ⟨serviceIndex, cmdEventMk (info.counter + 1) eventId, data⟩ :=
      ⟨short, normal, cmdEventMk_lt _ _⟩
    exact ⟨rfl, counter, within, held.enqueue queueable room now⟩

end EventInfo

end Jacdac
