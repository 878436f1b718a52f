import Jacdac.Pipe.TableInvariant

/-! Runs over any number of output pipes. -/

namespace Jacdac

/-- The outcome of an operation whose loops may visit as many nodes as they need. -/
def Ends (operation : Nat → Except TableFault β) (outcome : Except TableFault β) : Prop :=
  ∃ bound, ∀ limit, bound ≤ limit → operation limit = outcome

theorem Ends.eq {operation : Nat → Except TableFault β} (ends : Ends operation first)
    (other : ∀ limit, bound ≤ limit → operation limit = second) : first = second := by
  obtain ⟨enough, same⟩ := ends
  rw [← same (max enough bound) (Nat.le_max_left ..), other _ (Nat.le_max_right ..)]

/-- Tables reachable from zeroed descriptors, with the condition that every call
on the way was modest. The send queues belong to others and are arbitrary at
every tick. -/
inductive PipeRun (config : TxConfig) : PipeTable → Prop → Prop where
  | initial : PipeRun config .initial True
  | opened (run : PipeRun config table met)
      (done : Ends (table.jdOpipeOpen · str deviceId portNum) (.ok (result, next))) :
    PipeRun config next met
  | called (run : PipeRun config table met) (call : OPipe.Call) (short : call.length < 1048576)
      (done : Ends (table.call · now str call) (.ok (result, next))) :
    PipeRun config next (met ∧ call.Modest (table.descs str))
  | received {ack : OPipe.Ack} (run : PipeRun config table met)
      (done : Ends (PipeTable.jdOpipeHandlePacket · now ack table) (.ok next)) : PipeRun config next met
  | processed (run : PipeRun config table met)
      (done : Ends (PipeTable.jdOpipeProcess · config now link table) (.ok (after, next))) :
    PipeRun config next met

theorem PipeRun.sound (run : PipeRun config table met) : ∃ nodes, table.Sound met nodes := by
  induction run with
  | initial => exact ⟨[], .initial⟩
  | opened _ done ih =>
    obtain ⟨nodes, sound⟩ := ih
    obtain ⟨result, next, others, opened, after⟩ := sound.open _ _ _
    cases done.eq opened
    exact ⟨others, after⟩
  | called _ call short done ih =>
    obtain ⟨nodes, sound⟩ := ih
    obtain ⟨result, next, others, called, after⟩ := sound.call _ short _
    cases done.eq called
    exact ⟨others, after⟩
  | received _ done ih =>
    obtain ⟨nodes, sound⟩ := ih
    obtain ⟨next, others, handled, after⟩ := sound.handlePacket _ _
    cases done.eq handled
    exact ⟨others, after⟩
  | processed _ done ih =>
    obtain ⟨nodes, sound⟩ := ih
    rcases sound.processLoop _ _ _ sound.chain fun _ inside => inside with
      ⟨fault, failed, _⟩ | ⟨after, next, walked, final⟩
    · cases done.eq failed
    · cases done.eq walked
      exact ⟨nodes, final⟩

/-- In every run the list links exactly the pipes in use, each once, and no
operation on any pipe fails an assertion. If no call asked an empty idle pipe for
more than a frame holds, every frame on its way is non-empty and a tick cannot
run into the panic of `jd_queue_push`. -/
theorem output_pipes_sound (run : PipeRun config table met) :
    (∃ nodes, Chain table.next table.opipes nodes ∧ nodes.Nodup ∧
      ∀ str, str ∈ nodes ↔ (table.descs str).status ≠ .free) ∧
    (∀ str deviceId portNum, ∃ result, Ends (table.jdOpipeOpen · str deviceId portNum) (.ok result)) ∧
    (∀ now str call, OPipe.Call.length call < 1048576 →
      ∃ result, Ends (table.call · now str call) (.ok result)) ∧
    (∀ now ack, ∃ next, Ends (PipeTable.jdOpipeHandlePacket · now ack table) (.ok next)) ∧
    (∀ now link, (∃ result, Ends (PipeTable.jdOpipeProcess · config now link table) (.ok result)) ∨
      ∃ fault, Ends (PipeTable.jdOpipeProcess · config now link table) (.error (.pipe (.queue fault))) ∧
        (met → fault ≠ .emptyFrame)) ∧
    (met → ∀ str, (table.descs str).currRetry ≠ 0 → 0 < (table.descs str).frame.size) := by
  obtain ⟨nodes, sound⟩ := run.sound
  refine ⟨⟨nodes, sound.chain, sound.chain.nodup, sound.member⟩, ?_, ?_, ?_, ?_, sound.loaded⟩
  · intro str deviceId portNum
    obtain ⟨result, next, _, opened, _⟩ := sound.open str deviceId portNum
    exact ⟨_, nodes.length, opened⟩
  · intro now str call short
    obtain ⟨result, next, _, called, _⟩ := sound.call str short now
    exact ⟨_, nodes.length, called⟩
  · intro now ack
    obtain ⟨next, _, handled, _⟩ := sound.handlePacket ack now
    exact ⟨_, nodes.length, handled⟩
  · intro now link
    rcases sound.processLoop config now link sound.chain fun _ inside => inside with
      ⟨fault, failed, unloaded⟩ | ⟨after, next, walked, _⟩
    · exact .inr ⟨fault, ⟨nodes.length, failed⟩, unloaded⟩
    · exact .inl ⟨_, nodes.length, walked⟩

private def pipeConfig : TxConfig :=
  ⟨[1, 0, 0, 0, 0, 0, 0, 0], TxConfig.first_length, fun _ => true, fun _ => true⟩

private theorem pipe_opened : ∃ table, PipeRun pipeConfig table True ∧
    table.opipes = some 0 ∧ table.next 0 = none ∧ (table.descs 0).status = .opened ∧
    (table.descs 0).currRetry = 0 ∧ (table.descs 0).frame.size = 0 :=
  ⟨_, PipeRun.initial.opened ⟨0, fun _ _ => (rfl :
    PipeTable.initial.jdOpipeOpen _ 0 [2, 0, 0, 0, 0, 0, 0, 0] 1 = _)⟩, rfl, rfl, rfl, rfl, rfl⟩

/-- Asking an empty pipe for 300 bytes flushes its empty frame, and the next tick panics. -/
theorem empty_frame_flushed : ∃ (config : TxConfig) (table : PipeTable) (met : Prop) (link : Link),
    PipeRun config table met ∧ (table.descs 0).currRetry ≠ 0 ∧ (table.descs 0).frame.size = 0 ∧
      Ends (PipeTable.jdOpipeProcess · config 0 link table) (.error (.pipe (.queue .emptyFrame))) := by
  obtain ⟨table, run, head, tail, status, idle, empty⟩ := pipe_opened
  have beyond : ¬ u32 (0 + 4 + 300) ≤ serialPayloadSize := by decide
  have checked : OPipe.jdOpipeCheckSpace 0 (table.descs 0) 300 =
      .ok (.tryAgain, (table.descs 0).flushed 0) := by
    simp only [OPipe.jdOpipeCheckSpace, status, idle, empty, if_neg beyond, OPipe.doFlush_eq idle]
    rfl
  have called : Ends (table.call · 0 0 (.checkSpace 300))
      (.ok (.tryAgain, table.set 0 ((table.descs 0).flushed 0))) := by
    refine ⟨0, fun limit _ => ?_⟩
    simp only [PipeTable.call, OPipe.call, OPipe.Call.isClose, checked]
    exact if_neg (by simp)
  refine ⟨pipeConfig, _, _, ⟨jdQueueAlloc 1024, jdQueueAlloc 1024⟩,
    run.called (.checkSpace 300) (by decide) called, ?_, ?_, 1, fun limit positive => ?_⟩
  · rw [PipeTable.set_descs_self]
    exact Nat.one_ne_zero
  · rw [PipeTable.set_descs_self]
    exact empty
  · obtain ⟨limit, rfl⟩ := Nat.exists_eq_succ_of_ne_zero (by omega : limit ≠ 0)
    have pushed (queue : Queue) : jdQueuePush queue ((table.descs 0).flushed 0).frame = .error .emptyFrame := by
      have none : ((table.descs 0).flushed 0).frame.size = 0 := empty
      simp [jdQueuePush, none, bind, Except.bind, throw, throwThe, MonadExceptOf.throw]
    have failed : ((table.descs 0).flushed 0).jdOpipeProcess pipeConfig 0
        ⟨jdQueueAlloc 1024, jdQueueAlloc 1024⟩ = .error (.queue .emptyFrame) := by
      have due : ((table.descs 0).flushed 0).currRetry ≠ 0 ∧
          inPast 0 ((table.descs 0).flushed 0).retryTime = true :=
        ⟨Nat.one_ne_zero, (by decide : inPast 0 0 = true)⟩
      have first : ((table.descs 0).flushed 0).currRetry < opipeMaxRetries + 1 :=
        (by decide : 1 < opipeMaxRetries + 1)
      unfold OPipe.jdOpipeProcess
      rw [if_pos due, if_pos first]
      simp only [jdSendFrameRaw, pushSend, pipeConfig, if_true, pushed]
    simp only [PipeTable.jdOpipeProcess]
    rw [show (table.set 0 ((table.descs 0).flushed 0)).opipes = some 0 from head, PipeTable.processLoop,
      PipeTable.set_descs_self, failed]

private theorem pipe_flushed : ∃ table met, PipeRun pipeConfig table met ∧ met ∧
    table.opipes = some 0 ∧ (table.descs 0).currRetry = 1 ∧ (table.descs 0).frame.size = 8 := by
  refine ⟨_, _, ((PipeRun.initial.opened ⟨0, fun _ _ => (rfl :
    PipeTable.initial.jdOpipeOpen _ 0 [2, 0, 0, 0, 0, 0, 0, 0] 1 = _)⟩).called (.write [7]) (by decide)
      ⟨0, fun _ _ => (rfl : PipeTable.call _ 0 _ 0 (.write [7]) = _)⟩).called .flush (by decide)
      ⟨0, fun _ _ => (rfl : PipeTable.call _ 0 _ 0 .flush = _)⟩, ⟨⟨trivial, ?_⟩, ?_⟩, rfl, rfl, by decide⟩
  · unfold OPipe.Call.Modest
    decide
  · unfold OPipe.Call.Modest
    decide

/-- A byte is written to a pipe and flushed, so that its frame is in flight. -/
theorem output_pipes_sound_opened : ∃ config table met, PipeRun config table met ∧ table.opipes = some 0 ∧
    (table.descs 0).currRetry = 1 ∧ ∀ str, (table.descs str).currRetry ≠ 0 → 0 < (table.descs str).frame.size := by
  obtain ⟨table, met, run, modest, head, flight, _⟩ := pipe_flushed
  exact ⟨pipeConfig, table, met, run, head, flight, (output_pipes_sound run).2.2.2.2.2 modest⟩

end Jacdac
