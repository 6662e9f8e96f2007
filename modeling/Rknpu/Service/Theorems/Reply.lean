import Rknpu.Queue.Lemmas.Reply
import Rknpu.Service.Theorems.Fault

/-!
# The frame of the reply

A blocking submit gets back its own header and its own task array. The header is taken apart at the enqueue and put
together again at the end; in between the descriptors are written in place while other lanes run.
-/

namespace Rknpu.Service

open Queue

/-- Unless its wait is interrupted, an accepted submit ends with a reply: its header with the two counters, and with
lane 0 over all tasks when no lane had any, and its task array with a new status for the reserved tasks only. -/
theorem reply_frame {acts : List ClientAct} {c : Clients} (hrun : clients.run acts = some c) (hfit : c.sys.IdsFit)
    {thread : Nat} {submit : RknpuSubmit} {tasks : List RknpuTask} {taskId : RknpuQueueTaskId} {outcome : Outcome}
    (hcall : c.calls[thread]? = some ⟨submit, tasks, .returned (some taskId) outcome⟩)
    (hwait : ∀ err, outcome ≠ .interrupted err) :
    ∃ finished tasksCopy headerCopy, outcome = .replied finished tasksCopy headerCopy ∧
      replyHeader submit finished = { submit with
        taskCounter := (replyHeader submit finished).taskCounter
        hwElapseTime := (replyHeader submit finished).hwElapseTime
        subcoreTask := submit.replyLanes } ∧
      finished.tasks.length = tasks.length ∧ DescsReply (eventsOf taskId c.sys.hist) tasks finished.tasks := by
  have hrec := Clients.recorded_of_run hrun hfit hcall
  obtain ⟨finished, tasksCopy, headerCopy, rfl⟩ :=
    (hrec.ended taskId outcome rfl).resolve_left fun ⟨err, he⟩ => hwait err he
  obtain ⟨t, htaken, rfl⟩ := hrec.taken taskId finished rfl
  obtain ⟨haccepted, t0Ns, timeNs, henqueued⟩ := hrec.enqueued taskId rfl
  obtain ⟨hfits, ℓ, hreach, _⟩ := (Clients.sys_of_run hrun hfit).1.lives taskId _ timeNs henqueued
  have hframe := (hreach.inv hfits).frame
  rw [hreach.task_of_taken (mem_eventsOf.mpr htaken)] at hframe
  have hmeta : t.submitMeta = SubmitMeta.fromSubmit submit submit.taskNumber := by
    rw [← haccepted.taskTotal]
    exact congrArg (fun f => f.2.1) hframe
  have hdescs := hreach.descsReply hfits
  rw [hreach.task_of_taken (mem_eventsOf.mpr htaken)] at hdescs
  refine ⟨_, tasksCopy, headerCopy, rfl, ?_, congrArg (fun f => f.2.2.2) hframe, hdescs⟩
  exact RknpuQueueTask.buildSubmit_frame haccepted.taskNumber_ne_zero hmeta (congrArg (fun f => f.2.2.1) hframe)

/-- Both tasks of a pair complete, and the call gets its record. -/
def pairReplied : List ClientAct :=
  pairInFlight ++ [.worker (.harvest [(⟨0, 1, 0⟩, 0), (⟨1, 1, 0⟩, 0)]), .worker (.wake false), .signal,
    .call 0 (.wait (.ok ())), .call 0 .take, .call 0 (.copyBack (.ok ()) (.ok ()))]

theorem reply_frame_pair : ∃ (c : Clients) (call : Call) (finished : CompletedSubmit),
    clients.run pairReplied = some c ∧ c.calls[0]? = some call ∧
    call.pc = .returned (some 1) (.replied finished (.ok ()) (.ok ())) ∧
    (replyHeader call.submit finished).subcoreTask = call.submit.replyLanes ∧
    DescsReply (eventsOf 1 c.sys.hist) call.tasks finished.tasks := by
  obtain ⟨c, hrun, hc⟩ := (Option.any_eq_true (fun c : Clients => decide (c.sys.IdsFit ∧
    (c.calls[0]?.any fun call => call.repliesTo 1) = true)) _).mp
    (show (clients.run pairReplied).any _ = true by decide +kernel)
  obtain ⟨hfit, hreply⟩ := of_decide_eq_true hc
  obtain ⟨⟨submit, tasks, pc⟩, hcall, hpc⟩ := (Option.any_eq_true _ _).mp hreply
  obtain ⟨finished, rfl⟩ := Call.pc_of_repliesTo hpc
  obtain ⟨_, _, _, he, hheader, _, hdescs⟩ := reply_frame hrun hfit hcall nofun
  cases he
  exact ⟨c, _, finished, hrun, hcall, rfl, congrArg RknpuSubmit.subcoreTask hheader, hdescs⟩

/-! ## After the ids have come round -/

/-- A new submit with another timeout gets the same id and completes before the older record is taken. -/
def takenFromOther : List ClientAct :=
  [.enter 1 (.ok { twoLanes 1 ⟨0, 1⟩ ⟨0, 0⟩ with timeout := 7 }) (.ok [plainTask]) 0 0, .worker .decide,
    .worker (.launch 0), .worker (.harvest [(⟨0, 1, 0⟩, 0)]), .call 0 .take, .call 0 (.copyBack (.ok ()) (.ok ()))]

theorem reply_of_other_on_wrap : ∃ acts, ∃ (c : Clients) (call : Call) (finished : CompletedSubmit),
    clients.run acts = some c ∧ c.calls[0]? = some call ∧
    call.pc = .returned (some 1) (.replied finished (.ok ()) (.ok ())) ∧
    (replyHeader call.submit finished).timeout ≠ call.submit.timeout := by
  obtain ⟨acts, c₀, evs, d, hrun, _, hany⟩ := Clients.exists_wrapped_run wokenCall takenFromOther 2
    (show Accepted (twoLanes 1 ⟨0, 1⟩ ⟨0, 0⟩) [plainTask] from ⟨rfl, rfl⟩)
    (p := fun _ d => (d.calls[0]?.any fun call => call.repliesTo 1 &&
      call.pc.finished.any fun reply => (replyHeader call.submit reply.2).timeout != call.submit.timeout) = true)
    (by decide +kernel)
  obtain ⟨call, hcall, hreply⟩ := (Option.any_eq_true _ _).mp hany
  rw [Bool.and_eq_true] at hreply
  obtain ⟨finished, hpc⟩ := Call.pc_of_repliesTo hreply.1
  refine ⟨acts, _, call, finished, hrun, hcall, hpc, ?_⟩
  have hne := hreply.2
  rw [hpc] at hne
  exact bne_iff_ne.mp hne

end Rknpu.Service
