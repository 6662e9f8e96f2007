import Rknpu.Queue.Lemmas.Accounting
import Rknpu.Service.Theorems.Progress
import Rknpu.Service.Theorems.Reply

/-!
# Task accounting

The reply counts the tasks of a submit by its lane cursors, in 32 bits and up to the completion target. The number is
the number of completions for the layouts of `SubmitMeta.CountsExactly`. The lane table of a static submit is not
checked before it is accepted, so other layouts get in.
-/

namespace Rknpu.Service

open Queue

/-- The target of an accepted submit that counts exactly, over the natural numbers. -/
theorem Accepted.toNat_completionTarget {submit : RknpuSubmit} {tasks : List RknpuTask} (h : Accepted submit tasks)
    (hm : (SubmitMeta.fromSubmit submit submit.taskNumber).CountsExactly) :
    (SubmitMeta.fromSubmit submit submit.taskNumber).completionTarget.toNat =
      min (SubmitMeta.fromSubmit submit submit.taskNumber).laneSum submit.taskNumber.toNat := by
  cases hmode : (SubmitMeta.fromSubmit submit submit.taskNumber).usesDynamicTasks with
  | true =>
      have hp := h.partitions (bne_iff_ne.mp hmode)
      have hsum : (SubmitMeta.fromSubmit submit submit.taskNumber).laneSum = submit.taskNumber.toNat := by
        rw [SubmitMeta.laneSum, Finset.sum_congr rfl fun l _ => (hp.laneCap_eq l).symm, hp.sum_laneCap]
        rfl
      rw [hp.completionTarget_eq, hsum, min_self]
      rfl
  | false =>
      obtain ⟨hlt, _⟩ := hm.resolve_left (by rw [hmode]; exact Bool.false_ne_true)
      exact SubmitMeta.toNat_completionTarget hmode hlt (SubmitMeta.laneSum_fromSubmit_pos h.taskNumber_ne_zero)

/-- An accepted submit with such a layout is accounted for exactly: its target is the smaller of what its lanes and its
task array hold, no sum over its lanes overflows in any reachable state, and its reply counts its completions. -/
theorem accounting_exact {submit : RknpuSubmit} {tasks : List RknpuTask} (hok : Accepted submit tasks)
    (hm : (SubmitMeta.fromSubmit submit submit.taskNumber).CountsExactly) :
    (SubmitMeta.fromSubmit submit submit.taskNumber).completionTarget.toNat =
        min (SubmitMeta.fromSubmit submit submit.taskNumber).laneSum submit.taskNumber.toNat ∧
      ∀ (acts : List ClientAct) (c : Clients) (thread : Nat) (taskId : RknpuQueueTaskId) (pc : CallPc),
        clients.run acts = some c → c.sys.IdsFit → c.calls[thread]? = some ⟨submit, tasks, pc⟩ →
        pc.taskId = some taskId →
        (∀ t, c.sys.state.tasks[taskId]? = some t ∨ c.sys.state.complete[taskId]? = some t → t.SumsFit) ∧
        ∀ finished, pc.finished = some (taskId, finished) →
          (replyHeader submit finished).taskCounter.toNat = (completedSlots (eventsOf taskId c.sys.hist)).length := by
  refine ⟨hok.toNat_completionTarget hm, fun acts c thread taskId pc hrun hfit hcall hid => ?_⟩
  have hrec := Clients.recorded_of_run hrun hfit hcall
  obtain ⟨_, t0Ns, timeNs, henqueued⟩ := hrec.enqueued taskId hid
  obtain ⟨hfits, ℓ, hreach, hagree⟩ := (Clients.sys_of_run hrun hfit).1.lives taskId _ timeNs henqueued
  have hmeta : (queuedSubmit submit tasks t0Ns).submitMeta = SubmitMeta.fromSubmit submit submit.taskNumber := by
    rw [← hok.taskTotal]
    rfl
  rw [← hmeta] at hm
  constructor
  · intro t ht
    have htask : ℓ.task = t := by
      rcases ht with ht | ht
      · exact (hagree.live ht).2
      · exact (hagree.done ht).2
    exact htask ▸ (hreach.inv hfits).sumsFit hm
  · intro finished hfinished
    obtain ⟨t, htaken, rfl⟩ := hrec.taken taskId finished hfinished
    have hpos : 0 < (queuedSubmit submit tasks t0Ns).submitMeta.laneSum := by
      rw [hmeta]
      exact SubmitMeta.laneSum_fromSubmit_pos hok.taskNumber_ne_zero
    rw [← hreach.toNat_completedTaskCount hfits hm hpos, hreach.task_of_taken (mem_eventsOf.mpr htaken)]
    rfl

theorem accounting_exact_pair : ∃ (c : Clients) (call : Call) (finished : CompletedSubmit),
    clients.run pairReplied = some c ∧ c.calls[0]? = some call ∧
    call.pc = .returned (some 1) (.replied finished (.ok ()) (.ok ())) ∧
    (replyHeader call.submit finished).taskCounter.toNat = (completedSlots (eventsOf 1 c.sys.hist)).length := by
  obtain ⟨c, hrun, hc⟩ := (Option.any_eq_true (fun c : Clients => decide (c.sys.IdsFit ∧
    (c.calls[0]?.any fun call : Call => decide (call.submit = twoLanes 2 ⟨0, 1⟩ ⟨1, 1⟩ ∧
      call.tasks = [plainTask, plainTask]) && call.repliesTo 1) = true)) _).mp
    (show (clients.run pairReplied).any _ = true by decide +kernel)
  obtain ⟨hfit, hreply⟩ := of_decide_eq_true hc
  obtain ⟨⟨submit, tasks, pc⟩, hcall, hpc⟩ := (Option.any_eq_true _ _).mp hreply
  rw [Bool.and_eq_true, decide_eq_true_eq] at hpc
  obtain ⟨⟨rfl, rfl⟩, hpc⟩ := hpc
  obtain ⟨finished, rfl⟩ := Call.pc_of_repliesTo hpc
  have hexact := (accounting_exact (show Accepted (twoLanes 2 ⟨0, 1⟩ ⟨1, 1⟩) [plainTask, plainTask] from ⟨rfl, rfl⟩)
    (by decide +kernel)).2 pairReplied c 0 1 _ hrun hfit hcall rfl
  exact ⟨c, _, finished, hrun, hcall, rfl, hexact.2 finished rfl⟩

/-! ## Layouts that are not counted exactly -/

/-- Two tasks, and lanes whose sizes add up to one more than the width. -/
def wideLanes : RknpuSubmit := twoLanes 2 ⟨0, 4294967295⟩ ⟨0, 2⟩

/-- One task that both lanes own. Core 0 answers with an unexpected status bit, and core 1 drains. -/
def sharedTask : List ClientAct :=
  [.enter 0 (.ok (twoLanes 1 ⟨0, 1⟩ ⟨0, 1⟩)) (.ok [plainTask]) 0 0, .call 0 .lookup, .worker .decide,
    .worker (.launch 0), .worker .decide, .worker (.launch 0), badCompletion] ++ drainAndReply

theorem accounting_inexact :
    (Accepted wideLanes [plainTask, plainTask] ∧
      (SubmitMeta.fromSubmit wideLanes wideLanes.taskNumber).completionTarget.toNat ≠
        min (SubmitMeta.fromSubmit wideLanes wideLanes.taskNumber).laneSum wideLanes.taskNumber.toNat) ∧
    (∃ c : Clients, clients.run [.enter 0 (.ok wideLanes) (.ok [plainTask, plainTask]) 0 0] = some c ∧
      ∃ t, c.sys.state.tasks[(1 : UInt64)]? = some t ∧ ¬ t.SumsFit) ∧
    ∃ (c : Clients) (call : Call) (finished : CompletedSubmit), clients.run sharedTask = some c ∧
      c.calls[0]? = some call ∧ call.pc = .returned (some 1) (.replied finished (.ok ()) (.ok ())) ∧
      (replyHeader call.submit finished).taskCounter.toNat ≠ (harvestedSlots (eventsOf 1 c.sys.hist)).length := by
  refine ⟨⟨⟨rfl, rfl⟩, by decide +kernel⟩, ?_, ?_⟩
  · obtain ⟨c, hrun, hc⟩ := (Option.any_eq_true (fun c : Clients =>
      c.sys.state.tasks[(1 : UInt64)]?.any fun t : RknpuQueueTask => decide (¬ t.SumsFit)) _).mp
      (show (clients.run [.enter 0 (.ok wideLanes) (.ok [plainTask, plainTask]) 0 0]).any _ = true by
        decide +kernel)
    obtain ⟨t, ht, hsum⟩ := (Option.any_eq_true _ _).mp hc
    exact ⟨c, hrun, t, ht, of_decide_eq_true hsum⟩
  · obtain ⟨c, hrun, hc⟩ := (Option.any_eq_true (fun c : Clients => c.calls[0]?.any fun call => call.repliesTo 1 &&
      call.pc.finished.any fun reply => (replyHeader call.submit reply.2).taskCounter.toNat !=
        (harvestedSlots (eventsOf 1 c.sys.hist)).length) _).mp
      (show (clients.run sharedTask).any _ = true by decide +kernel)
    obtain ⟨call, hcall, hreply⟩ := (Option.any_eq_true _ _).mp hc
    rw [Bool.and_eq_true] at hreply
    obtain ⟨finished, hpc⟩ := Call.pc_of_repliesTo hreply.1
    have hne := hreply.2
    rw [hpc] at hne
    exact ⟨c, call, finished, hrun, hcall, hpc, bne_iff_ne.mp hne⟩

end Rknpu.Service
