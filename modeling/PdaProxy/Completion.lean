import PdaProxy.Orphans
import PdaProxy.Semantics.Quiescence
import Mathlib.Algebra.GroupWithZero.Nat

/-! The service between two arrivals. A call and a message have a bounded number of steps
left, but a call that sets a job back to be requested from the network adds to what every
message for its key has left. Without new requests the service comes to rest all the same,
and where failures are finalized every job is finished by then. -/
namespace PdaProxy
open PdaProxy.Semantics PdaProxy.Semantics.Serialization PdaProxy.Semantics.Transition
  PdaProxy.Semantics.Quiescence

variable {Proof Encoded Body : Type}

/-- What the process does by itself: calls, the worker, its tasks and its exit. -/
def Action.Internal : Action Proof Body → Prop
  | .request _ _ | .recv | .task _ _ | .exit => True
  | .receive _ | .shutdown | .crash _ | .restart _ => False

instance : ∀ action : Action Proof Body, Decidable action.Internal
  | .request _ _ | .recv | .task _ _ | .exit => inferInstanceAs (Decidable True)
  | .receive _ | .shutdown | .crash _ | .restart _ => inferInstanceAs (Decidable False)

/-- A step of the process by itself whose operation works, and whose failure is one that is
finalized. -/
def Unhindered (deps : Dependencies Proof Encoded Body) (s : State Proof Encoded Body) (action : Action Proof Body) : Prop :=
  action.Internal ∧ Undisturbed action ∧ Finalizes deps s action

instance (deps : Dependencies Proof Encoded Body) (s : State Proof Encoded Body) (action : Action Proof Body) :
    Decidable (Unhindered deps s action) := inferInstanceAs (Decidable (_ ∧ _))

def Config.UsableStrategy (deps : Dependencies Proof Encoded Body) (config : Config) : Prop :=
  (config.sp1FulfillmentStrategy.map deps.isStrategyName).getD false = true

def Process.steps : Process → Nat
  | .running => 2
  | .stopping => 1
  | .stopped => 0

def Call.steps : Call Proof → Nat
  | .readFinished => 4
  | .readQueue => 3
  | .retryTransaction _ _ | .insert _ => 2
  | .retrySend _ | .send => 1

def Call.writes (call : Call Proof) : Nat := if call.sends then 0 else 1

namespace RequestThread

/-! What a request can still do for its current blob and the ones after it. -/

def steps (thread : RequestThread Proof Body) : Nat := thread.call.steps + 4 * thread.submission.rest.length

def sends (thread : RequestThread Proof Body) : Nat := 1 + thread.submission.rest.length

def writes (thread : RequestThread Proof Body) : Nat := thread.call.writes + thread.submission.rest.length

end RequestThread

section
variable (deps : Dependencies Proof Encoded Body) (runner : PdaRunner Encoded)

/-- The steps that follow for a job once a task reads its status. One that is still to be
requested from the network is sent back and read a second time. -/
def PdaRunner.jobSteps (job : Job) : Nat :=
  match (runner.queueDb.lookup (deps.jobKey job)).map deps.statusCodec.deserialize with
  | some (.ok .remoteZkProofRequesting) => 8
  | _ => 3

def PdaRunner.messageSteps : Option Job → Nat
  | some job => 1 + runner.jobSteps deps job
  | none => 1

def ProveTask.steps (task : ProveTask Proof) : Nat :=
  match task.stage with
  | .readQueue => runner.jobSteps deps task.job
  | .remoteRequesting => 7
  | .updateStatus _ => 6
  | .sendBack => 2 + runner.jobSteps deps task.job
  | .remotePending _ | .localPending => 2
  | .finalize _ => 1

def State.budget (s : State Proof Encoded Body) : Budget where
  own := s.process.steps + (s.requests.map RequestThread.steps).sum + 9 * (s.requests.map RequestThread.sends).sum
  writes := (s.requests.map RequestThread.writes).sum
  tokens := s.runner.channel.length + s.tasks.length + (s.requests.map RequestThread.sends).sum
  weight := (s.runner.channel.map (s.runner.messageSteps deps)).sum + (s.tasks.map (ProveTask.steps deps s.runner)).sum

/-- A bound on the steps that the process can take by itself. -/
def State.potential (s : State Proof Encoded Body) : Nat := (s.budget deps).potential 5

/-- A job is only sent back by a task whose request the network has taken. -/
def updatesPending : Assertions Proof Encoded Body where
  shared _ _ _ := True
  request _ _ _ := True
  task _ _ stage := ∀ status, stage = .updateStatus status → ∃ requestId, status = .remoteZkProofPending requestId
  message _ _ := True
  served _ _ _ := True

end

variable {deps : Dependencies Proof Encoded Body}

theorem TaskStep.updates {config : Config} {job : Job} {runner after : PdaRunner Encoded} {stage : Stage Proof}
    {answer : Answer Proof} {progress : Progress (Stage Proof) ProveResult} {status : JobStatus Proof}
    (moved : TaskStep deps config job runner stage answer after progress)
    (updates : progress = .next (.updateStatus status)) : ∃ requestId, status = .remoteZkProofPending requestId := by
  cases moved with
  | lost _ _ _ _ ended => exact absurd updates (ended _)
  | started data found stored read => cases found <;> cases updates
  | requested nonce requestId usable =>
    cases updates
    exact ⟨requestId,rfl⟩
  | _ => cases updates

theorem updatesPending_stable :
    (updatesPending : Assertions Proof Encoded Body).Stable deps (fun _ _ => True) (fun _ => True) where
  shared_grows _ _ _ _ := trivial
  request_grows _ _ _ := trivial
  task_grows _ _ pending := pending
  message_grows _ _ _ := trivial
  served_grows _ _ := trivial
  request_message _ := trivial
  task_message _ := trivial
  message_task _ := fun _ same => by cases same
  receive _ _ _ := ⟨fun _ _ => trivial,fun _ _ => trivial⟩
  call _ _ _ _ _ _ := ⟨trivial,trivial⟩
  answer _ _ _ _ _ _ := ⟨trivial,fun _ _ => trivial,fun _ _ => trivial⟩
  work _ _ _ _ _ moved := ⟨trivial,fun _ same _ updates => moved.updates (same.trans (congrArg _ updates))⟩
  restart _ _ _ _ _ := ⟨trivial,fun _ _ => trivial⟩

theorem updatesPending_reaches {guard : State Proof Encoded Body → Action Proof Body → Prop} {config : Config}
    {s : State Proof Encoded Body} (run : Reaches (State.step deps) guard (State.initial config) s) :
    updatesPending.Holds s :=
  Assertions.holds_reaches updatesPending_stable (run.weaken fun _ _ _ => trivial) (fun _ _ => trivial) trivial

section
variable {runner after : PdaRunner Encoded} {extra : Nat}

theorem sum_steps_le {T : Type} {steps others : T → Nat} (pool : List T)
    (each : ∀ thread, others thread ≤ steps thread + extra) :
    (pool.map others).sum ≤ (pool.map steps).sum + extra * pool.length := by
  induction pool with
  | nil => simp
  | cons thread rest ih =>
    have first := each thread
    simp only [List.map_cons,List.sum_cons,List.length_cons,Nat.mul_add,Nat.mul_one]
    omega

theorem jobSteps_bounds (job : Job) : 3 ≤ runner.jobSteps deps job ∧ runner.jobSteps deps job ≤ 8 := by
  unfold PdaRunner.jobSteps
  split <;> decide

/-- What a change of the queue adds to each job it adds to each message and task. -/
theorem weight_le (each : ∀ job, after.jobSteps deps job ≤ runner.jobSteps deps job + extra)
    (channel : List (Option Job)) (tasks : List (ProveTask Proof)) :
    (channel.map (after.messageSteps deps)).sum + (tasks.map (ProveTask.steps deps after)).sum ≤
      (channel.map (runner.messageSteps deps)).sum + (tasks.map (ProveTask.steps deps runner)).sum +
        extra * (channel.length + tasks.length) := by
  have messages : ∀ message, after.messageSteps deps message ≤ runner.messageSteps deps message + extra := by
    intro message
    cases message with
    | none => exact Nat.le_add_right _ _
    | some job =>
      have := each job
      simp only [PdaRunner.messageSteps]
      omega
  have running : ∀ task, ProveTask.steps deps after task ≤ ProveTask.steps deps runner task + extra := by
    intro task
    have := each task.job
    unfold ProveTask.steps
    split <;> omega
  have waiting := sum_steps_le channel messages
  have started := sum_steps_le tasks running
  rw [Nat.mul_add]
  omega

theorem jobSteps_moveToFinished (key : Bytes) (status : JobStatus Proof) (job : Job) :
    (runner.moveToFinished deps key status).jobSteps deps job ≤ runner.jobSteps deps job := by
  by_cases same : deps.jobKey job = key
  · have erased : (runner.moveToFinished deps key status).jobSteps deps job = 3 := by
      subst same
      simp [PdaRunner.jobSteps,PdaRunner.moveToFinished]
    exact erased.trans_le (jobSteps_bounds job).1
  · have kept : (runner.moveToFinished deps key status).jobSteps deps job = runner.jobSteps deps job := by
      simp [PdaRunner.jobSteps,PdaRunner.moveToFinished,AList.lookup_erase_ne same]
    exact kept.le

theorem jobSteps_moveToQueue (key : Bytes) (requestId : SuccNetJobId) (job : Job) :
    (runner.moveToQueue deps key (.remoteZkProofPending requestId)).jobSteps deps job ≤ runner.jobSteps deps job := by
  by_cases same : deps.jobKey job = key
  · have pending : (runner.moveToQueue deps key (.remoteZkProofPending requestId)).jobSteps deps job = 3 := by
      subst same
      simp [PdaRunner.jobSteps,PdaRunner.moveToQueue,deps.statusCodec.round_trip]
    exact pending.trans_le (jobSteps_bounds job).1
  · have kept : (runner.moveToQueue deps key (.remoteZkProofPending requestId)).jobSteps deps job =
        runner.jobSteps deps job := by
      simp [PdaRunner.jobSteps,PdaRunner.moveToQueue,AList.lookup_insert_ne same]
    exact kept.le

theorem messageSteps_channel (channel : List (Option Job)) :
    { runner with channel }.messageSteps deps = runner.messageSteps deps := rfl

theorem taskSteps_channel (channel : List (Option Job)) :
    (ProveTask.steps deps { runner with channel } : ProveTask Proof → Nat) = ProveTask.steps deps runner := rfl

theorem jobSteps_set_back (job : Job) : after.jobSteps deps job ≤ runner.jobSteps deps job + 5 := by
  have := @jobSteps_bounds _ _ _ deps runner job
  have := @jobSteps_bounds _ _ _ deps after job
  omega

end

/-- The requests that are left of one whose call has returned: none, or the one with its next
blob. -/
theorem resumed_requests (deps : Dependencies Proof Encoded Body) (s : State Proof Encoded Body)
    (submission : Submission Body) (result : CallResult Proof) :
    ∃ next : List (RequestThread Proof Body),
      (s.deliver submission.origin (submission.resume deps result)).requests = s.requests ++ next ∧
      (next.map RequestThread.steps).sum ≤ 4 * submission.rest.length ∧
      (next.map RequestThread.sends).sum ≤ submission.rest.length ∧
      (next.map RequestThread.writes).sum ≤ submission.rest.length := by
  cases resumed : submission.resume deps result with
  | done served => exact ⟨[],by simp [State.deliver],by simp,by simp,by simp⟩
  | encrypt other =>
    have shorter := (resume_next resumed).1
    refine ⟨[⟨other,.readFinished⟩],rfl,?_⟩
    simp [RequestThread.steps,RequestThread.sends,RequestThread.writes,Call.steps,Call.writes,Call.sends,shorter]
    omega

section
variable {s t : State Proof Encoded Body}

/-- What a step of a request does to the runner, with the budget that pays for it. -/
inductive Paid (s t : State Proof Encoded Body) : Prop
  | read (same : t.runner = s.runner)
  | written (channel : t.runner.channel = s.runner.channel)
      (writes : (t.requests.map RequestThread.writes).sum < (s.requests.map RequestThread.writes).sum)
  | sent (job) (same : t.runner = s.runner.send (some job))
      (sends : (t.requests.map RequestThread.sends).sum < (s.requests.map RequestThread.sends).sum)

theorem request_lowers (process : t.process = s.process) (tasks : t.tasks = s.tasks)
    (steps : (t.requests.map RequestThread.steps).sum < (s.requests.map RequestThread.steps).sum)
    (sends : (t.requests.map RequestThread.sends).sum ≤ (s.requests.map RequestThread.sends).sum)
    (writes : (t.requests.map RequestThread.writes).sum ≤ (s.requests.map RequestThread.writes).sum)
    (paid : Paid s t) : t.potential deps < s.potential deps := by
  cases paid with
  | read same =>
    apply Budget.lt_of_advanced
    all_goals simp only [State.budget,process,tasks,same]
    all_goals omega
  | written channel fewer =>
    have each (job : Job) : t.runner.jobSteps deps job ≤ s.runner.jobSteps deps job + 5 := jobSteps_set_back job
    have setBack := weight_le each s.runner.channel s.tasks
    apply Budget.lt_of_written
    all_goals simp only [State.budget,process,tasks,channel]
    all_goals omega
  | sent job same fewer =>
    have bound := (@jobSteps_bounds _ _ _ deps s.runner job).2
    apply Budget.lt_of_advanced
    all_goals simp only [State.budget,process,tasks,same,PdaRunner.send,messageSteps_channel,taskSteps_channel,
      List.length_append,List.length_singleton,List.map_append,List.sum_append,List.map_singleton,List.sum_singleton,
      PdaRunner.messageSteps]
    all_goals omega

theorem callNext_lowers {fault : Fault} {before after : List (RequestThread Proof Body)}
    {thread : RequestThread Proof Body} {runner : PdaRunner Encoded} {call : Call Proof}
    (pool : s.requests = before ++ thread :: after)
    (moved : CallStep deps s.config (thread.submission.job deps) fault s.runner thread.call runner (.next call)) :
    State.potential deps { s with runner, requests := before ++ { thread with call } :: after } < s.potential deps := by
  obtain ⟨submission,current⟩ := thread
  have steps : call.steps < current.steps := by cases moved <;> simp [Call.steps]
  have writes : call.writes ≤ current.writes := by cases moved <;> simp [Call.writes,Call.sends]
  refine request_lowers rfl rfl ?_ ?_ ?_ ?_
  · simp only [pool,List.map_append,List.map_cons,List.sum_append,List.sum_cons,RequestThread.steps]
    omega
  · simp only [pool,List.map_append,List.map_cons,List.sum_append,List.sum_cons,RequestThread.sends,le_refl]
  · simp only [pool,List.map_append,List.map_cons,List.sum_append,List.sum_cons,RequestThread.writes]
    omega
  · cases moved with
    | retryable | unfinished | unqueued => exact .read rfl
    | retried | inserted =>
      refine .written rfl ?_
      simp [pool,RequestThread.writes,Call.writes,Call.sends]

theorem callReturned_lowers {fault : Fault} {before after : List (RequestThread Proof Body)}
    {thread : RequestThread Proof Body} {runner : PdaRunner Encoded} {result : CallResult Proof}
    (answered : List (Answered Proof)) (pool : s.requests = before ++ thread :: after)
    (moved : CallStep deps s.config (thread.submission.job deps) fault s.runner thread.call runner (.returned result)) :
    State.potential deps (State.deliver { s with runner, requests := before ++ after, answered } thread.submission.origin
      (thread.submission.resume deps result)) < s.potential deps := by
  obtain ⟨submission,call⟩ := thread
  obtain ⟨next,left,steps,sends,writes⟩ := resumed_requests deps
    { s with runner, requests := before ++ after, answered } submission result
  have some : 0 < call.steps := by cases call <;> simp [Call.steps]
  have fewer : (next.map RequestThread.sends).sum < 1 + submission.rest.length := by omega
  refine request_lowers (by simp) (by simp) ?_ ?_ ?_ ?_
  · simp only [left,pool,List.map_append,List.map_cons,List.sum_append,List.sum_cons,RequestThread.steps]
    omega
  · simp only [left,pool,List.map_append,List.map_cons,List.sum_append,List.sum_cons,RequestThread.sends]
    omega
  · simp only [left,pool,List.map_append,List.map_cons,List.sum_append,List.sum_cons,RequestThread.writes]
    omega
  · cases moved with
    | resent | sent =>
      refine .sent _ (State.deliver_runner _ _ _) ?_
      simp only [left,pool,List.map_append,List.map_cons,List.sum_append,List.sum_cons,RequestThread.sends]
      omega
    | _ => exact .read (State.deliver_runner _ _ _)

/-- A step of a task takes nothing back from the others, and leaves at most one of itself and
its message. -/
theorem task_lowers (left : List (ProveTask Proof)) (sent : List (Option Job)) {before after : List (ProveTask Proof)}
    {task : ProveTask Proof} (process : t.process = s.process) (requests : t.requests = s.requests)
    (each : ∀ job, t.runner.jobSteps deps job ≤ s.runner.jobSteps deps job)
    (pool : s.tasks = before ++ task :: after) (tasks : t.tasks = before ++ left ++ after)
    (channel : t.runner.channel = s.runner.channel ++ sent) (tokens : sent.length + left.length ≤ 1)
    (steps : (sent.map (t.runner.messageSteps deps)).sum + (left.map (ProveTask.steps deps t.runner)).sum <
      task.steps deps s.runner) : t.potential deps < s.potential deps := by
  have none (job : Job) : t.runner.jobSteps deps job ≤ s.runner.jobSteps deps job + 0 := each job
  have kept := weight_le none s.runner.channel (before ++ after)
  simp only [List.map_append,List.sum_append] at kept
  apply Budget.lt_of_advanced
  all_goals simp only [State.budget,process,requests,pool,tasks,channel,List.map_append,List.map_cons,List.sum_append,
    List.sum_cons,List.length_append,List.length_cons]
  all_goals omega

theorem started_steps {job : Job} {data : Encoded} {status : JobStatus Proof} {stage : Stage Proof}
    (stored : s.runner.queueDb.lookup (deps.jobKey job) = some data)
    (read : deps.statusCodec.deserialize data = .ok status) (starts : startingStage status = .next stage) :
    ProveTask.steps deps s.runner ⟨job,stage⟩ < s.runner.jobSteps deps job := by
  have bound := (@jobSteps_bounds _ _ _ deps s.runner job).1
  cases status with
  | remoteZkProofRequesting =>
    cases starts
    simp [ProveTask.steps,PdaRunner.jobSteps,stored,read]
  | localZkProofPending | remoteZkProofPending =>
    cases starts
    exact bound
  | zkProofFinished | failed => cases starts

theorem taskNext_lowers {before after : List (ProveTask Proof)} {task : ProveTask Proof} {stage : Stage Proof}
    {answer : Answer Proof} {runner : PdaRunner Encoded} (network : Network) (pool : s.tasks = before ++ task :: after)
    (pending : ∀ status, task.stage = .updateStatus status → ∃ requestId, status = .remoteZkProofPending requestId)
    (moved : TaskStep deps s.config task.job s.runner task.stage answer runner (.next stage)) :
    State.potential deps { s with runner, network, tasks := before ++ { task with stage } :: after } < s.potential deps := by
  obtain ⟨job,current⟩ := task
  have lowers (each : ∀ job, runner.jobSteps deps job ≤ s.runner.jobSteps deps job)
      (channel : runner.channel = s.runner.channel)
      (steps : ProveTask.steps deps runner ⟨job,stage⟩ < ProveTask.steps deps s.runner ⟨job,current⟩) :
      State.potential deps { s with runner, network, tasks := before ++ ⟨job,stage⟩ :: after } < s.potential deps := by
    refine task_lowers [⟨job,stage⟩] [] rfl rfl each pool ?_ ?_ ?_ ?_
    all_goals simp [channel,steps]
  generalize progressed : Progress.next stage = progress at moved
  cases moved with
  | lost _ _ _ _ ended => exact absurd progressed.symm (ended stage)
  | started data status stored read => exact lowers (fun _ => le_rfl) rfl (started_steps stored read progressed.symm)
  | updated status =>
    obtain ⟨requestId,rfl⟩ := pending status rfl
    cases progressed
    refine lowers (jobSteps_moveToQueue _ _) rfl ?_
    have waits : (s.runner.moveToQueue deps (deps.jobKey job) (.remoteZkProofPending requestId : JobStatus Proof)).jobSteps
        deps job = 3 := by
      simp [PdaRunner.jobSteps,PdaRunner.moveToQueue,deps.statusCodec.round_trip]
    simp [ProveTask.steps,waits]
  | refusedLocal | refusedRemote | refusedWait | proved | requested | waited =>
    cases progressed
    exact lowers (fun _ => le_rfl) rfl (by simp [ProveTask.steps])
  | unqueued | unreadable | finalized | sentBack => cases progressed

theorem taskEnded_lowers {before after : List (ProveTask Proof)} {task : ProveTask Proof} {answer : Answer Proof}
    {runner : PdaRunner Encoded} {progress : Progress (Stage Proof) ProveResult} (network : Network)
    (pool : s.tasks = before ++ task :: after)
    (moved : TaskStep deps s.config task.job s.runner task.stage answer runner progress)
    (ended : ∀ next, progress ≠ .next next) :
    State.potential deps { s with runner, network, tasks := before ++ after } < s.potential deps := by
  obtain ⟨job,current⟩ := task
  have lowers (sent : List (Option Job)) (each : ∀ job, runner.jobSteps deps job ≤ s.runner.jobSteps deps job)
      (channel : runner.channel = s.runner.channel ++ sent) (tokens : sent.length ≤ 1)
      (steps : (sent.map (runner.messageSteps deps)).sum < ProveTask.steps deps s.runner ⟨job,current⟩) :
      State.potential deps { s with runner, network, tasks := before ++ after } < s.potential deps := by
    refine task_lowers [] sent rfl rfl each pool ?_ channel ?_ ?_
    all_goals simp [tokens,steps]
  have some : 0 < ProveTask.steps deps s.runner ⟨job,current⟩ := by
    have := (@jobSteps_bounds _ _ _ deps s.runner job).1
    cases current <;> simp only [ProveTask.steps] <;> omega
  cases moved with
  | lost | unqueued | unreadable | started => exact lowers [] (fun _ => le_rfl) (by simp) (by simp) some
  | finalized status => exact lowers [] (jobSteps_moveToFinished _ _) (by simp [PdaRunner.moveToFinished]) (by simp) some
  | sentBack =>
    refine lowers [.some job] (fun _ => le_rfl) rfl (by simp) ?_
    simp [ProveTask.steps,PdaRunner.send,messageSteps_channel,PdaRunner.messageSteps]
  | _ => exact absurd rfl (ended _)

end

theorem service_lowers :
    Lowers (State.step deps) (fun _ action => action.Internal) (updatesPending : Assertions Proof Encoded Body).Holds
      (State.potential deps) := by
  intro s action t holds internal stepped
  refine ⟨Assertions.holds_step updatesPending_stable trivial holds trivial stepped,?_⟩
  cases step_cases stepped with
  | receive | shutdown | crash | restarted | restartPanicked => exact internal.elim
  | callNext i fault before thread after runner call found pool moved => exact callNext_lowers pool moved
  | callReturned i fault before thread after runner result found pool moved => exact callReturned_lowers _ pool moved
  | callPanicked i fault before thread after found pool reading =>
    refine request_lowers rfl rfl ?_ ?_ ?_ (.read rfl)
    all_goals
      simp only [pool,List.map_append,List.map_cons,List.sum_append,List.sum_cons,RequestThread.steps,
        RequestThread.sends,reading,Call.steps]
      omega
  | taskNext i answer before task after runner stage found pool moved =>
    exact taskNext_lowers _ pool (holds.task task (by simp [pool])) moved
  | taskEnded i answer before task after runner progress found pool ended moved =>
    exact taskEnded_lowers _ pool moved ended
  | received job rest up sent =>
    apply Budget.lt_of_advanced
    all_goals
      simp only [State.budget,sent,messageSteps_channel,taskSteps_channel,List.map_append,List.map_cons,List.map_nil,
        List.sum_append,List.sum_cons,List.sum_nil,List.length_append,List.length_cons,List.length_nil,
        PdaRunner.messageSteps,ProveTask.steps]
      omega
  | stopReceived rest up sent =>
    apply Budget.lt_of_advanced
    all_goals
      simp only [State.budget,sent,up,Process.steps,messageSteps_channel,taskSteps_channel,List.map_cons,List.sum_cons,
        List.length_cons,PdaRunner.messageSteps]
      omega
  | exit ending =>
    apply Budget.lt_of_advanced
    all_goals
      simp only [State.budget,State.stop,ending,Process.steps,List.map_nil,List.sum_nil,List.length_nil]
      omega

section
variable {s t : State Proof Encoded Body} {guard : State Proof Encoded Body → Action Proof Body → Prop}

theorem rest_requests (rested : AtRest (State.step deps) guard s) (allowed : ∀ i, guard s (.request i none)) :
    s.requests = [] := by
  cases waiting : s.requests with
  | nil => rfl
  | cons thread rest =>
    have stuck := rested _ (allowed 0)
    simp [State.step,waiting] at stuck

theorem rest_channel (rested : AtRest (State.step deps) guard s) (allowed : guard s .recv) (up : s.process = .running) :
    s.runner.channel = [] := by
  cases sent : s.runner.channel with
  | nil => rfl
  | cons message rest =>
    have stuck := rested _ allowed
    cases message <;> simp [State.step,State.workerStep,up,sent] at stuck

theorem rest_tasks (rested : AtRest (State.step deps) guard s)
    (answers : ∀ task ∈ s.tasks, ∃ answer, guard s (.task 0 answer) ∧
      prove deps s.config task.job answer s.runner task.stage ≠ none) : s.tasks = [] := by
  cases running : s.tasks with
  | nil => rfl
  | cons task rest =>
    obtain ⟨answer,allowed,moves⟩ := answers task (by simp [running])
    obtain ⟨moved,made⟩ := Option.ne_none_iff_exists'.mp moves
    have stuck := rested _ allowed
    simp only [State.step,running,List.getElem?_cons_zero,Option.bind_some,State.taskStep,made] at stuck
    split at stuck <;> cases stuck

theorem rest_internal (rested : AtRest (State.step deps) (fun _ action => action.Internal) s) :
    s.requests = [] ∧ s.tasks = [] ∧ s.process ≠ .stopping ∧ (s.process = .running → s.runner.channel = []) := by
  refine ⟨rest_requests rested fun _ => trivial,rest_tasks rested ?_,?_,rest_channel rested trivial⟩
  · intro task _
    cases task.stage with
    | readQueue | finalize | updateStatus | sendBack => exact ⟨.storage (some ""),trivial,by simp [prove]⟩
    | remoteRequesting | remotePending | localPending =>
      exact ⟨.panics,trivial,by simp [prove,zkProofRemote,waitForZkProof,zkProofLocal]⟩
  · intro ending
    have stuck := rested .exit trivial
    simp [State.step,ending] at stuck

/-- However calls, the worker and its tasks interleave, and whatever storage and provers answer
them, the process takes no more steps by itself than its potential, and a run that cannot go on
has neither a request nor a task nor a message left. -/
theorem quiesces (config : Config) (s : State Proof Encoded Body)
    (run : Reaches (State.step deps) Free (State.initial config) s) :
    (∀ actions, Executes (State.step deps) (fun _ action => action.Internal) s actions →
      actions.length ≤ s.potential deps) ∧
    (∃ t, Reaches (State.step deps) (fun _ action => action.Internal) s t ∧
      AtRest (State.step deps) (fun _ action => action.Internal) t) ∧
    ∀ t, Reaches (State.step deps) (fun _ action => action.Internal) s t →
      AtRest (State.step deps) (fun _ action => action.Internal) t →
      t.requests = [] ∧ t.tasks = [] ∧ t.process ≠ .stopping ∧ (t.process = .running → t.runner.channel = []) := by
  have holds := updatesPending_reaches run
  exact ⟨fun _ executes => bounded service_lowers holds executes,comes_to_rest service_lowers s holds,
    fun _ _ rested => rest_internal rested⟩

set_option maxRecDepth 2048 in
/-- A client's job that has just been sent takes the process six more steps at most. -/
theorem quiesces_plain :
    let s := Tabulated.run Tabulated.localConfig (Tabulated.submitPlain 0)
    (∀ actions, Executes (State.step Tabulated.dependencies) (fun _ action => action.Internal) s actions →
        actions.length ≤ 6) ∧
      ∃ t, Reaches (State.step Tabulated.dependencies) (fun _ action => action.Internal) s t ∧
        t.requests = [] ∧ t.tasks = [] := by
  obtain ⟨bounded,⟨t,run,rested⟩,finished⟩ := quiesces Tabulated.localConfig _
    (Tabulated.run_reaches _ (Tabulated.submitPlain 0) (by decide +kernel))
  obtain ⟨noRequests,noTasks,_⟩ := finished t run rested
  have six : (Tabulated.run Tabulated.localConfig (Tabulated.submitPlain 0)).potential Tabulated.dependencies = 6 := by
    rw [Tabulated.run_eq]
    decide +kernel
  exact ⟨fun actions executes => six ▸ bounded actions executes,t,run,noRequests,noTasks⟩

/-- Every stage of a task has an answer that is handled, if the network can be asked at all. -/
theorem handled_answer (usable : s.config.UsableStrategy deps) (job : Job) (stage : Stage Proof) :
    ∃ answer, Unhindered deps s (.task 0 answer : Action Proof Body) ∧
      prove deps s.config job answer s.runner stage ≠ none := by
  have nonce : Block NONCE_LEN := ⟨List.replicate NONCE_LEN 0,List.length_replicate⟩
  cases stage with
  | readQueue =>
    refine ⟨.storage none,⟨trivial,rfl,rfl⟩,?_⟩
    simp only [prove]
    split
    next => simp
    next => split <;> simp
  | finalize | updateStatus | sendBack => exact ⟨.storage none,⟨trivial,rfl,rfl⟩,by simp [prove]⟩
  | localPending =>
    exact ⟨.proved nonce (.error (.network .simulationFailed)),⟨trivial,trivial,rfl⟩,by simp [prove,zkProofLocal]⟩
  | remotePending =>
    exact ⟨.waited (.error (.network .simulationFailed)),⟨trivial,trivial,rfl⟩,by simp [prove,waitForZkProof]⟩
  | remoteRequesting =>
    refine ⟨.requested nonce (.error (.network .simulationFailed)),⟨trivial,trivial,usable,rfl⟩,?_⟩
    unfold Config.UsableStrategy at usable
    cases strategy : s.config.sp1FulfillmentStrategy with
    | none => simp [strategy] at usable
    | some name => simp [prove,zkProofRemote,strategy,show deps.isStrategyName name = true by simpa [strategy] using usable]

/-- The process runs under one configuration and has not been told to stop. -/
structure Uninterrupted (config : Config) (s : State Proof Encoded Body) : Prop where
  config : s.config = config
  running : s.process = .running
  jobs : none ∉ s.runner.channel

theorem CallStep.jobs {config : Config} {job : Job} {fault : Fault} {runner after : PdaRunner Encoded}
    {call : Call Proof} {progress : Progress (Call Proof) (CallResult Proof)}
    (moved : CallStep deps config job fault runner call after progress) (jobs : none ∉ runner.channel) :
    none ∉ after.channel := by
  cases moved with
  | resent | sent => simpa [PdaRunner.send] using jobs
  | _ => exact jobs

theorem TaskStep.jobs {config : Config} {job : Job} {runner after : PdaRunner Encoded} {stage : Stage Proof}
    {answer : Answer Proof} {progress : Progress (Stage Proof) ProveResult}
    (moved : TaskStep deps config job runner stage answer after progress) (jobs : none ∉ runner.channel) :
    none ∉ after.channel := by
  cases moved with
  | sentBack => simpa [PdaRunner.send] using jobs
  | _ => exact jobs

theorem uninterrupted_step {config : Config} {action : Action Proof Body} (uninterrupted : Uninterrupted config s)
    (allowed : Undisturbed action) (stepped : s.step deps action = some t) : Uninterrupted config t := by
  obtain ⟨same,running,jobs⟩ := uninterrupted
  cases step_cases stepped with
  | shutdown | exit | crash | restarted | restartPanicked => exact allowed.elim
  | receive => exact ⟨by simpa using same,by simpa using running,by simpa using jobs⟩
  | callReturned _ _ _ _ _ _ _ _ _ moved =>
    exact ⟨by simpa using same,by simpa using running,by simpa using moved.jobs jobs⟩
  | callNext _ _ _ _ _ _ _ _ _ moved => exact ⟨same,running,moved.jobs jobs⟩
  | callPanicked => exact ⟨same,running,jobs⟩
  | taskNext _ _ _ _ _ _ _ _ _ moved => exact ⟨same,running,moved.jobs jobs⟩
  | taskEnded _ _ _ _ _ _ _ _ _ _ moved => exact ⟨same,running,moved.jobs jobs⟩
  | received job rest _ sent => exact ⟨same,running,fun stop => jobs (sent ▸ List.mem_cons_of_mem _ stop)⟩
  | stopReceived rest _ sent => exact absurd (sent ▸ List.mem_cons_self) jobs

theorem uninterrupted_reaches {config : Config} (run : Reaches (State.step deps) (fun _ action => Undisturbed action)
    (State.initial config) s) : Uninterrupted config s :=
  run.invariant (fun _ _ _ kept allowed stepped => uninterrupted_step kept allowed stepped)
    ⟨rfl,rfl,by simp [State.initial,PdaRunner.empty]⟩

/-- A process that can go on by itself no further, though nothing hinders it, has nothing to do. -/
theorem rest_idle {config : Config} (uninterrupted : Uninterrupted config s) (usable : config.UsableStrategy deps)
    (rested : AtRest (State.step deps) (Unhindered deps) s) : s.requests = [] ∧ s.tasks = [] ∧ s.runner.channel = [] :=
  ⟨rest_requests rested fun _ => ⟨trivial,rfl,trivial⟩,
    rest_tasks rested fun task _ => handled_answer (uninterrupted.config ▸ usable) task.job task.stage,
    rest_channel rested ⟨trivial,trivial,trivial⟩ uninterrupted.running⟩

theorem recorded_reaches (run : Reaches (State.step deps) (fun _ action => Undisturbed action) s t) {key : Bytes}
    (recorded : s.runner.Records key) : t.runner.Records key :=
  run.invariant (fun _ _ _ kept undisturbed stepped => records_step undisturbed.lossless stepped kept) recorded

/-- Nothing is queued that nobody works on, so nothing is left of a queue when nobody works. -/
theorem queue_empty {config : Config}
    (run : Reaches (State.step deps) (fun u action => Undisturbed action ∧ Finalizes deps u action) (State.initial config) s)
    (noRequests : s.requests = []) (noTasks : s.tasks = []) (noMessages : s.runner.channel = [])
    (key : Bytes) : key ∉ s.runner.queueDb := by
  intro queued
  cases attended_iff.mpr (ledger_attended run key queued) with
  | waiting job sent => simp [noMessages] at sent
  | running task member => simp [noTasks] at member
  | sending thread member => simp [noRequests] at member

/-- Where storage works and every failure is one that is finalized, each schedule finishes every
job after a bounded number of steps: a run that cannot go on has an empty queue, and every job
that was ever recorded has a result. -/
theorem jobs_complete (config : Config) (usable : config.UsableStrategy deps) (s : State Proof Encoded Body)
    (run : Reaches (State.step deps) (fun u action => Undisturbed action ∧ Finalizes deps u action)
      (State.initial config) s) :
    (∀ actions, Executes (State.step deps) (Unhindered deps) s actions → actions.length ≤ s.potential deps) ∧
    (∃ t, Reaches (State.step deps) (Unhindered deps) s t ∧ AtRest (State.step deps) (Unhindered deps) t) ∧
    ∀ t, Reaches (State.step deps) (Unhindered deps) s t → AtRest (State.step deps) (Unhindered deps) t →
      t.requests = [] ∧ (∀ key, key ∉ t.runner.queueDb) ∧
      ∀ key, s.runner.Records key → key ∈ t.runner.finishedDb := by
  have holds := updatesPending_reaches run
  have lowers : Lowers (State.step deps) (Unhindered deps) updatesPending.Holds (State.potential deps) :=
    service_lowers.weaken fun _ _ allowed => allowed.1
  refine ⟨fun _ executes => bounded lowers holds executes,comes_to_rest lowers s holds,?_⟩
  intro t later rested
  have whole : Reaches (State.step deps) (fun u action => Undisturbed action ∧ Finalizes deps u action)
      (State.initial config) t := run.trans (later.weaken fun _ _ allowed => allowed.2)
  have uninterrupted := uninterrupted_reaches (whole.weaken fun _ _ allowed => allowed.1)
  obtain ⟨noRequests,noTasks,noMessages⟩ := rest_idle uninterrupted usable rested
  have empty := queue_empty whole noRequests noTasks noMessages
  refine ⟨noRequests,empty,fun key recorded => ?_⟩
  exact (recorded_reaches (later.weaken fun _ _ allowed => allowed.2.1) recorded).resolve_left (empty key)

end

set_option maxRecDepth 2048 in
/-- A job that is to be proved by the network has a result after eleven more steps at most. -/
theorem jobs_complete_plain :
    let s := Tabulated.run Tabulated.networkConfig (Tabulated.submitPlain 0)
    (∀ actions, Executes (State.step Tabulated.dependencies) (Unhindered Tabulated.dependencies) s actions →
        actions.length ≤ 11) ∧
      ∃ t, Reaches (State.step Tabulated.dependencies) (Unhindered Tabulated.dependencies) s t ∧
        Tabulated.plainKey ∈ t.runner.finishedDb := by
  obtain ⟨bounded,⟨t,run,rested⟩,finished⟩ := jobs_complete Tabulated.networkConfig (by unfold Config.UsableStrategy; decide)
    _ (Tabulated.run_reaches _ (Tabulated.submitPlain 0) (by decide +kernel))
  have eleven : (Tabulated.run Tabulated.networkConfig (Tabulated.submitPlain 0)).potential Tabulated.dependencies = 11 := by
    rw [Tabulated.run_eq]
    decide +kernel
  refine ⟨fun actions executes => eleven ▸ bounded actions executes,t,run,(finished t run rested).2.2 _ ?_⟩
  rw [Tabulated.run_eq]
  exact .inl (by decide +kernel)

end PdaProxy
