import PdaProxy.Machine
import PdaProxy.Semantics.Noninterference
import PdaProxy.Semantics.Pool
import PdaProxy.Semantics.Tracking

/-! Where a plaintext goes. The job machinery is run twice and side by side, with the same
anchors, schedule and prover outcomes and other inputs of jobs. The two runs store, return and
log the same just as long as no task that has not the same job in both formats its job. -/
namespace PdaProxy
open PdaProxy.Semantics.Serialization PdaProxy.Semantics.Transition PdaProxy.Semantics.Pool
open PdaProxy.Semantics.Tracking PdaProxy.Semantics.Noninterference

variable {Proof Encoded Body : Type}

/-- What an observer of the database, of the clients' errors and of the log sees. -/
structure Machine.Observed (m n : Machine Proof Encoded) : Prop where
  queueDb : m.runner.queueDb = n.runner.queueDb
  finishedDb : m.runner.finishedDb = n.runner.finishedDb
  returned : m.returned = n.returned
  log : m.log = n.log

def Job.anonymous (job : Job) : Job := ⟨job.anchor,⟨[]⟩⟩

/-- An action without the input of the job that a call is for. -/
def MachineAction.anonymous : MachineAction Proof → MachineAction Proof
  | .call job => .call job.anonymous
  | action => action

/-- The points of a task that format its job: a failure is finalized, a proving function
returns any other error, or the wait for a remote proof succeeds. -/
def formats (deps : Dependencies Proof Encoded Body) (config : Config) : Stage Proof → Answer Proof → Bool
  | .finalize (.failed _ _),.storage _ | .localPending,.setupFailed _ | .remoteRequesting,.setupFailed _
  | .localPending,.proved _ (.error (.unhandled _)) | .remotePending _,.waited (.error (.unhandled _))
  | .remotePending _,.waited (.ok _) => true
  | .remoteRequesting,.requested _ result =>
    match config.sp1FulfillmentStrategy,result with
    | none,_ => false
    | some _,.error (.unhandled _) => true
    | some name,_ => !deps.isStrategyName name
  | _,_ => false

/-- A task that has not the same job in both runs formats it. -/
def leaks (deps : Dependencies Proof Encoded Body) (pair : Machine Proof Encoded × Machine Proof Encoded)
    (actions : MachineAction Proof × MachineAction Proof) : Bool :=
  match actions.1 with
  | .task i answer _ =>
    match pair.1.tasks[i]?,pair.2.tasks[i]? with
    | some task,some other => decide (task.job ≠ other.job) && formats deps pair.1.config task.stage answer
    | _,_ => false
  | _ => false

def PdaRunner.anonymous (runner : PdaRunner Encoded) : PdaRunner Encoded :=
  { runner with channel := runner.channel.map (Option.map Job.anonymous) }

variable {deps : Dependencies Proof Encoded Body}

section
variable {job other : Job} {runner : PdaRunner Encoded}

@[simp] theorem jobKey_anonymous (job : Job) : deps.jobKey job.anonymous = deps.jobKey job := rfl

@[simp] theorem keyed_anonymous (job : Job) (text : String) : keyed deps job.anonymous text = keyed deps job text := rfl

@[simp] theorem sendingBack_anonymous (job : Job) (status : JobStatus Proof) :
    sendingBack deps job.anonymous status = sendingBack deps job status := rfl

@[simp] theorem queueDb_anonymous : runner.anonymous.queueDb = runner.queueDb := rfl

@[simp] theorem finishedDb_anonymous : runner.anonymous.finishedDb = runner.finishedDb := rfl

@[simp] theorem moveToQueue_anonymous (key : Bytes) (status : JobStatus Proof) :
    (runner.moveToQueue deps key status).anonymous = runner.anonymous.moveToQueue deps key status := rfl

@[simp] theorem moveToFinished_anonymous (key : Bytes) (status : JobStatus Proof) :
    (runner.moveToFinished deps key status).anonymous = runner.anonymous.moveToFinished deps key status := rfl

@[simp] theorem send_anonymous (message : Option Job) :
    (runner.send message).anonymous = runner.anonymous.send (message.map Job.anonymous) := by
  simp [PdaRunner.anonymous,PdaRunner.send]

@[simp] theorem anonymous_anonymous : runner.anonymous.anonymous = runner.anonymous := by
  simp only [PdaRunner.anonymous,List.map_map]
  congr 1
  apply List.map_congr_left
  intro message _
  cases message <;> rfl

end

theorem getVerifiableEncryption_anonymous (config : Config) (job : Job) (fault : Fault) (runner : PdaRunner Encoded)
    (call : Call Proof) :
    getVerifiableEncryption deps config job.anonymous fault runner.anonymous call =
      ((getVerifiableEncryption deps config job fault runner call).1.anonymous,
        (getVerifiableEncryption deps config job fault runner call).2) := by
  cases fault with
  | some e => cases call <;> rfl
  | none =>
    cases call with
    | readFinished =>
      simp only [getVerifiableEncryption,jobKey_anonymous,finishedDb_anonymous]
      split
      next => rfl
      next => split <;> rfl
    | readQueue =>
      simp only [getVerifiableEncryption,jobKey_anonymous,queueDb_anonymous]
      split
      next => split <;> rfl
      next => split <;> rfl
    | retryTransaction | insert => rfl
    | retrySend | send => simp [getVerifiableEncryption]

theorem getVerifiableEncryptionLog_anonymous (config : Config) (job : Job) (fault : Fault)
    (runner : PdaRunner Encoded) (call : Call Proof) :
    getVerifiableEncryptionLog deps config job.anonymous fault runner.anonymous call =
      getVerifiableEncryptionLog deps config job fault runner call := by
  cases call <;> simp only [getVerifiableEncryptionLog,jobKey_anonymous,keyed_anonymous,sendingBack_anonymous,
    queueDb_anonymous,finishedDb_anonymous]

/-- A stage without the text of the failure that it finalizes. -/
def Stage.anonymous : Stage Proof → Stage Proof
  | .finalize (.failed _ retryStatus) => .finalize (.failed (.zkClientError "") retryStatus)
  | stage => stage

def Progress.anonymous {Result : Type} : Progress (Stage Proof) Result → Progress (Stage Proof) Result
  | .next stage => .next stage.anonymous
  | ended => ended

section
variable {config : Config} {job : Job} {answer : Answer Proof} {runner : PdaRunner Encoded} {stage : Stage Proof}

theorem proverFailed_anonymous (job other : Job) (error : ProverError) :
    (proverFailed deps job error).anonymous = (proverFailed deps other error).anonymous := by
  cases error with
  | network error => cases error <;> simp only [proverFailed,handleZkClientError,Progress.anonymous,Stage.anonymous]
  | unhandled message => rfl

theorem logError_anonymous (call : Progress (Stage Proof) PdaRunnerError) :
    (logError call).anonymous = logError call.anonymous := by
  cases call <;> rfl

theorem zkProofLocal_anonymous (job other : Job) (answer : Answer Proof) :
    (zkProofLocal deps job answer).map Progress.anonymous = (zkProofLocal deps other answer).map Progress.anonymous := by
  cases answer with
  | proved nonce result =>
    cases result with
    | error error => exact congrArg some (proverFailed_anonymous job other error)
    | ok proof => rfl
  | _ => rfl

theorem waitForZkProof_anonymous (job other : Job) (answer : Answer Proof) :
    (waitForZkProof deps job answer).map Progress.anonymous =
      (waitForZkProof deps other answer).map Progress.anonymous := by
  cases answer with
  | waited result =>
    cases result with
    | error error => exact congrArg some (proverFailed_anonymous job other error)
    | ok proof => rfl
  | _ => rfl

theorem zkProofRemote_anonymous (job other : Job) (answer : Answer Proof) :
    (zkProofRemote deps config job answer).map Progress.anonymous =
      (zkProofRemote deps config other answer).map Progress.anonymous := by
  cases answer with
  | requested nonce result =>
    simp only [zkProofRemote]
    split
    next => rfl
    next name =>
      split
      next =>
        cases result with
        | error error => exact congrArg some (proverFailed_anonymous job other error)
        | ok requestId => rfl
      next => rfl
  | _ => rfl

theorem prove_channel (config : Config) (job : Job) (answer : Answer Proof) (runner : PdaRunner Encoded)
    (stage : Stage Proof) :
    (prove deps config job answer runner.anonymous stage).map (fun outcome => (outcome.1.anonymous,outcome.2)) =
      (prove deps config job answer runner stage).map (fun outcome => (outcome.1.anonymous,outcome.2)) := by
  cases stage with
  | readQueue =>
    simp only [prove,queueDb_anonymous]
    split
    next => simp
    next =>
      split
      next => simp
      next => split <;> simp
    next => rfl
  | remoteRequesting | remotePending | localPending => simp [prove,Function.comp_def]
  | finalize | updateStatus | sendBack =>
    simp only [prove]
    split <;> simp

theorem proving_anonymous {first second : Option (Progress (Stage Proof) PdaRunnerError)} (runner : PdaRunner Encoded)
    (same : first.map Progress.anonymous = second.map Progress.anonymous) :
    (first.map (runner,logError ·)).map (fun outcome => (outcome.1.anonymous,outcome.2.anonymous)) =
      (second.map (runner,logError ·)).map (fun outcome => (outcome.1.anonymous,outcome.2.anonymous)) := by
  have mapped := congrArg (Option.map fun call => (runner.anonymous,logError call)) same
  simpa [Function.comp_def,logError_anonymous] using mapped

theorem prove_anonymous (quiet : formats deps config stage answer = false) :
    (prove deps config job.anonymous answer runner.anonymous stage.anonymous).map
        (fun outcome => (outcome.1.anonymous,outcome.2.anonymous)) =
      (prove deps config job answer runner stage).map (fun outcome => (outcome.1.anonymous,outcome.2.anonymous)) := by
  have channel := congrArg (Option.map fun outcome => (outcome.1,outcome.2.anonymous))
    (@prove_channel Proof Encoded Body deps config job.anonymous answer runner stage.anonymous)
  simp only [Option.map_map,Function.comp_def] at channel
  rw [channel]
  cases stage with
  | readQueue => rfl
  | localPending => exact proving_anonymous runner (zkProofLocal_anonymous _ _ answer)
  | remotePending requestId => exact proving_anonymous runner (waitForZkProof_anonymous _ _ answer)
  | remoteRequesting => exact proving_anonymous runner (zkProofRemote_anonymous _ _ answer)
  | finalize status =>
    cases status with
    | failed error retryStatus =>
      cases answer with
      | storage fault => cases quiet
      | _ => rfl
    | _ => rfl
  | updateStatus status => rfl
  | sendBack =>
    simp only [prove,Stage.anonymous]
    split
    next => rfl
    next => simp [Job.anonymous]
    next => rfl

theorem proveLog_channel (timeout : Nat) (arm : Stage Proof) (reports : Reports) :
    proveLog deps config timeout job arm answer reports runner.anonymous stage =
      proveLog deps config timeout job arm answer reports runner stage := by
  cases stage <;> simp only [proveLog,queueDb_anonymous]

theorem proveLog_arm (timeout : Nat) (arm : Stage Proof) (reports : Reports) :
    proveLog deps config timeout job arm.anonymous answer reports runner stage =
      proveLog deps config timeout job arm answer reports runner stage := by
  have same (fault : Fault) (status : JobStatus Proof) :
      finalizeLog deps job arm.anonymous fault status = finalizeLog deps job arm fault status := by
    cases arm with
    | finalize pending => cases pending <;> cases status <;> cases fault <;> rfl
    | _ => rfl
  cases stage <;> simp only [proveLog,same]

theorem formats_anonymous (config : Config) (stage : Stage Proof) (answer : Answer Proof) :
    formats deps config stage.anonymous answer = formats deps config stage answer := by
  cases stage with
  | finalize status => cases status <;> cases answer <;> rfl
  | _ => rfl

theorem failedCall_local (quiet : formats deps config .localPending answer = false) (arm : Stage Proof) :
    failedCall deps job arm (zkProofLocal deps job answer) = [] := by
  cases answer with
  | setupFailed error => cases quiet
  | proved nonce result =>
    cases result with
    | ok proof => rfl
    | error error =>
      cases error with
      | network error => rfl
      | unhandled message => cases quiet
  | _ => rfl

theorem failedCall_wait {requestId : SuccNetJobId}
    (quiet : formats deps config (.remotePending requestId) answer = false) (arm : Stage Proof) :
    failedCall deps job arm (waitForZkProof deps job answer) = [] := by
  cases answer with
  | waited result =>
    cases result with
    | ok proof => rfl
    | error error =>
      cases error with
      | network error => rfl
      | unhandled message => cases quiet
  | _ => rfl

theorem failedCall_remote (quiet : formats deps config .remoteRequesting answer = false) (arm : Stage Proof) :
    failedCall deps job arm (zkProofRemote deps config job answer) = [] := by
  cases answer with
  | setupFailed error => cases quiet
  | requested nonce result =>
    simp only [zkProofRemote]
    split
    next => rfl
    next name chosen =>
      cases result with
      | ok requestId =>
        simp only [formats,chosen,Bool.not_eq_false'] at quiet
        rw [if_pos quiet]
        rfl
      | error error =>
        cases error with
        | network error =>
          simp only [formats,chosen,Bool.not_eq_false'] at quiet
          rw [if_pos quiet]
          rfl
        | unhandled message => simp [formats,chosen] at quiet
  | _ => rfl

theorem proveLog_anonymous (quiet : formats deps config stage answer = false) (timeout : Nat) (arm : Stage Proof)
    (reports : Reports) :
    proveLog deps config timeout job.anonymous arm answer reports runner stage.anonymous =
      proveLog deps config timeout job arm answer reports runner stage := by
  cases stage with
  | readQueue => simp only [Stage.anonymous,proveLog,jobKey_anonymous]
  | localPending =>
    simp only [Stage.anonymous,proveLog,zkProofLocalLog,keyed_anonymous,failedCall_local quiet]
  | remotePending requestId =>
    simp only [Stage.anonymous,proveLog,waitForZkProofLog,failedCall_wait quiet]
    split
    next => rfl
    next => rfl
    next => cases quiet
    next => rfl
  | remoteRequesting =>
    simp only [Stage.anonymous,proveLog,zkProofRemoteLog,keyed_anonymous,failedCall_remote quiet]
  | finalize status =>
    cases status with
    | failed error retryStatus =>
      cases answer with
      | storage fault => cases quiet
      | _ => rfl
    | _ => simp only [Stage.anonymous,proveLog,finalizeLog,keyed_anonymous]
  | updateStatus status => simp only [Stage.anonymous,proveLog,sendingBack_anonymous]
  | sendBack => rfl

end

/-! Agreement of the two runs: all is the same but the inputs of jobs, and the texts of
failures that tasks of different jobs are about to finalize. -/

structure JobCall.Alike (thread other : JobCall Proof) : Prop where
  job : thread.job.anonymous = other.job.anonymous
  call : thread.call = other.call

structure ArmedTask.Alike (task other : ArmedTask Proof) : Prop where
  job : task.job.anonymous = other.job.anonymous
  arm : task.arm.anonymous = other.arm.anonymous
  stage : task.stage.anonymous = other.stage.anonymous
  same : task.job = other.job → task.stage = other.stage

structure Machine.Agree (m n : Machine Proof Encoded) : Prop where
  config : m.config = n.config
  timeout : m.timeout = n.timeout
  process : m.process = n.process
  runner : m.runner.anonymous = n.runner.anonymous
  calls : List.Forall₂ JobCall.Alike m.calls n.calls
  tasks : List.Forall₂ ArmedTask.Alike m.tasks n.tasks
  returned : m.returned = n.returned
  log : m.log = n.log

section
variable {m n after other : Machine Proof Encoded}

theorem Machine.Agree.queueDb (agree : m.Agree n) : m.runner.queueDb = n.runner.queueDb := by
  have same := congrArg PdaRunner.queueDb agree.runner
  exact same

theorem Machine.Agree.finishedDb (agree : m.Agree n) : m.runner.finishedDb = n.runner.finishedDb := by
  have same := congrArg PdaRunner.finishedDb agree.runner
  exact same

theorem Machine.Agree.unflushed (agree : m.Agree n) : m.runner.unflushed = n.runner.unflushed := by
  have same := congrArg PdaRunner.unflushed agree.runner
  exact same

theorem Machine.Agree.contents (agree : m.Agree n) : m.runner.contents = n.runner.contents := by
  simp only [PdaRunner.contents,agree.queueDb,agree.finishedDb,agree.unflushed]

theorem Machine.Agree.channel (agree : m.Agree n) :
    m.runner.channel.map (Option.map Job.anonymous) = n.runner.channel.map (Option.map Job.anonymous) :=
  congrArg PdaRunner.channel agree.runner

theorem Machine.Agree.observed (agree : m.Agree n) : m.Observed n :=
  ⟨agree.queueDb,agree.finishedDb,agree.returned,agree.log⟩

theorem Machine.Agree.stop (agree : m.Agree n) (found : SledTree Encoded × SledTree Encoded) :
    (m.stop found).Agree (n.stop found) where
  config := agree.config
  timeout := agree.timeout
  process := rfl
  runner := rfl
  calls := .nil
  tasks := .nil
  returned := agree.returned
  log := agree.log

theorem getVerifiableEncryption_alike (agree : m.Agree n) {thread twin : JobCall Proof} (alike : thread.Alike twin)
    (fault : Fault) :
    let outcome := getVerifiableEncryption deps m.config thread.job fault m.runner thread.call
    let twinned := getVerifiableEncryption deps n.config twin.job fault n.runner twin.call
    outcome.1.anonymous = twinned.1.anonymous ∧ outcome.2 = twinned.2 := by
  have outcome := @getVerifiableEncryption_anonymous Proof Encoded Body deps m.config thread.job fault m.runner thread.call
  have twinned := @getVerifiableEncryption_anonymous Proof Encoded Body deps n.config twin.job fault n.runner twin.call
  rw [alike.job,alike.call,agree.runner,agree.config,twinned] at outcome
  rw [agree.config,alike.call]
  exact Prod.mk.inj outcome.symm

theorem getVerifiableEncryptionLog_alike (agree : m.Agree n) {thread twin : JobCall Proof} (alike : thread.Alike twin)
    (fault : Fault) :
    getVerifiableEncryptionLog deps m.config thread.job fault m.runner thread.call =
      getVerifiableEncryptionLog deps n.config twin.job fault n.runner twin.call := by
  rw [← getVerifiableEncryptionLog_anonymous,alike.job,agree.runner,agree.config,alike.call,
    getVerifiableEncryptionLog_anonymous]

theorem Machine.Agree.call (agree : m.Agree n) (i : Nat) (fault : Fault) {thread twin : JobCall Proof}
    (alike : thread.Alike twin) : (m.callStep deps i thread fault).Agree (n.callStep deps i twin fault) := by
  obtain ⟨runners,progress⟩ := @getVerifiableEncryption_alike Proof Encoded Body deps m n agree thread twin alike fault
  have logs : m.log ++ getVerifiableEncryptionLog deps m.config thread.job fault m.runner thread.call =
      n.log ++ getVerifiableEncryptionLog deps n.config twin.job fault n.runner twin.call := by
    rw [agree.log,getVerifiableEncryptionLog_alike agree alike]
  unfold Machine.callStep
  generalize getVerifiableEncryption deps m.config thread.job fault m.runner thread.call = outcome at *
  generalize getVerifiableEncryption deps n.config twin.job fault n.runner twin.call = twinned at *
  obtain ⟨runner,ended⟩ := outcome
  obtain ⟨_,_⟩ := twinned
  obtain rfl := progress
  cases ended with
  | next call =>
    exact ⟨agree.config,agree.timeout,agree.process,runners,corresponds_set agree.calls i ⟨alike.job,rfl⟩,
      agree.tasks,agree.returned,logs⟩
  | panicked =>
    exact ⟨agree.config,agree.timeout,agree.process,runners,corresponds_eraseIdx agree.calls i,agree.tasks,
      agree.returned,logs⟩
  | returned result =>
    exact ⟨agree.config,agree.timeout,agree.process,runners,corresponds_eraseIdx agree.calls i,agree.tasks,
      by rw [agree.returned],logs⟩

section
variable {outcome twinned : PdaRunner Encoded × Progress (Stage Proof) ProveResult} {task twin : ArmedTask Proof}
  {answer : Answer Proof}

theorem prove_same (agree : m.Agree n) (sameJob : task.job = twin.job) (sameStage : task.stage = twin.stage)
    (proved : prove deps m.config task.job answer m.runner task.stage = some outcome)
    (twinProved : prove deps n.config twin.job answer n.runner twin.stage = some twinned) :
    outcome.1.anonymous = twinned.1.anonymous ∧ outcome.2 = twinned.2 := by
  have first := @prove_channel Proof Encoded Body deps m.config task.job answer m.runner task.stage
  have second := @prove_channel Proof Encoded Body deps n.config twin.job answer n.runner twin.stage
  rw [proved,agree.runner,agree.config,sameJob,sameStage,second,twinProved] at first
  exact Prod.mk.inj (Option.some.inj first.symm)

theorem prove_alike (agree : m.Agree n) (alike : task.Alike twin)
    (kept : task.job = twin.job ∨ formats deps m.config task.stage answer = false)
    (proved : prove deps m.config task.job answer m.runner task.stage = some outcome)
    (twinProved : prove deps n.config twin.job answer n.runner twin.stage = some twinned) :
    outcome.1.anonymous = twinned.1.anonymous ∧ outcome.2.anonymous = twinned.2.anonymous := by
  rcases kept with sameJob | quiet
  · obtain ⟨runners,ends⟩ := prove_same agree sameJob (alike.same sameJob) proved twinProved
    exact ⟨runners,congrArg Progress.anonymous ends⟩
  · have twinQuiet : formats deps n.config twin.stage answer = false := by
      rw [← agree.config,← formats_anonymous,← alike.stage,formats_anonymous]
      exact quiet
    have first := @prove_anonymous Proof Encoded Body deps m.config task.job answer m.runner task.stage quiet
    have second := @prove_anonymous Proof Encoded Body deps n.config twin.job answer n.runner twin.stage twinQuiet
    rw [proved,alike.job,agree.config,agree.runner,alike.stage,second,twinProved] at first
    exact Prod.mk.inj (Option.some.inj first.symm)

end

theorem proveLog_alike (agree : m.Agree n) {task twin : ArmedTask Proof} (alike : task.Alike twin) {answer : Answer Proof}
    (reports : Reports) (kept : task.job = twin.job ∨ formats deps m.config task.stage answer = false) :
    proveLog deps m.config m.timeout task.job task.arm answer reports m.runner task.stage =
      proveLog deps n.config n.timeout twin.job twin.arm answer reports n.runner twin.stage := by
  rw [← proveLog_channel,← proveLog_arm,agree.runner,agree.config,agree.timeout,alike.arm,proveLog_arm,proveLog_channel]
  rcases kept with sameJob | quiet
  · rw [sameJob,alike.same sameJob]
  · rw [agree.config] at quiet
    have twinQuiet : formats deps n.config twin.stage answer = false := by
      rw [← formats_anonymous,← alike.stage,formats_anonymous]
      exact quiet
    rw [← proveLog_anonymous quiet,← proveLog_anonymous twinQuiet,alike.job,alike.stage]

theorem anonymous_readQueue {stage : Stage Proof} : stage.anonymous = .readQueue ↔ stage = .readQueue := by
  cases stage with
  | finalize status => cases status <;> simp [Stage.anonymous]
  | _ => simp [Stage.anonymous]

theorem goTo_reading {task : ArmedTask Proof} (reading : task.stage = .readQueue) (stage : Stage Proof) :
    task.goTo stage = { task with stage, arm := stage } := by
  rw [ArmedTask.goTo,reading]

theorem goTo_armed {task : ArmedTask Proof} (armed : task.stage ≠ .readQueue) (stage : Stage Proof) :
    task.goTo stage = { task with stage } := by
  unfold ArmedTask.goTo
  split
  next reading => exact absurd reading armed
  next => rfl

theorem ArmedTask.Alike.goTo {task twin : ArmedTask Proof} (alike : task.Alike twin) {stage twinStage : Stage Proof}
    (stages : stage.anonymous = twinStage.anonymous) (same : task.job = twin.job → stage = twinStage) :
    (task.goTo stage).Alike (twin.goTo twinStage) := by
  by_cases reading : task.stage = .readQueue
  · have twinReading : twin.stage = .readQueue := by
      rw [← anonymous_readQueue,← alike.stage,anonymous_readQueue]
      exact reading
    rw [goTo_reading reading,goTo_reading twinReading]
    exact ⟨alike.job,stages,stages,same⟩
  · have twinArmed : twin.stage ≠ .readQueue := by
      rw [Ne,← anonymous_readQueue,← alike.stage,anonymous_readQueue]
      exact reading
    rw [goTo_armed reading,goTo_armed twinArmed]
    exact ⟨alike.job,alike.arm,stages,same⟩

theorem Machine.Agree.task (agree : m.Agree n) (i : Nat) {task twin : ArmedTask Proof} (alike : task.Alike twin)
    {answer : Answer Proof} {reports : Reports}
    (kept : task.job = twin.job ∨ formats deps m.config task.stage answer = false)
    (moved : m.taskStep deps i task answer reports = some after)
    (twinMoved : n.taskStep deps i twin answer reports = some other) : after.Agree other := by
  obtain ⟨⟨runner,progress⟩,proved,rfl⟩ := Option.map_eq_some_iff.mp moved
  obtain ⟨⟨twinRunner,twinProgress⟩,twinProved,rfl⟩ := Option.map_eq_some_iff.mp twinMoved
  obtain ⟨runners,ends⟩ := prove_alike agree alike kept proved twinProved
  have same (sameJob : task.job = twin.job) : progress = twinProgress :=
    (prove_same agree sameJob (alike.same sameJob) proved twinProved).2
  have logs : m.log ++ proveLog deps m.config m.timeout task.job task.arm answer reports m.runner task.stage =
      n.log ++ proveLog deps n.config n.timeout twin.job twin.arm answer reports n.runner twin.stage := by
    rw [agree.log,proveLog_alike agree alike reports kept]
  cases progress with
  | next stage =>
    cases twinProgress with
    | next twinStage =>
      have stages : stage.anonymous = twinStage.anonymous := Progress.next.inj ends
      have advanced := alike.goTo stages (fun sameJob => Progress.next.inj (same sameJob))
      exact ⟨agree.config,agree.timeout,agree.process,runners,agree.calls,corresponds_set agree.tasks i advanced,
        agree.returned,logs⟩
    | returned | panicked => cases ends
  | returned | panicked =>
    cases twinProgress with
    | next twinStage => cases ends
    | returned | panicked => exact ⟨agree.config,agree.timeout,agree.process,runners,agree.calls,
        corresponds_eraseIdx agree.tasks i,agree.returned,logs⟩

theorem Machine.Agree.twins (agree : m.Agree n) {i : Nat} {task twin : ArmedTask Proof}
    (found : m.tasks[i]? = some task) (twinFound : n.tasks[i]? = some twin) : task.Alike twin := by
  have corresponding := corresponds_at agree.tasks i
  rw [found,twinFound] at corresponding
  cases corresponding with
  | some alike => exact alike

theorem leaks_task {i : Nat} {task twin : ArmedTask Proof} {answer : Answer Proof} {reports : Reports}
    {twinAction : MachineAction Proof} (found : m.tasks[i]? = some task) (twinFound : n.tasks[i]? = some twin) :
    leaks deps (m,n) (.task i answer reports,twinAction) = true ↔
      task.job ≠ twin.job ∧ formats deps m.config task.stage answer = true := by
  simp [leaks,found,twinFound]

theorem Machine.Agree.recv (agree : m.Agree n) (moved : MachineStep deps m .recv after)
    (twinMoved : MachineStep deps n .recv other) : after.Agree other := by
  have channels := agree.channel
  have rests {rest twinRest : List (Option Job)}
      (same : rest.map (Option.map Job.anonymous) = twinRest.map (Option.map Job.anonymous)) :
      ({ m.runner with channel := rest } : PdaRunner Encoded).anonymous =
        ({ n.runner with channel := twinRest } : PdaRunner Encoded).anonymous := by
    simp only [PdaRunner.anonymous,agree.queueDb,agree.finishedDb,agree.unflushed,same]
  cases moved with
  | received job rest sent =>
    cases twinMoved with
    | received twinJob twinRest twinSent =>
      rw [sent,twinSent] at channels
      obtain ⟨heads,tails⟩ := List.cons.inj channels
      have jobs : job.anonymous = twinJob.anonymous := Option.some.inj heads
      exact ⟨agree.config,agree.timeout,agree.process,rests tails,agree.calls,
        List.rel_append agree.tasks (.cons ⟨jobs,rfl,rfl,fun _ => rfl⟩ .nil),agree.returned,agree.log⟩
    | stopReceived twinRest twinSent =>
      rw [sent,twinSent] at channels
      cases channels
  | stopReceived rest sent =>
    cases twinMoved with
    | received twinJob twinRest twinSent =>
      rw [sent,twinSent] at channels
      cases channels
    | stopReceived twinRest twinSent =>
      rw [sent,twinSent] at channels
      exact ⟨agree.config,agree.timeout,rfl,rests (List.cons.inj channels).2,agree.calls,agree.tasks,agree.returned,
        by rw [agree.log]⟩

theorem Machine.Agree.restart (agree : m.Agree n) (config : Config) (timeout : Nat) :
    (m.restartStep deps config timeout).Agree (n.restartStep deps config timeout) := by
  unfold Machine.restartStep
  rw [agree.queueDb,agree.log]
  cases restartUnfinishedJobs deps n.runner.queueDb.iter with
  | error _ =>
    exact ⟨agree.config,agree.timeout,agree.process,agree.runner,agree.calls,agree.tasks,agree.returned,rfl⟩
  | ok jobs =>
    refine ⟨rfl,rfl,rfl,?_,agree.calls,agree.tasks,agree.returned,rfl⟩
    simp only [PdaRunner.anonymous,agree.queueDb,agree.finishedDb,agree.unflushed]

theorem alike_cases {action twinAction : MachineAction Proof} (alike : action.anonymous = twinAction.anonymous) :
    action = twinAction ∨ ∃ job twinJob, action = .call job ∧ twinAction = .call twinJob ∧
      job.anonymous = twinJob.anonymous := by
  cases action with
  | call job =>
    cases twinAction with
    | call twinJob => exact .inr ⟨job,twinJob,rfl,rfl,MachineAction.call.inj alike⟩
    | _ => cases alike
  | _ =>
    cases twinAction with
    | call twinJob => cases alike
    | _ => exact .inl alike

theorem Machine.Agree.start (agree : m.Agree n) {job twinJob : Job} (jobs : job.anonymous = twinJob.anonymous) :
    ({ m with calls := m.calls ++ [⟨job,.readFinished⟩] } : Machine Proof Encoded).Agree
      { n with calls := n.calls ++ [⟨twinJob,.readFinished⟩] } :=
  ⟨agree.config,agree.timeout,agree.process,agree.runner,List.rel_append agree.calls (.cons ⟨jobs,rfl⟩ .nil),
    agree.tasks,agree.returned,agree.log⟩

theorem Machine.Agree.shutdown (agree : m.Agree n) (message : LogMessage) :
    ({ m with runner := m.runner.send none, log := m.log ++ [message] } : Machine Proof Encoded).Agree
      { n with runner := n.runner.send none, log := n.log ++ [message] } := by
  refine ⟨agree.config,agree.timeout,agree.process,?_,agree.calls,agree.tasks,agree.returned,by rw [agree.log]⟩
  rw [send_anonymous,send_anonymous,agree.runner]

/-- A step that no job leaks in keeps the agreement. -/
theorem Machine.Agree.step (agree : m.Agree n) {action twinAction : MachineAction Proof}
    (alike : action.anonymous = twinAction.anonymous) (kept : leaks deps (m,n) (action,twinAction) = false)
    (moved : m.step deps action = some after) (twinMoved : n.step deps twinAction = some other) :
    after.Agree other := by
  have first := machineStep_cases moved
  have second := machineStep_cases twinMoved
  rcases alike_cases alike with rfl | ⟨job,twinJob,rfl,rfl,jobs⟩
  · cases action with
    | recv => exact agree.recv first second
    | call job =>
      cases first
      cases second
      exact agree.start rfl
    | operation i fault =>
      cases first with
      | operation _ _ thread found =>
        cases second with
        | operation _ _ twin twinFound =>
          have corresponding := corresponds_at agree.calls i
          rw [found,twinFound] at corresponding
          cases corresponding with
          | some twins => exact agree.call i fault twins
    | task i answer reports =>
      cases first with
      | task _ _ _ task _ found stepped =>
        cases second with
        | task _ _ _ twin _ twinFound twinStepped =>
          have quiet : task.job = twin.job ∨ formats deps m.config task.stage answer = false := by
            rw [← Bool.not_eq_true,leaks_task found twinFound] at kept
            by_contra leaking
            simp only [not_or,Bool.not_eq_false] at leaking
            exact kept leaking
          exact agree.task i (agree.twins found twinFound) quiet stepped twinStepped
    | shutdown =>
      cases first
      cases second
      exact agree.shutdown _
    | exit =>
      cases first
      cases second
      have same : (m.runner.queueDb,m.runner.finishedDb) = (n.runner.queueDb,n.runner.finishedDb) :=
        Prod.ext agree.queueDb agree.finishedDb
      exact same ▸ agree.stop _
    | crash lost =>
      cases first with
      | crash _ found left =>
        cases second with
        | crash _ twin twinLeft =>
          obtain rfl : found = twin := by
            rw [agree.contents] at left
            exact Option.some.inj (left.symm.trans twinLeft)
          exact agree.stop found
    | restart config timeout =>
      cases first
      cases second
      exact agree.restart config timeout
  · cases first
    cases second
    exact agree.start jobs

end

/-! A step that a job leaks in writes as many messages in both runs, and not the same. -/

structure Differ (messages twins : List LogMessage) : Prop where
  size : messages.length = twins.length
  different : messages ≠ twins

theorem Differ.after {messages twins : List LogMessage} (differ : Differ messages twins) (before : List LogMessage) :
    Differ (before ++ messages) (before ++ twins) :=
  ⟨by simp [differ.size],fun same => differ.different (List.append_cancel_left same)⟩

theorem differ_text {level : Level} {text twinText : String} (different : text ≠ twinText) (rest : List LogMessage) :
    Differ (⟨level,text⟩ :: rest) (⟨level,twinText⟩ :: rest) :=
  ⟨rfl,fun same => different (LogMessage.mk.inj (List.cons.inj same).1).2⟩

section
variable {config : Config} {job twinJob : Job} {answer : Answer Proof} {runner twinRunner : PdaRunner Encoded}
  {arm twinArm stage twinStage : Stage Proof}

theorem keyed_alike (jobs : job.anonymous = twinJob.anonymous) (text : String) :
    keyed deps job text = keyed deps twinJob text := by
  rw [← keyed_anonymous,jobs,keyed_anonymous]

theorem debug_ne_of_alike (jobs : job.anonymous = twinJob.anonymous) (different : job ≠ twinJob)
    (rest twinRest : String) : job.debug ++ rest ≠ twinJob.debug ++ twinRest :=
  fun same => different (Job.debug_cancel (Job.mk.inj jobs).1 same)

theorem failed_arm (e : PdaRunnerError) : failed deps job e arm.anonymous = failed deps job e arm := by
  cases arm with
  | finalize status => cases status <;> rfl
  | _ => rfl

theorem failed_differ (jobs : job.anonymous = twinJob.anonymous) (different : job ≠ twinJob)
    (arms : arm.anonymous = twinArm.anonymous) (e twinError : PdaRunnerError) :
    Differ (failed deps job e arm) (failed deps twinJob twinError twinArm) := by
  have texts (between rest twinRest : String) :
      job.debug ++ between ++ rest ≠ twinJob.debug ++ between ++ twinRest := by
    rw [String.append_assoc,String.append_assoc]
    exact debug_ne_of_alike jobs different _ _
  rw [← @failed_arm Proof Encoded Body deps twinJob twinArm,← arms,failed_arm]
  cases arm with
  | remoteRequesting | remotePending => exact differ_text (texts _ _ _) _
  | readQueue | localPending | finalize | updateStatus | sendBack =>
    simp only [failed,keyed_alike jobs]
    exact differ_text (texts _ _ _) _

theorem failedCall_differ (jobs : job.anonymous = twinJob.anonymous) (different : job ≠ twinJob) (arm : Stage Proof)
    {call twinCall : Option (Progress (Stage Proof) PdaRunnerError)} {e twinError : PdaRunnerError}
    (returned : call = some (.returned e)) (twinReturned : twinCall = some (.returned twinError)) :
    Differ (failedCall deps job arm call) (failedCall deps twinJob arm twinCall) := by
  subst returned twinReturned
  exact failed_differ jobs different rfl e twinError

theorem anonymous_proving (proving : stage = .remoteRequesting ∨ stage = .localPending ∨
    ∃ requestId, stage = .remotePending requestId) (stages : stage.anonymous = twinStage.anonymous) : twinStage = stage := by
  have plain : stage.anonymous = stage := by
    rcases proving with rfl | rfl | ⟨_,rfl⟩ <;> rfl
  rw [plain] at stages
  cases twinStage with
  | finalize status =>
    subst stages
    cases status <;> simp [Stage.anonymous] at proving
  | _ => exact stages.symm

theorem anonymous_failed {error : PdaRunnerError} {retryStatus : Option (JobStatus Proof)}
    (stages : (Stage.finalize (.failed error retryStatus)).anonymous = twinStage.anonymous) :
    ∃ twinError, twinStage = .finalize (.failed twinError retryStatus) := by
  cases twinStage with
  | finalize status =>
    cases status with
    | failed twinError twinRetry =>
      simp only [Stage.anonymous,Stage.finalize.injEq,JobStatus.failed.injEq,true_and] at stages
      exact ⟨twinError,by rw [stages]⟩
    | _ => simp [Stage.anonymous] at stages
  | _ => simp [Stage.anonymous] at stages

theorem zkProofRemote_formats {nonce : Block NONCE_LEN} {result : Except ProverError SuccNetJobId}
    (formatted : formats deps config (.remoteRequesting : Stage Proof) (.requested nonce result) = true) :
    ∃ e, ∀ job, zkProofRemote deps config job (.requested nonce result : Answer Proof) = some (.returned e) := by
  simp only [formats] at formatted
  split at formatted
  next => cases formatted
  next name message strategy =>
    simp only [zkProofRemote,strategy]
    split
    next => exact ⟨_,fun _ => rfl⟩
    next => exact ⟨_,fun _ => rfl⟩
  next name strategy _ =>
    simp only [Bool.not_eq_true'] at formatted
    simp only [zkProofRemote,strategy,formatted]
    exact ⟨_,fun _ => rfl⟩

theorem leak_differs (jobs : job.anonymous = twinJob.anonymous) (different : job ≠ twinJob)
    (arms : arm.anonymous = twinArm.anonymous) (stages : stage.anonymous = twinStage.anonymous)
    (formatted : formats deps config stage answer = true) (timeout : Nat) (reports : Reports) :
    Differ (proveLog deps config timeout job arm answer reports runner stage)
      (proveLog deps config timeout twinJob twinArm answer reports twinRunner twinStage) := by
  unfold formats at formatted
  split at formatted
  next error retryStatus fault =>
    obtain ⟨twinError,rfl⟩ := anonymous_failed stages
    exact failed_differ jobs different arms _ _
  next error =>
    obtain rfl := anonymous_proving (.inr (.inl rfl)) stages
    exact (failedCall_differ jobs different _ rfl rfl).after _
  next error =>
    obtain rfl := anonymous_proving (.inl rfl) stages
    exact (failedCall_differ jobs different _ rfl rfl).after _
  next nonce message =>
    obtain rfl := anonymous_proving (.inr (.inl rfl)) stages
    simp only [proveLog,zkProofLocalLog,keyed_alike jobs]
    exact (failedCall_differ jobs different _ rfl rfl).after _
  next requestId message =>
    obtain rfl := anonymous_proving (.inr (.inr ⟨_,rfl⟩)) stages
    exact (failedCall_differ jobs different _ rfl rfl).after _
  next requestId proof =>
    obtain rfl := anonymous_proving (.inr (.inr ⟨_,rfl⟩)) stages
    have texts : "🎉 " ++ job.debug ++ " Finished!" ≠ "🎉 " ++ twinJob.debug ++ " Finished!" := by
      rw [String.append_assoc,String.append_assoc,Ne,String.append_right_inj]
      exact debug_ne_of_alike jobs different _ _
    have finished := @differ_text .info _ _ texts []
    simp only [proveLog,waitForZkProofLog,List.append_assoc]
    exact (finished.after _).after _
  next nonce result =>
    obtain rfl := anonymous_proving (.inl rfl) stages
    obtain ⟨e,returned⟩ := zkProofRemote_formats formatted
    simp only [proveLog,zkProofRemoteLog,keyed_alike jobs]
    exact (failedCall_differ jobs different _ (returned job) (returned twinJob)).after _
  next => cases formatted

end

section
variable {m n after other : Machine Proof Encoded}

theorem taskStep_log {i : Nat} {task : ArmedTask Proof} {answer : Answer Proof} {reports : Reports}
    (moved : m.taskStep deps i task answer reports = some after) : after.log =
      m.log ++ proveLog deps m.config m.timeout task.job task.arm answer reports m.runner task.stage := by
  obtain ⟨⟨runner,progress⟩,_,rfl⟩ := Option.map_eq_some_iff.mp moved
  cases progress <;> rfl

/-- A step that a job leaks in takes the logs apart. -/
theorem Machine.Agree.apart (agree : m.Agree n) {action twinAction : MachineAction Proof}
    (alike : action.anonymous = twinAction.anonymous) (leaked : leaks deps (m,n) (action,twinAction) = true)
    (moved : m.step deps action = some after) (twinMoved : n.step deps twinAction = some other) :
    Apart after.log other.log := by
  rcases alike_cases alike with rfl | ⟨job,twinJob,rfl,rfl,_⟩
  · cases action with
    | task i answer reports =>
      obtain ⟨task,found,stepped⟩ := Option.bind_eq_some_iff.mp moved
      obtain ⟨twin,twinFound,twinStepped⟩ := Option.bind_eq_some_iff.mp twinMoved
      obtain ⟨different,formatted⟩ := (leaks_task found twinFound).mp leaked
      have twins := agree.twins found twinFound
      have differ := @leak_differs Proof Encoded Body deps m.config task.job twin.job answer m.runner n.runner
        task.arm twin.arm task.stage twin.stage twins.job different twins.arm twins.stage formatted m.timeout reports
      rw [taskStep_log stepped,taskStep_log twinStepped,← agree.log,← agree.config,← agree.timeout]
      exact apart_append differ.size differ.different
    | _ => cases leaked
  · cases leaked

theorem Machine.step_log {action : MachineAction Proof} (moved : m.step deps action = some after) :
    m.log <+: after.log := by
  cases machineStep_cases moved with
  | call | received | exit | crash => exact List.prefix_rfl
  | stopReceived | shutdown => exact List.prefix_append _ _
  | operation i fault thread =>
    unfold Machine.callStep
    dsimp only
    split <;> exact List.prefix_append _ _
  | task i answer reports task after found stepped =>
    rw [taskStep_log stepped]
    exact List.prefix_append _ _
  | restart config timeout =>
    unfold Machine.restartStep
    dsimp only
    split <;> exact List.prefix_append _ _

end

def leaked (deps : Dependencies Proof Encoded Body) (pair : Machine Proof Encoded × Machine Proof Encoded)
    (actions : MachineAction Proof × MachineAction Proof) (_ : Machine Proof Encoded × Machine Proof Encoded)
    (before : Bool) : Bool :=
  before || leaks deps pair actions

/-- Two runs from empty databases, with one schedule and the same prover outcomes. -/
abbrev SideBySide (deps : Dependencies Proof Encoded Body) (config : Config) (timeout : Nat)
    (history : (Machine Proof Encoded × Machine Proof Encoded) × Bool) : Prop :=
  Reaches (tracked (paired (Machine.step deps)) (leaked deps)) (fun _ actions => actions.1.anonymous = actions.2.anonymous)
    ((.initial config timeout,.initial config timeout),false) history

theorem Machine.agree_initial (config : Config) (timeout : Nat) :
    (Machine.initial config timeout : Machine Proof Encoded).Agree (.initial config timeout) :=
  ⟨rfl,rfl,rfl,rfl,.nil,.nil,rfl,rfl⟩

/-- The two runs agree until a job leaks, and their logs are apart from then on. -/
theorem SideBySide.split {config : Config} {timeout : Nat}
    {history : (Machine Proof Encoded × Machine Proof Encoded) × Bool} (run : SideBySide deps config timeout history) :
    (history.2 = false ∧ history.1.1.Agree history.1.2) ∨
      (history.2 = true ∧ Apart history.1.1.log history.1.2.log) := by
  apply run.invariant
  · intro before actions after known alike moved
    obtain ⟨stepped,recorded⟩ := tracked_eq_some.mp moved
    obtain ⟨first,second⟩ := paired_eq_some.mp stepped
    rw [recorded,leaked]
    rcases known with ⟨quiet,agree⟩ | ⟨leaking,apart⟩
    · rw [quiet,Bool.false_or]
      cases now : leaks deps before.1 actions with
      | false => exact .inl ⟨rfl,agree.step alike now first second⟩
      | true => exact .inr ⟨rfl,agree.apart alike now first second⟩
    · rw [leaking,Bool.true_or]
      exact .inr ⟨rfl,apart.grows (Machine.step_log first) (Machine.step_log second)⟩
  · exact .inl ⟨rfl,Machine.agree_initial config timeout⟩

/-- Two runs with the same anchors, schedule and prover outcomes store, answer and log the same
exactly as long as no task whose job has another input in the other run has formatted it. -/
theorem plaintext_unobserved_iff (config : Config) (timeout : Nat)
    (history : (Machine Proof Encoded × Machine Proof Encoded) × Bool) (run : SideBySide deps config timeout history) :
    history.1.1.Observed history.1.2 ↔ history.2 = false := by
  rcases run.split with ⟨quiet,agree⟩ | ⟨leaking,apart⟩
  · exact ⟨fun _ => quiet,fun _ => agree.observed⟩
  · constructor
    · intro observed
      exact absurd observed.log apart.ne
    · intro quiet
      cases quiet.symm.trans leaking

deriving instance DecidableEq for Answer
deriving instance DecidableEq for MachineAction

namespace Tabulated

def requestJob (data : Bytes) : List (MachineAction Bytes) :=
  .call ⟨(dependencies.jobOf [1,2,3]).anchor,⟨data⟩⟩ :: List.replicate 4 (.operation 0 none)

def handleJob (answers : List (Answer Bytes)) : List (MachineAction Bytes) :=
  .recv :: answers.map (.task 0 · ⟨[],true,""⟩)

/-- Two jobs of one anchor, with the inputs `[1,2,3]` and `[4,5,6]`, are requested, handled and
requested again. -/
def twoInputs (config : Config) (handled : List (MachineAction Bytes)) :
    (Machine Bytes (JobStatus Bytes) × Machine Bytes (JobStatus Bytes)) × Bool :=
  let schedule (data : Bytes) := requestJob data ++ handled ++ (requestJob data).take 2
  final (tracked (paired (Machine.step dependencies)) (leaked dependencies))
    ((.initial config 60,.initial config 60),false) ((schedule [1,2,3]).zip (schedule [4,5,6]))

def proveInput : List (MachineAction Bytes) :=
  handleJob [.storage none,.proved zeroNonce (.ok []),.storage none]

/-- The prover network does not fulfil the request. -/
def failInput : List (MachineAction Bytes) :=
  handleJob [.storage none,.requested zeroNonce (.ok zeroKey),.storage none,.storage none] ++
  handleJob [.storage none,.waited (.error (.network (.requestUnfulfillable zeroKey.toList))),.storage none]

/-- What the next request for the job is answered from the finished tree. -/
def storedAnswer (finishedDb : SledTree (JobStatus Bytes)) : Option String :=
  match finishedDb.lookup plainKey with
  | some (.failed error _) => some error.debug
  | _ => none

end Tabulated

theorem plaintext_unobserved_iff_proved :
    let history := Tabulated.twoInputs Tabulated.localConfig Tabulated.proveInput
    history.1.1.Observed history.1.2 ↔ history.2 = false :=
  plaintext_unobserved_iff Tabulated.localConfig 60 _ (final_reaches _ _ (by decide +kernel))

/-- The failure that is stored, logged and returned to the next request has the input in it. -/
theorem failure_reveals_plaintext :
    let history := Tabulated.twoInputs Tabulated.networkConfig Tabulated.failInput
    SideBySide Tabulated.dependencies Tabulated.networkConfig 60 history ∧
      history.1.1.runner.finishedDb ≠ history.1.2.runner.finishedDb ∧
      history.1.1.returned ≠ history.1.2.returned ∧ history.1.1.log ≠ history.1.2.log ∧
      ¬ history.1.1.Observed history.1.2 := by
  have logs : (Tabulated.twoInputs Tabulated.networkConfig Tabulated.failInput).1.1.log ≠
      (Tabulated.twoInputs Tabulated.networkConfig Tabulated.failInput).1.2.log := by decide +kernel
  refine ⟨final_reaches _ _ (by decide +kernel),?_,by decide +kernel,logs,fun observed => logs observed.log⟩
  intro same
  have answers := congrArg Tabulated.storedAnswer same
  exact absurd answers (by decide +kernel)

end PdaProxy
