import PdaProxy.StoreInvariant

/-! Which prover the statuses ask for. A job is proved locally or remotely by the status in
the queue, and that status comes from the environment, from a task, or from a failure that
is retried; the network reads the key and the plaintext of what it is asked to prove. -/
namespace PdaProxy
open PdaProxy.Semantics.Serialization PdaProxy.Semantics.Transition

variable {Proof Encoded Body : Type}

def Config.ProvesLocally (config : Config) : Prop :=
  config.sp1Prover = some "cuda" ∨ config.sp1Prover = some "cpu" ∨ config.sp1Prover = some "mock"

instance (config : Config) : Decidable config.ProvesLocally := inferInstanceAs (Decidable (_ ∨ _ ∨ _))

def JobStatus.IsRemote : JobStatus Proof → Prop
  | .remoteZkProofRequesting | .remoteZkProofPending _ => True
  | .localZkProofPending | .zkProofFinished _ | .failed _ _ => False

def JobStatus.IsLocal : JobStatus Proof → Prop
  | .localZkProofPending => True
  | .remoteZkProofRequesting | .remoteZkProofPending _ | .zkProofFinished _ | .failed _ _ => False

def JobStatus.RetriesLocally : JobStatus Proof → Prop
  | .zkProofFinished _ => True
  | .failed _ retryStatus => ∀ status ∈ retryStatus, status.IsLocal
  | .localZkProofPending | .remoteZkProofRequesting | .remoteZkProofPending _ => False

theorem JobStatus.IsLocal.not_remote {status : JobStatus Proof} (onlyLocal : status.IsLocal) : ¬ status.IsRemote := by
  cases status with
  | localZkProofPending => exact fun remote => remote
  | _ => cases onlyLocal

def SP1NetworkError.retried : SP1NetworkError → Bool
  | .requestTimedOut _ | .rpcError _ | .other _ => true
  | .simulationFailed | .requestUnexecutable _ | .requestUnfulfillable _ => false

/-- No local proof fails with an error that is retried remotely, and a process that starts
proves locally. -/
def StaysLocal : Action Proof Body → Prop
  | .task _ (.proved _ (.error (.network error))) => error.retried = false
  | .restart config => config.ProvesLocally
  | .receive _ | .request _ _ | .recv | .task _ _ | .shutdown | .exit | .crash _ => True

instance : ∀ action : Action Proof Body, Decidable (StaysLocal action)
  | .task _ (.proved _ (.error (.network error))) => inferInstanceAs (Decidable (error.retried = false))
  | .restart config => inferInstanceAs (Decidable config.ProvesLocally)
  | .task _ (.proved _ (.error (.unhandled _))) | .task _ (.proved _ (.ok _)) | .task _ (.storage _)
  | .task _ (.setupFailed _) | .task _ (.requested _ _) | .task _ (.waited _) | .task _ .panics
  | .receive _ | .request _ _ | .recv | .shutdown | .exit | .crash _ => inferInstanceAs (Decidable True)

/-- A task has not turned to the network and is not about to store a remote retry. -/
def Stage.IsLocal : Stage Proof → Prop
  | .readQueue | .localPending | .sendBack => True
  | .finalize status => status.RetriesLocally
  | .remoteRequesting | .remotePending _ | .updateStatus _ => False

theorem Stage.IsLocal.writes {stage : Stage Proof} (atLocal : stage.IsLocal) :
    stage.Writes JobStatus.IsLocal JobStatus.RetriesLocally := by
  cases stage with
  | finalize status => exact atLocal
  | updateStatus status => cases atLocal
  | _ => trivial

def localOnly (deps : Dependencies Proof Encoded Body) : Assertions Proof Encoded Body where
  shared history queueDb finishedDb := history.config.ProvesLocally ∧ history.network.received = [] ∧
    StoresBoth deps queueDb finishedDb (fun _ => JobStatus.IsLocal) (fun _ => JobStatus.RetriesLocally)
  request _ _ call := call.Writes JobStatus.IsLocal
  task _ _ stage := stage.IsLocal
  message _ _ := True
  served _ _ _ := True

variable {deps : Dependencies Proof Encoded Body}

theorem initialStatus_local {config : Config} (onlyLocal : config.ProvesLocally) {status : JobStatus Proof}
    (chosen : initialStatus config = .next status) : status.IsLocal := by
  rcases onlyLocal with same | same | same <;>
  · simp only [initialStatus,same] at chosen
    cases chosen
    trivial

theorem handleZkClientError_local {error : SP1NetworkError} (permanent : error.retried = false) (job : Job) :
    (handleZkClientError deps error job).2.RetriesLocally := by
  cases error with
  | simulationFailed | requestUnexecutable | requestUnfulfillable => exact fun _ member => by cases member
  | requestTimedOut | rpcError | other => cases permanent

theorem JobStatus.RetriesLocally.retries {error : PdaRunnerError} {status : JobStatus Proof}
    (onlyLocal : (JobStatus.failed error (some status)).RetriesLocally) : status.IsLocal :=
  onlyLocal status rfl

theorem TaskStep.local {config : Config} {job : Job} {runner after : PdaRunner Encoded}
    {stage next : Stage Proof} {answer : Answer Proof} {progress : Progress (Stage Proof) ProveResult} {i : Nat}
    (queue : Stores deps runner.queueDb (fun _ => JobStatus.IsLocal)) (atLocal : stage.IsLocal)
    (allowed : @StaysLocal Proof Body (.task i answer))
    (moved : TaskStep deps config job runner stage answer after progress) (same : progress = .next next) :
    next.IsLocal := by
  cases moved with
  | lost stage answer progress unhandled ended => exact absurd same (ended next)
  | started data status stored read =>
    have onlyLocal := queue.read stored read
    cases status with
    | localZkProofPending => cases same; trivial
    | _ => cases onlyLocal
  | refusedLocal nonce error =>
    cases same
    exact handleZkClientError_local allowed job
  | proved => cases same; trivial
  | unqueued | unreadable | finalized | sentBack => cases same
  | refusedRemote | refusedWait | requested | waited | updated => cases atLocal

theorem Network.observe_local (network : Network) (config : Config) (job : Job) {stage : Stage Proof}
    (answer : Answer Proof) (atLocal : stage.IsLocal) : network.observe deps config job stage answer = network := by
  cases stage with
  | remoteRequesting => cases atLocal
  | _ => rfl

theorem localOnly_stable :
    (localOnly deps).Stable deps (fun _ action => StaysLocal action) (fun _ => True) where
  shared_grows _ _ before now := ⟨now.1,now.2.1,before.2.2⟩
  request_grows _ _ writes := writes
  task_grows _ _ atLocal := atLocal
  message_grows _ _ _ := trivial
  served_grows _ _ := trivial
  request_message _ := trivial
  task_message _ := trivial
  message_task _ := trivial
  receive _ _ _ := ⟨fun _ _ => trivial,fun _ _ => trivial⟩
  call _ holds _ _ writes moved := by
    obtain ⟨onlyLocal,silent,trees⟩ := holds.shared
    obtain ⟨trees,next⟩ := moved.stores (fun _ _ failed => failed.retries)
      (fun _ chosen => initialStatus_local onlyLocal chosen) trees writes
    exact ⟨⟨onlyLocal,silent,trees⟩,next _ rfl⟩
  answer _ holds _ _ writes moved := by
    obtain ⟨onlyLocal,silent,trees⟩ := holds.shared
    obtain ⟨trees,_⟩ := moved.stores (fun _ _ failed => failed.retries)
      (fun _ chosen => initialStatus_local onlyLocal chosen) trees writes
    exact ⟨⟨onlyLocal,silent,trees⟩,fun _ _ => trivial,fun _ _ => trivial⟩
  work {_ _ answer _ _ _} _ holds allowed _ atLocal moved := by
    obtain ⟨onlyLocal,silent,trees⟩ := holds.shared
    refine ⟨⟨onlyLocal,?_,moved.stores trees atLocal.writes⟩,fun _ same => moved.local trees.queue atLocal allowed same⟩
    exact (congrArg Network.received (Network.observe_local _ _ _ answer atLocal)).trans silent
  restart _ holds allowed _ _ := ⟨⟨allowed,holds.shared.2⟩,fun _ _ => trivial⟩

/-- A service that is configured to prove locally never turns to the network, as long as no
local proof fails with an error that is stored for a retry. -/
theorem local_proving_stays_local (config : Config) (onlyLocal : config.ProvesLocally)
    (s : State Proof Encoded Body)
    (run : Reaches (State.step deps) (fun _ action => StaysLocal action) (State.initial config) s) :
    (∀ key data status, s.runner.queueDb.lookup key = some data → deps.statusCodec.deserialize data = .ok status →
      ¬ status.IsRemote) ∧
    (∀ key data error retryStatus, s.runner.finishedDb.lookup key = some data →
      deps.statusCodec.deserialize data = .ok (.failed error (some retryStatus)) → ¬ retryStatus.IsRemote) ∧
    s.network.received = [] := by
  obtain ⟨_,silent,trees⟩ := (Assertions.holds_reaches localOnly_stable run (fun _ _ => trivial)
    ⟨onlyLocal,rfl,stores_empty _,stores_empty _⟩).shared
  refine ⟨fun key data status stored read => (trees.queue.read stored read).not_remote,?_,silent⟩
  intro key data error retryStatus stored read
  exact (trees.finished.read stored read).retries.not_remote

theorem local_proving_refused :
    let s := Tabulated.run Tabulated.localConfig (Tabulated.submitPlain 0 ++ [.recv,.task 0 (.storage none),
      .task 0 (.proved Tabulated.zeroNonce (.error (.network .simulationFailed))),.task 0 (.storage none)])
    Tabulated.plainKey ∈ s.runner.finishedDb ∧ s.network.received = [] :=
  ⟨by decide +kernel,(local_proving_stays_local Tabulated.localConfig (by decide) _
    (Tabulated.run_reaches _ _ (by decide +kernel))).2.2⟩

/-- A local proof fails with an error that is stored for a retry, the client calls again,
and the network is given the key and the plaintext. -/
theorem retry_leaks_to_network :
    let config : Config := { Tabulated.localConfig with sp1FulfillmentStrategy := some "HOSTED" }
    let s := Tabulated.run config (Tabulated.submitPlain 0 ++ [.recv,.task 0 (.storage none),
      .task 0 (.proved Tabulated.zeroNonce (.error (.network (.other "CUDA prover unavailable")))),
      .task 0 (.storage none),Tabulated.receivePlain,.request 0 none,.request 0 none,.request 0 none,
      .recv,.task 0 (.storage none),.task 0 (.requested Tabulated.oneNonce (.ok Tabulated.zeroKey))])
    config.ProvesLocally ∧ Reaches (State.step Tabulated.dependencies) Free (.initial config) s ∧
      s.runner.queueDb.lookup Tabulated.plainKey = some .remoteZkProofRequesting ∧
      s.network.received = [[Tabulated.zeroKey.toList,Tabulated.oneNonce.toList,[1,2,3]]] :=
  ⟨by decide,Tabulated.run_reaches _ _ (by decide +kernel),rfl,by decide +kernel⟩

end PdaProxy
