import PdaProxy.Assertions

/-! Well-formedness of the two trees over whole runs: neither finalize_job nor
send_job_with_new_status checks the status it writes, so it rests on all their callers
and on the retry statuses that are read back from stored failures. -/
namespace PdaProxy
open PdaProxy.Semantics.Serialization PdaProxy.Semantics.Transition

def JobStatus.IsFinal {Proof : Type} : JobStatus Proof → Prop
  | .zkProofFinished _ => True
  | .failed _ retryStatus => ∀ status ∈ retryStatus, status.IsPending
  | .localZkProofPending | .remoteZkProofRequesting | .remoteZkProofPending _ => False

variable {Proof Encoded Body : Type} {deps : Dependencies Proof Encoded Body}

theorem JobStatus.IsPending.starts {status : JobStatus Proof} (pending : status.IsPending) :
    ∃ stage, startingStage status = .next stage := by
  cases status with
  | localZkProofPending => exact ⟨_,rfl⟩
  | remoteZkProofRequesting => exact ⟨_,rfl⟩
  | remoteZkProofPending requestId => exact ⟨_,rfl⟩
  | zkProofFinished | failed => cases pending

theorem initialStatus_pending {config : Config} {status : JobStatus Proof}
    (chosen : initialStatus config = .next status) : status.IsPending := by
  unfold initialStatus at chosen
  split at chosen <;> cases chosen <;> trivial

/-- A failure of a prover client is stored with no retry status or with that of a new
request to the network. -/
theorem handleZkClientError_status (error : SP1NetworkError) (job : Job) :
    ∃ reported, (handleZkClientError deps error job).2 = .failed reported none ∨
      (handleZkClientError deps error job).2 = .failed reported (some .remoteZkProofRequesting) := by
  cases error with
  | simulationFailed | requestUnexecutable | requestUnfulfillable => exact ⟨_,.inl rfl⟩
  | requestTimedOut | rpcError | other => exact ⟨_,.inr rfl⟩

theorem handleZkClientError_final (error : SP1NetworkError) (job : Job) :
    (handleZkClientError deps error job).2.IsFinal := by
  obtain ⟨reported,same | same⟩ := @handleZkClientError_status Proof Encoded Body deps error job
  · rw [same]
    exact fun _ member => by cases member
  · rw [same]
    intro status member
    cases Option.mem_some_iff.mp member
    trivial

/-- Every value of a tree is the encoding of a status that has the property under its key. -/
def Stores (deps : Dependencies Proof Encoded Body) (tree : SledTree Encoded)
    (property : Bytes → JobStatus Proof → Prop) : Prop :=
  ∀ key data, tree.lookup key = some data → ∃ status, data = deps.statusCodec.serialize status ∧ property key status

theorem stores_empty (property : Bytes → JobStatus Proof → Prop) : Stores deps ∅ property := by
  intro key data found
  simp at found

theorem Stores.insert {tree : SledTree Encoded} {property : Bytes → JobStatus Proof → Prop}
    (stores : Stores deps tree property) {status : JobStatus Proof} {key : Bytes} (new : property key status) :
    Stores deps (tree.insert key (deps.statusCodec.serialize status)) property := by
  intro other data found
  by_cases same : other = key
  · subst other
    rw [AList.lookup_insert] at found
    exact ⟨status,(Option.some.inj found).symm,new⟩
  · rw [AList.lookup_insert_ne same] at found
    exact stores other data found

theorem Stores.erase {tree : SledTree Encoded} {property : Bytes → JobStatus Proof → Prop}
    (stores : Stores deps tree property) (key : Bytes) : Stores deps (tree.erase key) property := by
  intro other data found
  by_cases same : other = key
  · subst other
    rw [AList.lookup_erase] at found
    cases found
  · rw [AList.lookup_erase_ne same] at found
    exact stores other data found

theorem Stores.read {tree : SledTree Encoded} {property : Bytes → JobStatus Proof → Prop}
    (stores : Stores deps tree property) {key : Bytes} {data : Encoded} {status : JobStatus Proof}
    (found : tree.lookup key = some data) (read : deps.statusCodec.deserialize data = .ok status) :
    property key status := by
  obtain ⟨written,rfl,holds⟩ := stores key data found
  rw [deps.statusCodec.round_trip] at read
  cases read
  exact holds

theorem Stores.readable {tree : SledTree Encoded} {property : Bytes → JobStatus Proof → Prop}
    (stores : Stores deps tree property) {key : Bytes} {data : Encoded} (found : tree.lookup key = some data) :
    ∃ status, deps.statusCodec.deserialize data = .ok status ∧ property key status := by
  obtain ⟨written,rfl,holds⟩ := stores key data found
  exact ⟨written,deps.statusCodec.round_trip written,holds⟩

structure StoresBoth (deps : Dependencies Proof Encoded Body) (queueDb finishedDb : SledTree Encoded)
    (queued finished : Bytes → JobStatus Proof → Prop) : Prop where
  queue : Stores deps queueDb queued
  finished : Stores deps finishedDb finished

def Call.Writes (queued : JobStatus Proof → Prop) : Call Proof → Prop
  | .retryTransaction _ status | .insert status => queued status
  | .readFinished | .retrySend _ | .readQueue | .send => True

def Stage.Writes (queued finished : JobStatus Proof → Prop) : Stage Proof → Prop
  | .finalize status => finished status
  | .updateStatus status => queued status
  | .readQueue | .remoteRequesting | .remotePending _ | .localPending | .sendBack => True

section
variable {queued finished : Bytes → JobStatus Proof → Prop} {config : Config} {job : Job} {fault : Fault}
  {runner after : PdaRunner Encoded}

theorem CallStep.stores {call : Call Proof} {progress : Progress (Call Proof) (CallResult Proof)}
    (retries : ∀ error status, finished (deps.jobKey job) (.failed error (some status)) →
      queued (deps.jobKey job) status)
    (starts : ∀ status, initialStatus config = .next status → queued (deps.jobKey job) status)
    (trees : StoresBoth deps runner.queueDb runner.finishedDb queued finished)
    (writes : call.Writes (queued (deps.jobKey job)))
    (moved : CallStep deps config job fault runner call after progress) :
    StoresBoth deps after.queueDb after.finishedDb queued finished ∧
      ∀ next, progress = .next next → next.Writes (queued (deps.jobKey job)) := by
  cases moved with
  | retried error retryStatus =>
    exact ⟨⟨trees.queue.insert writes,trees.finished.erase _⟩,fun next same => by cases same; trivial⟩
  | inserted status => exact ⟨⟨trees.queue.insert writes,trees.finished⟩,fun next same => by cases same; trivial⟩
  | retryable data error retryStatus stored read =>
    refine ⟨trees,fun next same => ?_⟩
    cases same
    exact retries error retryStatus (trees.finished.read stored read)
  | unqueued status absent chosen =>
    refine ⟨trees,fun next same => ?_⟩
    cases same
    exact starts status chosen
  | unfinished absent => exact ⟨trees,fun next same => by cases same; trivial⟩
  | failed | panicked | finished | resent | pending | sent => exact ⟨trees,fun next same => by cases same⟩

theorem TaskStep.stores {stage : Stage Proof} {answer : Answer Proof}
    {progress : Progress (Stage Proof) ProveResult}
    (trees : StoresBoth deps runner.queueDb runner.finishedDb queued finished)
    (writes : stage.Writes (queued (deps.jobKey job)) (finished (deps.jobKey job)))
    (moved : TaskStep deps config job runner stage answer after progress) :
    StoresBoth deps after.queueDb after.finishedDb queued finished := by
  cases moved with
  | finalized status => exact ⟨trees.queue.erase _,trees.finished.insert writes⟩
  | updated status => exact ⟨trees.queue.insert writes,trees.finished.erase _⟩
  | _ => exact trees

/-- What a task goes on to write, or to wait for, was in the queue or is made of what a prover
has just answered. -/
theorem TaskStep.writes {property : Bytes → JobStatus Proof → Prop} {stage next : Stage Proof} {answer : Answer Proof}
    (queue : Stores deps runner.queueDb property)
    (refused : ∀ error, property (deps.jobKey job) (handleZkClientError deps error job).2)
    (proved : ∀ nonce proof, stage = .localPending → answer = .proved nonce (.ok proof) →
      property (deps.jobKey job) (.zkProofFinished proof))
    (requested : ∀ nonce requestId, stage = .remoteRequesting → answer = .requested nonce (.ok requestId) →
      (config.sp1FulfillmentStrategy.map deps.isStrategyName).getD false = true →
      property (deps.jobKey job) (.remoteZkProofPending requestId))
    (waited : ∀ requestId proof, stage = .remotePending requestId → answer = .waited (.ok proof) →
      property (deps.jobKey job) (.zkProofFinished proof))
    (moved : TaskStep deps config job runner stage answer after (.next next)) :
    next.Writes (property (deps.jobKey job)) (property (deps.jobKey job)) ∧
      ∀ requestId, next = .remotePending requestId → property (deps.jobKey job) (.remoteZkProofPending requestId) := by
  generalize progressed : Progress.next next = progress at moved
  cases moved with
  | lost _ _ _ unhandled ended => exact absurd progressed.symm (ended next)
  | started data status stored read =>
    have kept := queue.read stored read
    cases status with
    | remoteZkProofPending requestId =>
      cases progressed
      exact ⟨trivial,fun _ same => by cases same; exact kept⟩
    | remoteZkProofRequesting | localZkProofPending =>
      cases progressed
      exact ⟨trivial,fun _ same => by cases same⟩
    | zkProofFinished | failed => cases progressed
  | refusedLocal nonce error | refusedRemote nonce error | refusedWait requestId error =>
    cases progressed
    exact ⟨refused error,fun _ same => by cases same⟩
  | proved nonce proof =>
    cases progressed
    exact ⟨proved nonce proof rfl rfl,fun _ same => by cases same⟩
  | requested nonce requestId usable =>
    cases progressed
    exact ⟨requested nonce requestId rfl rfl usable,fun _ same => by cases same⟩
  | waited requestId proof =>
    cases progressed
    exact ⟨waited requestId proof rfl rfl,fun _ same => by cases same⟩
  | updated status =>
    cases progressed
    exact ⟨trivial,fun _ same => by cases same⟩
  | unqueued | unreadable | finalized | sentBack => cases progressed

end

theorem JobStatus.IsFinal.retries {error : PdaRunnerError} {status : JobStatus Proof}
    (final : (JobStatus.failed error (some status)).IsFinal) : status.IsPending :=
  final status rfl

theorem TaskStep.valid {config : Config} {job : Job} {runner after : PdaRunner Encoded}
    {stage next : Stage Proof} {answer : Answer Proof} {progress : Progress (Stage Proof) ProveResult}
    (moved : TaskStep deps config job runner stage answer after progress) (same : progress = .next next) :
    next.Writes JobStatus.IsPending JobStatus.IsFinal := by
  cases moved with
  | lost stage answer progress unhandled ended => exact absurd same (ended next)
  | started data status stored read => cases status <;> cases same <;> trivial
  | refusedLocal nonce error | refusedRemote nonce error | refusedWait requestId error =>
    cases same
    exact handleZkClientError_final error job
  | proved | requested | waited | updated => cases same; trivial
  | unqueued | unreadable | finalized | sentBack => cases same

def validStatuses (deps : Dependencies Proof Encoded Body) : Assertions Proof Encoded Body where
  shared _ queueDb finishedDb := StoresBoth deps queueDb finishedDb (fun _ => JobStatus.IsPending)
    (fun _ => JobStatus.IsFinal)
  request _ _ call := call.Writes JobStatus.IsPending
  task _ _ stage := stage.Writes JobStatus.IsPending JobStatus.IsFinal
  message _ _ := True
  served _ _ _ := True

theorem validStatuses_stable :
    (validStatuses deps).Stable deps (fun _ _ => True) (fun _ => True) where
  shared_grows _ _ stores _ := stores
  request_grows _ _ writes := writes
  task_grows _ _ writes := writes
  message_grows _ _ _ := trivial
  served_grows _ _ := trivial
  request_message _ := trivial
  task_message _ := trivial
  message_task _ := trivial
  receive _ _ _ := ⟨fun _ _ => trivial,fun _ _ => trivial⟩
  call _ holds _ _ writes moved := by
    obtain ⟨trees,next⟩ := moved.stores (fun _ _ final => final.retries) (fun _ chosen => initialStatus_pending chosen)
      holds.shared writes
    exact ⟨trees,next _ rfl⟩
  answer _ holds _ _ writes moved :=
    ⟨(moved.stores (fun _ _ final => final.retries) (fun _ chosen => initialStatus_pending chosen)
      holds.shared writes).1,fun _ _ => trivial,fun _ _ => trivial⟩
  work _ holds _ _ writes moved := ⟨moved.stores holds.shared writes,fun _ same => moved.valid same⟩
  restart _ holds _ _ _ := ⟨holds.shared,fun _ _ => trivial⟩

theorem validStatuses_reaches {guard : State Proof Encoded Body → Action Proof Body → Prop} {config : Config}
    {s : State Proof Encoded Body} (run : Reaches (State.step deps) guard (State.initial config) s) :
    (validStatuses deps).Holds s :=
  Assertions.holds_reaches validStatuses_stable (run.weaken fun _ _ _ => trivial) (fun _ _ => trivial)
    ⟨stores_empty _,stores_empty _⟩

def PdaRunner.Records (runner : PdaRunner Encoded) (key : Bytes) : Prop :=
  key ∈ runner.queueDb ∨ key ∈ runner.finishedDb

theorem PdaRunner.moveToQueue_records {runner : PdaRunner Encoded} {key : Bytes}
    (recorded : runner.Records key) (written : Bytes) (status : JobStatus Proof) :
    (runner.moveToQueue deps written status).Records key := by
  by_cases same : key = written
  · exact .inl (AList.mem_insert _ |>.mpr (.inl same))
  · rcases recorded with queued | finished
    · exact .inl (AList.mem_insert _ |>.mpr (.inr queued))
    · exact .inr (AList.mem_erase.mpr ⟨same,finished⟩)

theorem PdaRunner.moveToFinished_records {runner : PdaRunner Encoded} {key : Bytes}
    (recorded : runner.Records key) (written : Bytes) (status : JobStatus Proof) :
    (runner.moveToFinished deps written status).Records key := by
  by_cases same : key = written
  · exact .inr (AList.mem_insert _ |>.mpr (.inl same))
  · rcases recorded with queued | finished
    · exact .inl (AList.mem_erase.mpr ⟨same,queued⟩)
    · exact .inr (AList.mem_insert _ |>.mpr (.inr finished))

theorem CallStep.records {config : Config} {job : Job} {fault : Fault} {runner after : PdaRunner Encoded}
    {call : Call Proof} {progress : Progress (Call Proof) (CallResult Proof)} {key : Bytes}
    (moved : CallStep deps config job fault runner call after progress) (recorded : runner.Records key) :
    after.Records key := by
  cases moved with
  | retried error retryStatus => exact PdaRunner.moveToQueue_records recorded _ _
  | inserted status => exact recorded.imp (fun queued => AList.mem_insert _ |>.mpr (.inr queued)) id
  | _ => exact recorded

theorem TaskStep.records {config : Config} {job : Job} {runner after : PdaRunner Encoded}
    {stage : Stage Proof} {answer : Answer Proof} {progress : Progress (Stage Proof) ProveResult} {key : Bytes}
    (moved : TaskStep deps config job runner stage answer after progress) (recorded : runner.Records key) :
    after.Records key := by
  cases moved with
  | finalized status => exact PdaRunner.moveToFinished_records recorded _ _
  | updated status => exact PdaRunner.moveToQueue_records recorded _ _
  | _ => exact recorded

@[simp] theorem State.deliver_runner (s : State Proof Encoded Body) (origin : IncomingRequest Body)
    (outcome : Inbound Body) : (s.deliver origin outcome).runner = s.runner := by
  cases outcome <;> rfl

@[simp] theorem State.deliver_answered (s : State Proof Encoded Body) (origin : IncomingRequest Body)
    (outcome : Inbound Body) : (s.deliver origin outcome).answered = s.answered := by
  cases outcome <;> rfl

@[simp] theorem State.deliver_tasks (s : State Proof Encoded Body) (origin : IncomingRequest Body)
    (outcome : Inbound Body) : (s.deliver origin outcome).tasks = s.tasks := by
  cases outcome <;> rfl

@[simp] theorem State.deliver_process (s : State Proof Encoded Body) (origin : IncomingRequest Body)
    (outcome : Inbound Body) : (s.deliver origin outcome).process = s.process := by
  cases outcome <;> rfl

@[simp] theorem State.deliver_config (s : State Proof Encoded Body) (origin : IncomingRequest Body)
    (outcome : Inbound Body) : (s.deliver origin outcome).config = s.config := by
  cases outcome <;> rfl

/-- Only a handler that has come to its end adds to what was served. -/
theorem State.deliver_done {s : State Proof Encoded Body} {origin other : IncomingRequest Body}
    {inbound : Inbound Body} {result : InboundResult Body}
    (ended : (s.deliver origin inbound).served = s.served ++ [(other,result)]) :
    origin = other ∧ inbound = .done result := by
  cases inbound with
  | encrypt submission => simp [State.deliver] at ended
  | done earlier =>
    have same := List.append_cancel_left ended
    cases same
    exact ⟨rfl,rfl⟩

/-- The process is killed at no moment that loses a write. -/
def Action.Lossless : Action Proof Body → Prop
  | .crash lost => lost = 0
  | .receive _ | .request _ _ | .recv | .task _ _ | .shutdown | .exit | .restart _ => True

instance : DecidablePred (Action.Lossless : Action Proof Body → Prop)
  | .crash lost => inferInstanceAs (Decidable (lost = 0))
  | .receive _ | .request _ _ | .recv | .task _ _ | .shutdown | .exit | .restart _ => inferInstanceAs (Decidable True)

/-- A crash that loses nothing leaves what the trees held. -/
theorem Action.Lossless.found {lost : Nat} {runner : PdaRunner Encoded} {found : SledTree Encoded × SledTree Encoded}
    (lossless : (Action.crash lost : Action Proof Body).Lossless) (left : runner.contents[lost]? = some found) :
    found = (runner.queueDb,runner.finishedDb) := by
  obtain rfl : lost = 0 := lossless
  exact (Option.some.inj left).symm

theorem records_step {s t : State Proof Encoded Body} {action : Action Proof Body} {key : Bytes}
    (lossless : action.Lossless) (stepped : s.step deps action = some t) (recorded : s.runner.Records key) :
    t.runner.Records key := by
  cases step_cases stepped with
  | receive => simpa using recorded
  | callNext i fault before thread after runner call found pool moved => exact moved.records recorded
  | callReturned i fault before thread after runner result found pool moved =>
    simpa using moved.records recorded
  | taskNext i answer before task after runner stage found pool moved => exact moved.records recorded
  | taskEnded i answer before task after runner progress found pool ended moved => exact moved.records recorded
  | crash lost found up left =>
    obtain rfl := lossless.found left
    exact recorded
  | _ => exact recorded

/-- The job is recorded in whatever a crash can leave. -/
def PdaRunner.OnDisk (runner : PdaRunner Encoded) (key : Bytes) : Prop :=
  ∀ content ∈ runner.contents, key ∈ content.1 ∨ key ∈ content.2

theorem PdaRunner.OnDisk.records {runner : PdaRunner Encoded} {key : Bytes} (onDisk : runner.OnDisk key) :
    runner.Records key :=
  onDisk _ List.mem_cons_self

theorem PdaRunner.OnDisk.written {runner after : PdaRunner Encoded} {key : Bytes} (onDisk : runner.OnDisk key)
    (recorded : after.Records key) (unflushed : ∀ content ∈ after.unflushed, content ∈ runner.contents) :
    after.OnDisk key :=
  List.forall_mem_cons.mpr ⟨recorded,fun content member => onDisk content (unflushed content member)⟩

theorem onDisk_step {s t : State Proof Encoded Body} {action : Action Proof Body} {key : Bytes}
    (stepped : s.step deps action = some t) (onDisk : s.runner.OnDisk key) : t.runner.OnDisk key := by
  cases step_cases stepped with
  | receive => simpa using onDisk
  | callNext i fault before thread after runner call found pool moved =>
    exact onDisk.written (moved.records onDisk.records) moved.unflushed
  | callReturned i fault before thread after runner result found pool moved =>
    rw [State.deliver_runner]
    exact onDisk.written (moved.records onDisk.records) moved.unflushed
  | taskNext i answer before task after runner stage found pool moved
  | taskEnded i answer before task after runner progress found pool ended moved =>
    exact onDisk.written (moved.records onDisk.records) moved.unflushed
  | exit => exact List.forall_mem_singleton.mpr onDisk.records
  | crash lost found up left => exact List.forall_mem_singleton.mpr (onDisk found (List.mem_of_getElem? left))
  | _ => exact onDisk

/-- What the code relies on when it reads its trees back. -/
structure WellFormed (deps : Dependencies Proof Encoded Body) (s : State Proof Encoded Body) : Prop where
  queue : ∀ key data, s.runner.queueDb.lookup key = some data →
    ∃ status, deps.statusCodec.deserialize data = .ok status ∧
      (status = .localZkProofPending ∨ status = .remoteZkProofRequesting ∨
        ∃ requestId, status = .remoteZkProofPending requestId)
  finished : ∀ key data, s.runner.finishedDb.lookup key = some data →
    ∃ status, deps.statusCodec.deserialize data = .ok status ∧
      ((∃ proof, status = .zkProofFinished proof) ∨ ∃ error retryStatus, status = .failed error retryStatus ∧
        ∀ retry ∈ retryStatus, ∃ stage, startingStage retry = .next stage)
  /-- No task takes the branch that logs an invalid queue status. -/
  proves : ∀ job data status, s.runner.queueDb.lookup (deps.jobKey job) = some data →
    deps.statusCodec.deserialize data = .ok status → ∃ stage, startingStage status = .next stage
  /-- No call takes the branch that reports an invalid finished status. -/
  readsFinished : ∀ job, getVerifiableEncryption deps s.config job none s.runner .readFinished ≠
    (s.runner,.returned (.error (.internalError "PLEASE REPORT! Finished DB is in invalid state")))
  /-- No call takes the branch that reports an invalid queue status. -/
  readsQueue : ∀ job, getVerifiableEncryption deps s.config job none s.runner .readQueue ≠
    (s.runner,.returned (.error (.internalError
      ("0x" ++ bytesToHex (deps.jobKey job) ++ " - Job queue is in invalid state"))))

theorem text_ne {text other : String} {c d : Char} (textHead : text.toList.head? = some c)
    (otherHead : other.toList.head? = some d) (different : c ≠ d) : text ≠ other := by
  intro same
  rw [same,otherHead] at textHead
  exact different (Option.some.inj textHead).symm

theorem head_append {start : String} (rest : String) {c : Char} (head : start.toList.head? = some c) :
    (start ++ rest).toList.head? = some c := by
  rw [String.toList_append,List.head?_append,head,Option.some_or]

theorem debug_ne (error : PdaRunnerError) : error.debug ≠ "PLEASE REPORT! Finished DB is in invalid state" := by
  cases error with
  | internalError s | zkClientError s | daClientError s | invalidParameter s =>
    exact text_ne (head_append _ (head_append s rfl)) rfl (by decide)

theorem unknown_ne (unknown hex : String) :
    "SP1_PROVER is unkown: " ++ unknown ≠ "0x" ++ hex ++ " - Job queue is in invalid state" :=
  text_ne (head_append unknown rfl) (head_append _ (head_append hex rfl)) (by decide)

theorem wellFormed_of_stores {s : State Proof Encoded Body}
    (trees : StoresBoth deps s.runner.queueDb s.runner.finishedDb (fun _ => JobStatus.IsPending)
      (fun _ => JobStatus.IsFinal)) : WellFormed deps s where
  queue := by
    intro key data found
    obtain ⟨status,read,pending⟩ := trees.queue.readable found
    refine ⟨status,read,?_⟩
    cases status with
    | localZkProofPending => exact .inl rfl
    | remoteZkProofRequesting => exact .inr (.inl rfl)
    | remoteZkProofPending requestId => exact .inr (.inr ⟨requestId,rfl⟩)
    | zkProofFinished | failed => cases pending
  finished := by
    intro key data found
    obtain ⟨status,read,final⟩ := trees.finished.readable found
    refine ⟨status,read,?_⟩
    cases status with
    | zkProofFinished proof => exact .inl ⟨proof,rfl⟩
    | failed error retryStatus =>
      exact .inr ⟨error,retryStatus,rfl,fun retry member => (final retry member).starts⟩
    | localZkProofPending | remoteZkProofRequesting | remoteZkProofPending => cases final
  proves := fun job data status found read => (trees.queue.read found read).starts
  readsFinished := by
    intro job taken
    simp only [getVerifiableEncryption] at taken
    cases stored : s.runner.finishedDb.lookup (deps.jobKey job) with
    | none => simp [stored] at taken
    | some data =>
      obtain ⟨status,read,final⟩ := trees.finished.readable stored
      simp only [stored,read] at taken
      cases status with
      | zkProofFinished proof => simp at taken
      | failed error retryStatus =>
        cases retryStatus with
        | none => simp [debug_ne error] at taken
        | some retry => simp at taken
      | localZkProofPending | remoteZkProofRequesting | remoteZkProofPending => cases final
  readsQueue := by
    intro job taken
    simp only [getVerifiableEncryption] at taken
    cases stored : s.runner.queueDb.lookup (deps.jobKey job) with
    | some data =>
      obtain ⟨status,read,pending⟩ := trees.queue.readable stored
      simp only [stored,read] at taken
      cases status with
      | localZkProofPending | remoteZkProofRequesting | remoteZkProofPending => simp at taken
      | zkProofFinished | failed => cases pending
    | none =>
      simp only [stored,initialStatus] at taken
      split at taken
      next => simp at taken
      next e chosen =>
        split at chosen <;> cases chosen
        simp [unknown_ne] at taken
      next => simp at taken

end PdaProxy
