import PdaProxy.SerialCalls

/-! The state machine of a job. JobStatus lists its states; which of them can follow which is
nowhere checked, as neither transaction reads what it overwrites. Where nothing comes between
the reads and the write of a call, the status in the trees takes only the transitions below. -/
namespace PdaProxy
open PdaProxy.Semantics PdaProxy.Semantics.Serialization PdaProxy.Semantics.Transition PdaProxy.Semantics.Pool

variable {Proof Encoded Body : Type}

/-- The transitions of a job, from not being known on. -/
inductive Lifecycle : Option (JobStatus Proof) → Option (JobStatus Proof) → Prop
  | queuedLocal : Lifecycle none (some .localZkProofPending)
  | queuedRemote : Lifecycle none (some .remoteZkProofRequesting)
  | requested (requestId) : Lifecycle (some .remoteZkProofRequesting) (some (.remoteZkProofPending requestId))
  | provedLocal (proof) : Lifecycle (some .localZkProofPending) (some (.zkProofFinished proof))
  | provedRemote (requestId proof) : Lifecycle (some (.remoteZkProofPending requestId)) (some (.zkProofFinished proof))
  | failed (status error) (pending : status.IsPending) : Lifecycle (some status) (some (.failed error none))
  | failedRetryable (status error) (pending : status.IsPending) :
      Lifecycle (some status) (some (.failed error (some .remoteZkProofRequesting)))
  | retried (error) : Lifecycle (some (.failed error (some .remoteZkProofRequesting))) (some .remoteZkProofRequesting)

/-- The status of a job, in whichever tree it is. -/
def PdaRunner.status (deps : Dependencies Proof Encoded Body) (runner : PdaRunner Encoded) (key : Bytes) :
    Option (JobStatus Proof) :=
  (statusAt deps runner.queueDb key).or (statusAt deps runner.finishedDb key)

/-- What the queue says of a job while its task is there. -/
def Stage.Agrees (status : Option (JobStatus Proof)) : Stage Proof → Prop
  | .readQueue => True
  | .localPending => status = some .localZkProofPending
  | .remoteRequesting => status = some .remoteZkProofRequesting
  | .remotePending requestId => status = some (.remoteZkProofPending requestId)
  | .finalize result => Lifecycle status (some result)
  | .updateStatus next => status = some .remoteZkProofRequesting ∧ ∃ requestId, next = .remoteZkProofPending requestId
  | .sendBack => ∃ requestId, status = some (.remoteZkProofPending requestId)

/-- A call queues a job with one of the two statuses that start it, and retries with the second. -/
def Call.StartsAnew : Call Proof → Prop
  | .insert status => status = .localZkProofPending ∨ status = .remoteZkProofRequesting
  | .retryTransaction _ retryStatus => retryStatus = .remoteZkProofRequesting
  | .readFinished | .retrySend _ | .readQueue | .send => True

def JobStatus.RetriesAnew (status : JobStatus Proof) : Prop :=
  ∀ error retryStatus, status = .failed error (some retryStatus) → retryStatus = .remoteZkProofRequesting

def Stage.RetriesAnew : Stage Proof → Prop
  | .finalize result => result.RetriesAnew
  | .readQueue | .localPending | .remoteRequesting | .remotePending _ | .updateStatus _ | .sendBack => True

/-- Every stored failure that can be retried starts over with a new request to the network. -/
def startsAnew (deps : Dependencies Proof Encoded Body) : Assertions Proof Encoded Body where
  shared _ _ finishedDb := Stores deps finishedDb (fun _ => JobStatus.RetriesAnew)
  request _ _ call := call.StartsAnew
  task _ _ stage := stage.RetriesAnew
  message _ _ := True
  served _ _ _ := True

variable {deps : Dependencies Proof Encoded Body}

theorem initialStatus_startsAnew {config : Config} {status : JobStatus Proof}
    (chosen : initialStatus config = .next status) : (Call.insert status).StartsAnew := by
  unfold initialStatus at chosen
  split at chosen <;> cases chosen
  · exact .inr rfl
  all_goals exact .inl rfl

theorem handleZkClientError_retriesAnew (error : SP1NetworkError) (job : Job) :
    (handleZkClientError deps error job).2.RetriesAnew := by
  intro reported retryStatus same
  obtain ⟨stored,final | retryable⟩ := @handleZkClientError_status Proof Encoded Body deps error job
  · cases final.symm.trans same
  · cases retryable.symm.trans same
    rfl

section
variable {config : Config} {job : Job} {runner after : PdaRunner Encoded}

theorem CallStep.startsAnew {fault : Fault} {call : Call Proof} {progress : Progress (Call Proof) (CallResult Proof)}
    (stores : Stores deps runner.finishedDb (fun _ => JobStatus.RetriesAnew))
    (moved : CallStep deps config job fault runner call after progress) :
    Stores deps after.finishedDb (fun _ => JobStatus.RetriesAnew) ∧ ∀ next, progress = .next next → next.StartsAnew := by
  cases moved with
  | retried error retryStatus => exact ⟨stores.erase _,fun _ same => by cases same; trivial⟩
  | retryable data error retryStatus stored read =>
    refine ⟨stores,fun _ same => ?_⟩
    cases same
    exact stores.read stored read error retryStatus rfl
  | unqueued status absent chosen =>
    refine ⟨stores,fun _ same => ?_⟩
    cases same
    exact initialStatus_startsAnew chosen
  | unfinished | inserted => exact ⟨stores,fun _ same => by cases same; trivial⟩
  | failed | panicked | finished | resent | pending | sent => exact ⟨stores,fun _ same => by cases same⟩

theorem TaskStep.startsAnew {stage : Stage Proof} {answer : Answer Proof} {progress : Progress (Stage Proof) ProveResult}
    (stores : Stores deps runner.finishedDb (fun _ => JobStatus.RetriesAnew)) (anew : stage.RetriesAnew)
    (moved : TaskStep deps config job runner stage answer after progress) :
    Stores deps after.finishedDb (fun _ => JobStatus.RetriesAnew) ∧
      ∀ next, progress = .next next → next.RetriesAnew := by
  cases moved with
  | finalized status => exact ⟨stores.insert anew,fun _ same => by cases same⟩
  | updated status => exact ⟨stores.erase _,fun _ same => by cases same; trivial⟩
  | refusedLocal nonce error | refusedRemote nonce error | refusedWait requestId error =>
    refine ⟨stores,fun _ same => ?_⟩
    cases same
    exact handleZkClientError_retriesAnew error job
  | proved | waited => exact ⟨stores,fun _ same => by cases same; exact fun _ _ failed => by cases failed⟩
  | lost stage answer progress unhandled ended => exact ⟨stores,fun next same => absurd same (ended next)⟩
  | started data status stored read => exact ⟨stores,fun _ same => by cases status <;> cases same <;> trivial⟩
  | requested => exact ⟨stores,fun _ same => by cases same; trivial⟩
  | unqueued | unreadable | sentBack => exact ⟨stores,fun _ same => by cases same⟩

end

theorem startsAnew_stable : (startsAnew deps).Stable deps (fun _ _ => True) (fun _ => True) where
  shared_grows _ _ stores _ := stores
  request_grows _ _ anew := anew
  task_grows _ _ anew := anew
  message_grows _ _ _ := trivial
  served_grows _ _ := trivial
  request_message _ := trivial
  task_message _ := trivial
  message_task _ := trivial
  receive _ _ _ := ⟨fun _ _ => trivial,fun _ _ => trivial⟩
  call _ holds _ _ _ moved := by
    obtain ⟨stores,next⟩ := moved.startsAnew holds.shared
    exact ⟨stores,next _ rfl⟩
  answer _ holds _ _ _ moved := ⟨(moved.startsAnew holds.shared).1,fun _ _ => trivial,fun _ _ => trivial⟩
  work _ holds _ _ anew moved := moved.startsAnew holds.shared anew
  restart _ holds _ _ _ := ⟨holds.shared,fun _ _ => trivial⟩

theorem startsAnew_reaches {guard : State Proof Encoded Body → Action Proof Body → Prop} {config : Config}
    {s : State Proof Encoded Body} (run : Reaches (State.step deps) guard (State.initial config) s) :
    (startsAnew deps).Holds s :=
  Assertions.holds_reaches startsAnew_stable (run.weaken fun _ _ _ => trivial) (fun _ _ => trivial) (stores_empty _)

section
variable {tree other : SledTree Encoded} {key : Bytes} {status : JobStatus Proof}

theorem statusAt_insert : statusAt deps (tree.insert key (deps.statusCodec.serialize status)) key = some status := by
  simp [statusAt,deps.statusCodec.round_trip,Except.toOption]

theorem statusAt_absent (absent : key ∉ tree) : statusAt deps tree key = (none : Option (JobStatus Proof)) := by
  simp [statusAt,AList.lookup_eq_none.mpr absent]

theorem statusAt_stored {data : Encoded} (stored : tree.lookup key = some data)
    (read : deps.statusCodec.deserialize data = .ok status) : statusAt deps tree key = some status := by
  simp [statusAt,stored,read,Except.toOption]

theorem statusAt_same (same : tree.lookup key = other.lookup key) : statusAt deps tree key = statusAt deps other key := by
  rw [statusAt,statusAt,same]

theorem retryable_stored (stores : Stores deps tree (fun _ => JobStatus.RetriesAnew))
    (retryable : ((statusAt deps tree key).map JobStatus.isRetryable).getD false = true) :
    ∃ error, statusAt deps tree key = some (.failed error (some .remoteZkProofRequesting)) := by
  cases stored : tree.lookup key with
  | none => simp [statusAt,stored] at retryable
  | some data =>
    obtain ⟨status,read,anew⟩ := stores.readable stored
    rw [statusAt_stored stored read] at retryable ⊢
    cases status with
    | failed error retryStatus =>
      cases retryStatus with
      | none => cases retryable
      | some status =>
        obtain rfl := anew error status rfl
        exact ⟨error,rfl⟩
    | _ => cases retryable

end

section
variable {config : Config} {job : Job} {runner after : PdaRunner Encoded}

theorem PdaRunner.status_same {key : Bytes} (queue : after.queueDb.lookup key = runner.queueDb.lookup key)
    (finished : after.finishedDb.lookup key = runner.finishedDb.lookup key) :
    after.status deps key = runner.status deps key := by
  rw [PdaRunner.status,PdaRunner.status,statusAt_same queue,statusAt_same finished]

/-- A call whose reads still hold starts its job or retries it, or leaves its status. -/
theorem CallStep.lifecycle {fault : Fault} {call : Call Proof} {progress : Progress (Call Proof) (CallResult Proof)}
    (inserts : ∀ status, call = .insert status → deps.jobKey job ∉ runner.queueDb ∧ deps.jobKey job ∉ runner.finishedDb)
    (retries : ∀ error status, call = .retryTransaction error status → deps.jobKey job ∉ runner.queueDb ∧
      ((statusAt deps runner.finishedDb (deps.jobKey job)).map JobStatus.isRetryable).getD false = true)
    (anew : call.StartsAnew) (stores : Stores deps runner.finishedDb (fun _ => JobStatus.RetriesAnew))
    (moved : CallStep deps config job fault runner call after progress) :
    after.status deps (deps.jobKey job) = runner.status deps (deps.jobKey job) ∨
      Lifecycle (runner.status deps (deps.jobKey job)) (after.status deps (deps.jobKey job)) := by
  cases moved with
  | retried error retryStatus =>
    obtain ⟨unqueued,retryable⟩ := retries _ _ rfl
    obtain ⟨stored,failed⟩ := retryable_stored stores retryable
    have before : runner.status deps (deps.jobKey job) = some (.failed stored (some .remoteZkProofRequesting)) := by
      rw [PdaRunner.status,statusAt_absent unqueued,failed,Option.none_or]
    have later : (runner.moveToQueue deps (deps.jobKey job) retryStatus).status deps (deps.jobKey job) =
        some retryStatus := by
      rw [PdaRunner.status,PdaRunner.moveToQueue,statusAt_insert,Option.some_or]
    obtain rfl : retryStatus = .remoteZkProofRequesting := anew
    exact .inr (by rw [before,later]; exact .retried stored)
  | inserted status =>
    obtain ⟨unqueued,unfinished⟩ := inserts _ rfl
    have before : runner.status deps (deps.jobKey job) = (none : Option (JobStatus Proof)) := by
      rw [PdaRunner.status,statusAt_absent unqueued,statusAt_absent unfinished,Option.none_or]
    have later : (runner.insertQueue deps (deps.jobKey job) status).status deps (deps.jobKey job) = some status := by
      rw [PdaRunner.status,PdaRunner.insertQueue,statusAt_insert,Option.some_or]
    rcases anew with rfl | rfl
    · exact .inr (by rw [before,later]; exact .queuedLocal)
    · exact .inr (by rw [before,later]; exact .queuedRemote)
  | _ => exact .inl rfl

/-- A task that the queue agrees with takes its job one transition further, or leaves its status. -/
theorem TaskStep.lifecycle {stage : Stage Proof} {answer : Answer Proof} {progress : Progress (Stage Proof) ProveResult}
    (agrees : stage.Agrees (statusAt deps runner.queueDb (deps.jobKey job)))
    (unfinished : deps.jobKey job ∉ runner.finishedDb)
    (moved : TaskStep deps config job runner stage answer after progress) :
    after.status deps (deps.jobKey job) = runner.status deps (deps.jobKey job) ∨
      Lifecycle (runner.status deps (deps.jobKey job)) (after.status deps (deps.jobKey job)) := by
  have before : runner.status deps (deps.jobKey job) = statusAt deps runner.queueDb (deps.jobKey job) := by
    rw [PdaRunner.status,statusAt_absent unfinished,Option.or_none]
  cases moved with
  | finalized result =>
    have unqueued : deps.jobKey job ∉ runner.queueDb.erase (deps.jobKey job) :=
      fun held => (AList.mem_erase.mp held).1 rfl
    have later : (runner.moveToFinished deps (deps.jobKey job) result).status deps (deps.jobKey job) = some result := by
      rw [PdaRunner.status,PdaRunner.moveToFinished,statusAt_absent unqueued,statusAt_insert,Option.none_or]
    exact .inr (by rw [before,later]; exact agrees)
  | updated next =>
    obtain ⟨requesting,requestId,rfl⟩ := agrees
    have later : (runner.moveToQueue deps (deps.jobKey job) (.remoteZkProofPending requestId)).status deps
        (deps.jobKey job) = some (.remoteZkProofPending requestId) := by
      rw [PdaRunner.status,PdaRunner.moveToQueue,statusAt_insert,Option.some_or]
    exact .inr (by rw [before,later,requesting]; exact .requested requestId)
  | _ => exact .inl rfl

theorem handleZkClientError_lifecycle (error : SP1NetworkError) (job : Job) {status : JobStatus Proof}
    (pending : status.IsPending) : Lifecycle (some status) (some (handleZkClientError deps error job).2) := by
  obtain ⟨reported,same | same⟩ := @handleZkClientError_status Proof Encoded Body deps error job
  · rw [same]
    exact .failed status reported pending
  · rw [same]
    exact .failedRetryable status reported pending

/-- What a task goes on to is a transition of the status it has found. -/
theorem TaskStep.agrees {stage next : Stage Proof} {answer : Answer Proof}
    (agrees : stage.Agrees (statusAt deps runner.queueDb (deps.jobKey job)))
    (moved : TaskStep deps config job runner stage answer after (.next next)) :
    next.Agrees (statusAt deps after.queueDb (deps.jobKey job)) := by
  generalize progressed : Progress.next next = progress at moved
  cases moved with
  | lost _ _ _ _ ended => exact absurd progressed.symm (ended next)
  | started data status stored read =>
    have found : statusAt deps runner.queueDb (deps.jobKey job) = some status := statusAt_stored stored read
    cases status <;> cases progressed <;> exact found
  | refusedLocal nonce error | refusedRemote nonce error | refusedWait requestId error =>
    cases progressed
    change Lifecycle _ _
    rw [show statusAt deps runner.queueDb (deps.jobKey job) = some _ from agrees]
    exact handleZkClientError_lifecycle error job trivial
  | proved nonce proof =>
    cases progressed
    change Lifecycle _ _
    rw [show statusAt deps runner.queueDb (deps.jobKey job) = some _ from agrees]
    exact .provedLocal proof
  | waited requestId proof =>
    cases progressed
    change Lifecycle _ _
    rw [show statusAt deps runner.queueDb (deps.jobKey job) = some _ from agrees]
    exact .provedRemote requestId proof
  | requested nonce requestId usable =>
    cases progressed
    exact ⟨agrees,requestId,rfl⟩
  | updated status =>
    cases progressed
    obtain ⟨_,requestId,rfl⟩ := agrees
    exact ⟨requestId,statusAt_insert⟩
  | unqueued | unreadable | finalized | sentBack => cases progressed

end

variable {s t : State Proof Encoded Body}

/-- What the queue says of the task's job is what the task has found there. -/
def ProveTask.Agrees (deps : Dependencies Proof Encoded Body) (s : State Proof Encoded Body) (task : ProveTask Proof) :
    Prop :=
  task.stage.Agrees (statusAt deps s.runner.queueDb (task.key deps))

/-- A task has its job for itself. -/
theorem alone {before after : List (ProveTask Proof)} {job : Job} {stage : Stage Proof}
    (single : (s.ledger deps).SingleFlight) (pool : s.tasks = before ++ ⟨job,stage⟩ :: after) :
    ¬ Attended deps { s with tasks := before ++ after } (deps.jobKey job) := by
  have unique := single.unique
  simp only [State.ledger,pool,workItems_task,Multiset.nodup_cons] at unique
  rw [attended_iff]
  exact unique.1

theorem queued_of_task (single : (s.ledger deps).SingleFlight) {task : ProveTask Proof} (member : task ∈ s.tasks) :
    task.key deps ∈ s.runner.queueDb :=
  single.queued _ (attended_iff.mp (.running task member rfl))

theorem Current.retries {thread : RequestThread Proof Body} {error : PdaRunnerError} {status : JobStatus Proof}
    (current : Current deps s thread) (retries : thread.call = .retryTransaction error status) :
    thread.key deps ∈ s.runner.finishedDb := by
  rw [Current,retries] at current
  refine AList.lookup_isSome.mp (Option.isSome_iff_ne_none.mpr fun absent => ?_)
  simp [statusAt,absent] at current

/-- A call whose reads still hold writes to no entry of the queue. -/
theorem CallStep.queue_kept {submission : Submission Body} {call : Call Proof} (orderly : (s.ledger deps).Orderly)
    (current : Current deps s ⟨submission,call⟩) {fault : Fault} {runner : PdaRunner Encoded}
    {progress : Progress (Call Proof) (CallResult Proof)}
    (moved : CallStep deps s.config (submission.job deps) fault s.runner call runner progress) {key : Bytes}
    (queued : key ∈ s.runner.queueDb) : runner.queueDb.lookup key = s.runner.queueDb.lookup key := by
  by_cases own : key = deps.jobKey (submission.job deps)
  · subst own
    cases moved with
    | retried error retryStatus =>
      exact absurd (current.retries rfl) (AList.lookup_eq_none.mp (orderly.exclusive.unfinished queued))
    | inserted status => exact absurd queued current.1
    | _ => rfl
  · exact (moved.elsewhere own).1

theorem agrees_same (agrees : ∀ task ∈ s.tasks, task.Agrees deps s) {task : ProveTask Proof} (member : task ∈ s.tasks)
    (same : t.runner.queueDb.lookup (task.key deps) = s.runner.queueDb.lookup (task.key deps)) : task.Agrees deps t := by
  rw [ProveTask.Agrees,statusAt_same same]
  exact agrees task member

theorem agrees_step (orderly : (s.ledger deps).Orderly) (attentive : ∀ thread ∈ s.requests, Attentive deps s thread)
    (agrees : ∀ task ∈ s.tasks, task.Agrees deps s) {action : Action Proof Body} (stepped : s.step deps action = some t) :
    ∀ task ∈ t.tasks, task.Agrees deps t := by
  cases step_cases stepped with
  | receive req up =>
    intro task member
    rw [State.deliver_tasks] at member
    exact agrees_same agrees member (by simp)
  | callNext i fault before thread after runner call found pool moved =>
    intro task member
    have current := (attentive thread (List.mem_of_getElem? found)).current
    exact agrees_same agrees member (moved.queue_kept orderly current (queued_of_task orderly.single member))
  | callReturned i fault before thread after runner result found pool moved =>
    intro task member
    rw [State.deliver_tasks] at member
    have current := (attentive thread (List.mem_of_getElem? found)).current
    refine agrees_same agrees member ?_
    rw [State.deliver_runner]
    exact moved.queue_kept orderly current (queued_of_task orderly.single member)
  | taskNext i answer before task after runner stage found pool moved =>
    intro other member
    rcases mem_others member with rfl | old
    · exact moved.agrees (agrees task (List.mem_of_getElem? found))
    · have apart : other.key deps ≠ task.key deps := fun own => alone orderly.single pool (.running other old own)
      exact agrees_same agrees (pool ▸ mem_removed old) (moved.elsewhere apart).1
  | taskEnded i answer before task after runner progress found pool ended moved =>
    intro other old
    have apart : other.key deps ≠ task.key deps := fun own => alone orderly.single pool (.running other old own)
    exact agrees_same agrees (pool ▸ mem_removed old) (moved.elsewhere apart).1
  | received job rest up sent =>
    intro task member
    rcases List.mem_append.mp member with old | new
    · exact agrees_same agrees old rfl
    · obtain rfl := List.mem_singleton.mp new
      trivial
  | restarted config jobs down recovered =>
    intro task member
    exact agrees_same agrees member rfl
  | callPanicked | stopReceived | shutdown => exact fun task member => agrees_same agrees member rfl
  | exit | crash => exact fun _ member => by cases member
  | restartPanicked => exact agrees

theorem agrees_reaches {config : Config} (run : Reaches (State.step deps) (Undivided deps) (State.initial config) s) :
    ∀ task ∈ s.tasks, task.Agrees deps s := by
  apply run.invariant_with (fun _ part => part)
  · intro before action after known agrees _ stepped
    exact agrees_step (orderly_reaches known) (attentive_reaches known) agrees stepped
  · exact fun _ member => by cases member

/-- A call moves at most the job it is for. -/
theorem CallStep.lifecycle_any {submission : Submission Body} {call : Call Proof} (orderly : (s.ledger deps).Orderly)
    (current : Current deps s ⟨submission,call⟩) (anew : call.StartsAnew)
    (stores : Stores deps s.runner.finishedDb (fun _ => JobStatus.RetriesAnew)) {fault : Fault}
    {runner : PdaRunner Encoded} {progress : Progress (Call Proof) (CallResult Proof)}
    (moved : CallStep deps s.config (submission.job deps) fault s.runner call runner progress) (key : Bytes) :
    runner.status deps key = s.runner.status deps key ∨
      Lifecycle (s.runner.status deps key) (runner.status deps key) := by
  by_cases own : key = deps.jobKey (submission.job deps)
  · subst own
    refine moved.lifecycle ?_ ?_ anew stores
    · rintro status rfl
      exact current
    · rintro error status rfl
      exact ⟨fun queued => AList.lookup_eq_none.mp (orderly.exclusive.unfinished queued) (current.retries rfl),current⟩
  · obtain ⟨queue,finished⟩ := moved.elsewhere own
    exact .inl (PdaRunner.status_same queue finished)

/-- A task moves at most the job it is for. -/
theorem TaskStep.lifecycle_any {task : ProveTask Proof} (orderly : (s.ledger deps).Orderly) (member : task ∈ s.tasks)
    (agrees : task.Agrees deps s) {answer : Answer Proof} {runner : PdaRunner Encoded}
    {progress : Progress (Stage Proof) ProveResult}
    (moved : TaskStep deps s.config task.job s.runner task.stage answer runner progress) (key : Bytes) :
    runner.status deps key = s.runner.status deps key ∨
      Lifecycle (s.runner.status deps key) (runner.status deps key) := by
  have queued := queued_of_task orderly.single member
  by_cases own : key = task.key deps
  · subst own
    exact moved.lifecycle agrees (AList.lookup_eq_none.mp (orderly.exclusive.unfinished queued))
  · obtain ⟨queue,finished⟩ := moved.elsewhere own
    exact .inl (PdaRunner.status_same queue finished)

theorem lifecycle_step (orderly : (s.ledger deps).Orderly) (attentive : ∀ thread ∈ s.requests, Attentive deps s thread)
    (anew : (startsAnew deps).Holds s) (agrees : ∀ task ∈ s.tasks, task.Agrees deps s) {action : Action Proof Body}
    (lossless : action.Lossless) (stepped : s.step deps action = some t) (key : Bytes) :
    t.runner.status deps key = s.runner.status deps key ∨
      Lifecycle (s.runner.status deps key) (t.runner.status deps key) := by
  cases step_cases stepped with
  | receive =>
    rw [State.deliver_runner]
    exact .inl rfl
  | callNext i fault before thread after runner call found pool moved =>
    have member := List.mem_of_getElem? found
    exact moved.lifecycle_any orderly (attentive thread member).current (anew.request thread member) anew.shared key
  | callReturned i fault before thread after runner result found pool moved =>
    rw [State.deliver_runner]
    have member := List.mem_of_getElem? found
    exact moved.lifecycle_any orderly (attentive thread member).current (anew.request thread member) anew.shared key
  | taskNext i answer before task after runner stage found pool moved
  | taskEnded i answer before task after runner progress found pool ended moved =>
    have member := List.mem_of_getElem? found
    exact moved.lifecycle_any orderly member (agrees task member) key
  | crash lost found up left =>
    obtain rfl := lossless.found left
    exact .inl rfl
  | callPanicked | received | stopReceived | shutdown | exit | restarted | restartPanicked => exact .inl rfl

end PdaProxy
