import PdaProxy.Lifecycle
import PdaProxy.Nonces

/-! What a result costs. A job's record counts the attempts to prove it and the retries that
clients have caused; where nothing comes between the reads and the write of a call, the two
numbers tell where the job stands. -/
namespace PdaProxy
open PdaProxy.Semantics PdaProxy.Semantics.Serialization PdaProxy.Semantics.Transition PdaProxy.Semantics.Pool
  PdaProxy.Semantics.Tracking

variable {Proof Encoded Body : Type}

/-- The task goes on to a prover with a new proof. -/
def Stage.attempts : Stage Proof → Bool
  | .localPending | .remoteRequesting => true
  | .readQueue | .remotePending _ | .finalize _ | .updateStatus _ | .sendBack => false

/-- The task has what a prover answered, or waits for it. -/
def Stage.attempted : Stage Proof → Bool
  | .remotePending _ | .finalize _ | .updateStatus _ | .sendBack => true
  | .readQueue | .localPending | .remoteRequesting => false

def Call.retries : Call Proof → Bool
  | .retryTransaction _ _ => true
  | .readFinished | .retrySend _ | .readQueue | .insert _ | .send => false

/-- The keys of the jobs that a task went to a prover with, and of the failures that a call
took out of the finished tree again, each as often as it happened. -/
structure Spending where
  attempts : List Bytes
  retries : List Bytes

section
variable (deps : Dependencies Proof Encoded Body) (s : State Proof Encoded Body)

def State.attempt : Action Proof Body → List Bytes
  | .task i _ => ((s.tasks[i]?.filter (·.stage.attempts)).map (ProveTask.key deps)).toList
  | .receive _ | .request _ _ | .recv | .shutdown | .exit | .crash _ | .restart _ => []

def State.retry : Action Proof Body → List Bytes
  | .request i none => ((s.requests[i]?.filter (·.call.retries)).map (RequestThread.key deps)).toList
  | .request _ (some _) | .receive _ | .recv | .task _ _ | .shutdown | .exit | .crash _ | .restart _ => []

def State.spend (action : Action Proof Body) (_ : State Proof Encoded Body) (log : Spending) : Spending :=
  ⟨log.attempts ++ s.attempt deps action,log.retries ++ s.retry deps action⟩

/-- A prover has been asked for the job, and its answer is not recorded yet. -/
def Asked (key : Bytes) : Prop :=
  (∃ task ∈ s.tasks, task.key deps = key ∧ task.stage.attempted = true) ∨
    ∃ requestId, statusAt deps s.runner.queueDb key = some (.remoteZkProofPending requestId)

end

/-- Where a job stands by its record: an attempt is due, or one more has been made than there
were retries. -/
structure Accounted (deps : Dependencies Proof Encoded Body) (s : State Proof Encoded Body) (log : Spending)
    (key : Bytes) : Prop where
  unknown : ¬ s.runner.Records key → log.attempts.count key = 0 ∧ log.retries.count key = 0
  due : key ∈ (s.ledger deps).items → ¬ Asked deps s key → log.attempts.count key = log.retries.count key
  asked : key ∈ (s.ledger deps).items → Asked deps s key → log.attempts.count key = log.retries.count key + 1
  finished : key ∈ s.runner.finishedDb → log.attempts.count key = log.retries.count key + 1
  bounded : log.attempts.count key ≤ log.retries.count key + 1

variable {deps : Dependencies Proof Encoded Body} {s t : State Proof Encoded Body} {key : Bytes} {log : Spending}

/-- The step did not concern the job of the key. -/
structure Unmoved (deps : Dependencies Proof Encoded Body) (s t : State Proof Encoded Body) (key : Bytes) : Prop where
  queue : t.runner.queueDb.lookup key = s.runner.queueDb.lookup key
  finished : t.runner.finishedDb.lookup key = s.runner.finishedDb.lookup key
  items : key ∈ (t.ledger deps).items ↔ key ∈ (s.ledger deps).items
  tasks : ∀ task, task.key deps = key → task.stage ≠ .readQueue → (task ∈ t.tasks ↔ task ∈ s.tasks)

theorem Unmoved.asked (unmoved : Unmoved deps s t key) : Asked deps t key ↔ Asked deps s key := by
  rw [Asked,Asked,statusAt_same unmoved.queue]
  refine or_congr_left (exists_congr fun task => and_congr_left fun own => ?_)
  refine unmoved.tasks task own.1 fun reading => ?_
  rw [reading] at own
  cases own.2

theorem Accounted.unmoved (accounted : Accounted deps s log key) (unmoved : Unmoved deps s t key) {spent : Spending}
    (attempts : spent.attempts.count key = log.attempts.count key)
    (retries : spent.retries.count key = log.retries.count key) : Accounted deps t spent key := by
  have finished := mem_of_lookup unmoved.finished
  have records : t.runner.Records key ↔ s.runner.Records key := or_congr (mem_of_lookup unmoved.queue) finished
  refine ⟨?_,?_,?_,?_,?_⟩
  · rw [attempts,retries,records]
    exact accounted.unknown
  · rw [attempts,retries,unmoved.items,unmoved.asked]
    exact accounted.due
  · rw [attempts,retries,unmoved.items,unmoved.asked]
    exact accounted.asked
  · rw [attempts,retries,finished]
    exact accounted.finished
  · rw [attempts,retries]
    exact accounted.bounded

/-- Where a job stands that is queued. -/
theorem accounted_of_queued (queued : key ∈ s.runner.queueDb) (unfinished : key ∉ s.runner.finishedDb)
    (due : ¬ Asked deps s key → log.attempts.count key = log.retries.count key)
    (asked : Asked deps s key → log.attempts.count key = log.retries.count key + 1) : Accounted deps s log key where
  unknown unknown := absurd (.inl queued) unknown
  due _ := due
  asked _ := asked
  finished finished := absurd finished unfinished
  bounded := by
    by_cases made : Asked deps s key
    · exact (asked made).le
    · exact (due made).le.trans (Nat.le_succ _)

theorem Performs.on_request {i : Nat} {fault : Fault} {thread : RequestThread Proof Body}
    {operation : Ledger.Operation Bytes Encoded} (found : s.requests[i]? = some thread)
    (performed : Performs deps s (.request i fault) operation) : operation.On (thread.key deps) := by
  cases performed with
  | start _ other _ here | retry _ other _ _ here | unsent _ _ other here =>
    cases found.symm.trans here
    rfl

theorem Performs.on_task {i : Nat} {answer : Answer Proof} {task : ProveTask Proof}
    {operation : Ledger.Operation Bytes Encoded} (found : s.tasks[i]? = some task)
    (performed : Performs deps s (.task i answer) operation) : operation.On (task.key deps) := by
  cases performed with
  | progress _ _ other here | finish _ _ other _ here | lost _ _ other here | unqueued _ _ other here =>
    cases found.symm.trans here
    rfl

theorem Simulated.items_elsewhere {action : Action Proof Body} {own : Bytes} (simulated : Simulated deps s action t)
    (on : ∀ operation, Performs deps s action operation → operation.On own) (different : key ≠ own) :
    key ∈ (t.ledger deps).items ↔ key ∈ (s.ledger deps).items := by
  rcases simulated with same | ⟨operation,performed,moved⟩
  · rw [same]
  · exact Ledger.items_elsewhere (on operation performed) different moved

theorem asked_alone {before after : List (ProveTask Proof)} {job : Job} {stage : Stage Proof}
    (pool : s.tasks = before ++ ⟨job,stage⟩ :: after)
    (others : ∀ other ∈ before ++ after, other.key deps ≠ deps.jobKey job) :
    Asked deps s (deps.jobKey job) ↔ stage.attempted = true ∨
      ∃ requestId, statusAt deps s.runner.queueDb (deps.jobKey job) = some (.remoteZkProofPending requestId) := by
  rw [Asked,pool]
  refine or_congr_left ⟨?_,fun attempted => ⟨⟨job,stage⟩,by simp,rfl,attempted⟩⟩
  intro held
  obtain ⟨other,member,own,attempted⟩ := held
  rcases mem_others member with rfl | old
  · exact attempted
  · exact absurd own (others other old)

/-- A call whose operation fails says so. -/
theorem unfaulted {i : Nat} {fault : Fault} (stepped : s.step deps (.request i fault) = some t)
    (silent : t.answered = s.answered) : fault = none := by
  cases fault with
  | none => rfl
  | some e =>
    obtain ⟨⟨submission,call⟩,_,same⟩ := Option.map_eq_some_iff.mp stepped
    have failed : ∃ error, getVerifiableEncryption deps s.config (submission.job deps) (some e) s.runner call =
        (s.runner,.returned (.error error)) := by
      cases call <;> exact ⟨_,rfl⟩
    obtain ⟨error,failed⟩ := failed
    simp only [State.requestStep,failed] at same
    rw [← same,State.deliver_answered] at silent
    exact absurd silent (by simp)

section
variable {i : Nat} {answer : Answer Proof} {fault : Fault}

theorem spend_task {task : ProveTask Proof} (found : s.tasks[i]? = some task) :
    s.spend deps (.task i answer) t log =
      ⟨log.attempts ++ if task.stage.attempts then [task.key deps] else [],log.retries⟩ := by
  cases attempts : task.stage.attempts <;> simp [State.spend,State.attempt,State.retry,found,attempts]

theorem spend_request {thread : RequestThread Proof Body} (found : s.requests[i]? = some thread) :
    s.spend deps (.request i none) t log =
      ⟨log.attempts,log.retries ++ if thread.call.retries then [thread.key deps] else []⟩ := by
  cases retries : thread.call.retries <;> simp [State.spend,State.attempt,State.retry,found,retries]

end

section
variable {before after : List (ProveTask Proof)} {job : Job} {current stage : Stage Proof} {answer : Answer Proof}
  {runner : PdaRunner Encoded}

/-- A task that is about to go to a prover has found its job with the attempt still due. -/
theorem Accounted.attempt_due (accounted : Accounted deps s log (deps.jobKey job))
    (pool : s.tasks = before ++ ⟨job,stage⟩ :: after)
    (others : ∀ other ∈ before ++ after, other.key deps ≠ deps.jobKey job)
    (agrees : stage.Agrees (statusAt deps s.runner.queueDb (deps.jobKey job))) (attempts : stage.attempts = true) :
    log.attempts.count (deps.jobKey job) = log.retries.count (deps.jobKey job) := by
  refine accounted.due (attended_iff.mp (.running ⟨job,stage⟩ (by simp [pool]) rfl)) fun asked => ?_
  rcases (asked_alone pool others).mp asked with attempted | ⟨requestId,tells⟩
  · cases stage with
    | localPending | remoteRequesting => cases attempted
    | _ => cases attempts
  · cases stage with
    | localPending | remoteRequesting => cases agrees.symm.trans tells
    | _ => cases attempts

/-- A task that has its job for itself goes on: the attempt that was due is made when the task
goes to a prover, and is the last one until the job has a result. -/
theorem Accounted.taskNext (accounted : Accounted deps s log (deps.jobKey job)) (orderly : (s.ledger deps).Orderly)
    (pool : s.tasks = before ++ ⟨job,current⟩ :: after)
    (agrees : current.Agrees (statusAt deps s.runner.queueDb (deps.jobKey job)))
    (moved : TaskStep deps s.config job s.runner current answer runner (.next stage)) (network : Network) :
    Accounted deps { s with runner, network, tasks := before ++ ⟨job,stage⟩ :: after }
      ⟨log.attempts ++ if current.attempts then [deps.jobKey job] else [],log.retries⟩ (deps.jobKey job) := by
  have others : ∀ other ∈ before ++ after, other.key deps ≠ deps.jobKey job :=
    fun other member own => alone orderly.single pool (.running other member own)
  have member : (⟨job,current⟩ : ProveTask Proof) ∈ s.tasks := by simp [pool]
  have running : deps.jobKey job ∈ (s.ledger deps).items := attended_iff.mp (.running _ member rfl)
  have queued : deps.jobKey job ∈ s.runner.queueDb := orderly.single.queued _ running
  have unfinished : deps.jobKey job ∉ s.runner.finishedDb := AList.lookup_eq_none.mp (orderly.exclusive.unfinished queued)
  have askedBefore := asked_alone pool others
  generalize reached : ({ s with runner, network, tasks := before ++ ⟨job,stage⟩ :: after } :
    State Proof Encoded Body) = t
  have poolAfter : t.tasks = before ++ ⟨job,stage⟩ :: after := by rw [← reached]
  have trees : t.runner = runner := by rw [← reached]
  have askedAfter := asked_alone poolAfter others
  have stands (spent : Spending) := @accounted_of_queued _ _ _ deps t (deps.jobKey job) spent
  rw [trees] at askedAfter stands
  generalize progressed : Progress.next stage = progress at moved
  cases moved with
  | lost _ _ _ _ ended => exact absurd progressed.symm (ended stage)
  | started data status stored read =>
    have tells : statusAt deps s.runner.queueDb (deps.jobKey job) = some status := statusAt_stored stored read
    rw [tells] at askedBefore askedAfter
    cases status with
    | localZkProofPending | remoteZkProofRequesting =>
      cases progressed
      have due := accounted.due running (fun asked => by simpa [Stage.attempted] using askedBefore.mp asked)
      refine stands _ queued unfinished (fun _ => by simpa [Stage.attempts] using due) fun asked => ?_
      simpa [Stage.attempted] using askedAfter.mp asked
    | remoteZkProofPending requestId =>
      cases progressed
      have made := accounted.asked running (askedBefore.mpr (.inr ⟨requestId,rfl⟩))
      refine stands _ queued unfinished (fun due => ?_) (fun _ => by simpa [Stage.attempts] using made)
      exact absurd (askedAfter.mpr (.inl rfl)) due
    | zkProofFinished | failed => cases progressed
  | refusedLocal | refusedRemote | proved | requested =>
    cases progressed
    have due := accounted.attempt_due pool others agrees rfl
    refine stands _ queued unfinished (fun due => ?_) (fun _ => by simpa [Stage.attempts] using due)
    exact absurd (askedAfter.mpr (.inl rfl)) due
  | refusedWait | waited =>
    cases progressed
    have made := accounted.asked running (askedBefore.mpr (.inl rfl))
    refine stands _ queued unfinished (fun due => ?_) (fun _ => by simpa [Stage.attempts] using made)
    exact absurd (askedAfter.mpr (.inl rfl)) due
  | updated status =>
    cases progressed
    have made := accounted.asked running (askedBefore.mpr (.inl rfl))
    refine stands _ ((AList.mem_insert _).mpr (.inl rfl)) (fun held => (AList.mem_erase.mp held).1 rfl)
      (fun due => ?_) (fun _ => by simpa [Stage.attempts] using made)
    exact absurd (askedAfter.mpr (.inl rfl)) due
  | unqueued | unreadable | finalized | sentBack => cases progressed

/-- Where a job stands that nobody works on. -/
theorem accounted_of_idle (idle : key ∉ (s.ledger deps).items) (recorded : s.runner.Records key)
    (finished : key ∈ s.runner.finishedDb → log.attempts.count key = log.retries.count key + 1)
    (bounded : log.attempts.count key ≤ log.retries.count key + 1) : Accounted deps s log key where
  unknown unknown := absurd recorded unknown
  due item := absurd item idle
  asked item := absurd item idle
  finished := finished
  bounded := bounded

theorem Accounted.taskEnded (accounted : Accounted deps s log (deps.jobKey job)) (orderly : (s.ledger deps).Orderly)
    (pool : s.tasks = before ++ ⟨job,current⟩ :: after)
    (agrees : current.Agrees (statusAt deps s.runner.queueDb (deps.jobKey job)))
    {progress : Progress (Stage Proof) ProveResult}
    (moved : TaskStep deps s.config job s.runner current answer runner progress) (ended : ∀ next, progress ≠ .next next)
    (network : Network) : Accounted deps { s with runner, network, tasks := before ++ after }
      ⟨log.attempts ++ if current.attempts then [deps.jobKey job] else [],log.retries⟩ (deps.jobKey job) := by
  have others : ∀ other ∈ before ++ after, other.key deps ≠ deps.jobKey job :=
    fun other member own => alone orderly.single pool (.running other member own)
  have member : (⟨job,current⟩ : ProveTask Proof) ∈ s.tasks := by simp [pool]
  have running : deps.jobKey job ∈ (s.ledger deps).items := attended_iff.mp (.running _ member rfl)
  have recorded : s.runner.Records (deps.jobKey job) := .inl (orderly.single.queued _ running)
  have idle := attended_iff.not.mp (alone orderly.single pool)
  have askedBefore := asked_alone pool others
  cases moved with
  | lost _ _ _ _ _ =>
    cases attempts : current.attempts with
    | true =>
      have due := accounted.attempt_due pool others agrees attempts
      exact accounted_of_idle idle recorded (fun _ => by simpa using due) (by simpa using due.le)
    | false =>
      exact accounted_of_idle idle recorded (fun held => by simpa using accounted.finished held)
        (by simpa using accounted.bounded)
  | unqueued | unreadable | started =>
    exact accounted_of_idle idle recorded (fun held => by simpa [Stage.attempts] using accounted.finished held)
      (by simpa [Stage.attempts] using accounted.bounded)
  | finalized status =>
    have made := accounted.asked running (askedBefore.mpr (.inl rfl))
    exact accounted_of_idle idle (PdaRunner.moveToFinished_records recorded _ _)
      (fun _ => by simpa [Stage.attempts] using made) (by simpa [Stage.attempts] using made.le)
  | sentBack =>
    have made := accounted.asked running (askedBefore.mpr (.inl rfl))
    refine ⟨fun unknown => absurd recorded unknown,fun _ due => ?_,fun _ _ => by simpa [Stage.attempts] using made,
      fun _ => by simpa [Stage.attempts] using made,by simpa [Stage.attempts] using made.le⟩
    exact absurd (.inr agrees) due
  | _ => exact absurd rfl (ended _)

end

section
variable {before after : List (RequestThread Proof Body)} {submission : Submission Body} {call next : Call Proof}
  {fault : Fault} {runner : PdaRunner Encoded}

/-- A call that writes nothing and does not leave a send undone. -/
theorem Accounted.quiet (accounted : Accounted deps s log key) {requests : List (RequestThread Proof Body)}
    (answered : List (Answered Proof)) (queue : runner.queueDb = s.runner.queueDb)
    (finished : runner.finishedDb = s.runner.finishedDb)
    (items : workItems deps runner.channel s.tasks requests = workItems deps s.runner.channel s.tasks s.requests) :
    Accounted deps { s with runner, requests, answered } log key := by
  apply accounted.unmoved
  · exact ⟨by rw [queue],by rw [finished],by simp only [State.ledger,items],fun _ _ _ => .rfl⟩
  · rfl
  · rfl

/-- Where a job stands that a call has just queued. -/
theorem accounted_of_call (idle : key ∉ (s.ledger deps).items) {status : JobStatus Proof}
    (unasked : ∀ requestId, status ≠ .remoteZkProofPending requestId)
    (queued : t.runner.queueDb = s.runner.queueDb.insert key (deps.statusCodec.serialize status))
    (unfinished : key ∉ t.runner.finishedDb) (tasks : t.tasks = s.tasks)
    (due : log.attempts.count key = log.retries.count key) : Accounted deps t log key := by
  refine accounted_of_queued (by rw [queued]; exact (AList.mem_insert _).mpr (.inl rfl)) unfinished (fun _ => due) ?_
  intro asked
  rcases asked with ⟨task,member,own,_⟩ | ⟨requestId,tells⟩
  · rw [tasks] at member
    exact absurd (attended_iff.mp (.running task member own)) idle
  · rw [queued,statusAt_insert] at tells
    exact absurd (Option.some.inj tells) (unasked requestId)

theorem Accounted.callNext (accounted : Accounted deps s log (deps.jobKey (submission.job deps)))
    (orderly : (s.ledger deps).Orderly) (current : Current deps s ⟨submission,call⟩)
    (anew : call.StartsAnew) (pool : s.requests = before ++ ⟨submission,call⟩ :: after)
    (moved : CallStep deps s.config (submission.job deps) fault s.runner call runner (.next next)) :
    Accounted deps { s with runner, requests := before ++ ⟨submission,next⟩ :: after }
      ⟨log.attempts,log.retries ++ if call.retries then [deps.jobKey (submission.job deps)] else []⟩
      (deps.jobKey (submission.job deps)) := by
  cases moved with
  | retryable | unfinished | unqueued =>
    simp only [Call.retries,Bool.false_eq_true,if_false,List.append_nil]
    refine accounted.quiet s.answered rfl rfl ?_
    rw [pool,workItems_quiet _ _ _ _ rfl,workItems_quiet _ _ _ _ rfl]
  | retried error retryStatus =>
    have finished := current.retries rfl
    have idle : deps.jobKey (submission.job deps) ∉ (s.ledger deps).items := fun item =>
      AList.lookup_eq_none.mp (orderly.exclusive.unfinished (orderly.single.queued _ item)) finished
    obtain rfl : retryStatus = .remoteZkProofRequesting := anew
    refine accounted_of_call idle (fun _ same => by cases same) rfl (fun held => (AList.mem_erase.mp held).1 rfl) rfl ?_
    simpa [Call.retries] using accounted.finished finished
  | inserted status =>
    obtain ⟨unqueued,unfinished⟩ : deps.jobKey (submission.job deps) ∉ s.runner.queueDb ∧
      deps.jobKey (submission.job deps) ∉ s.runner.finishedDb := current
    have idle : deps.jobKey (submission.job deps) ∉ (s.ledger deps).items := fun item =>
      unqueued (orderly.single.queued _ item)
    obtain ⟨attempts,retries⟩ := accounted.unknown fun recorded => recorded.elim unqueued unfinished
    refine accounted_of_call idle ?_ rfl unfinished rfl ?_
    · rcases anew with rfl | rfl <;> exact fun _ same => by cases same
    · simpa [Call.retries] using attempts.trans retries.symm

/-- A call that returns has not retried; what it leaves undone nobody does. -/
theorem Accounted.callReturned (accounted : Accounted deps s log (deps.jobKey (submission.job deps)))
    (orderly : (s.ledger deps).Orderly) (pool : s.requests = before ++ ⟨submission,call⟩ :: after)
    {result : CallResult Proof} (answered : List (Answered Proof))
    (moved : CallStep deps s.config (submission.job deps) fault s.runner call runner (.returned result)) :
    Accounted deps { s with runner, requests := before ++ after, answered } log (deps.jobKey (submission.job deps)) := by
  cases moved with
  | failed _ error refused =>
    cases sends : call.sends with
    | false =>
      refine accounted.quiet answered rfl rfl ?_
      rw [pool,workItems_quiet _ _ _ _ sends]
    | true =>
      have unique := orderly.single.unique
      have sending : deps.jobKey (submission.job deps) ∈ (s.ledger deps).items :=
        attended_iff.mp (.sending ⟨submission,call⟩ (by simp [pool]) sends rfl)
      simp only [State.ledger,pool] at unique
      rw [workItems_sending _ _ _ _ sends,Multiset.nodup_cons] at unique
      exact accounted_of_idle unique.1 (.inl (orderly.single.queued _ sending)) accounted.finished accounted.bounded
  | finished | pending =>
    refine accounted.quiet answered rfl rfl ?_
    rw [pool,workItems_quiet _ _ _ _ rfl]
  | resent | sent =>
    refine accounted.quiet answered rfl rfl ?_
    rw [PdaRunner.send,workItems_sent,pool,workItems_sending _ _ _ _ rfl]
    rfl

end

/-- Everything in memory is gone. -/
theorem Accounted.dropped (accounted : Accounted deps s log key) (queue : t.runner.queueDb = s.runner.queueDb)
    (finished : t.runner.finishedDb = s.runner.finishedDb) (empty : (t.ledger deps).items = 0) :
    Accounted deps t log key := by
  have idle : key ∉ (t.ledger deps).items := by simp [empty]
  refine ⟨?_,fun item => absurd item idle,fun item => absurd item idle,?_,accounted.bounded⟩
  · simpa only [PdaRunner.Records,queue,finished] using accounted.unknown
  · simpa only [finished] using accounted.finished

theorem unmoved_deliver (s : State Proof Encoded Body) (origin : IncomingRequest Body) (inbound : Inbound Body) :
    Unmoved deps s (s.deliver origin inbound) key :=
  ⟨by simp,by simp,by simp,by simp⟩

theorem count_other {own : Bytes} (different : key ≠ own) (keys : List Bytes) (spent : Bool) :
    (keys ++ if spent then [own] else []).count key = keys.count key := by
  cases spent <;> simp [different.symm]

theorem spend_idle {action : Action Proof Body} (attempt : s.attempt deps action = [])
    (retry : s.retry deps action = []) : s.spend deps action t log = log := by
  simp [State.spend,attempt,retry]

theorem spend_unretried {i : Nat} {fault : Fault} {thread : RequestThread Proof Body}
    (found : s.requests[i]? = some thread) (unretried : fault = none → thread.call.retries = false) :
    s.spend deps (.request i fault) t log = log := by
  cases fault with
  | none => simp [spend_request found,unretried rfl]
  | some e => exact spend_idle rfl rfl

theorem CallStep.unretried {config : Config} {job : Job} {fault : Fault} {runner after : PdaRunner Encoded}
    {call : Call Proof} {result : CallResult Proof}
    (moved : CallStep deps config job fault runner call after (.returned result))
    (unfaulted : fault = none) : call.retries = false := by
  cases moved with
  | failed call error refused => rcases refused unfaulted with rfl | rfl <;> rfl
  | finished | resent | pending | sent => rfl

theorem accounted_step (orderly : (s.ledger deps).Orderly) (attentive : ∀ thread ∈ s.requests, Attentive deps s thread)
    (anew : (startsAnew deps).Holds s) (agrees : ∀ task ∈ s.tasks, task.Agrees deps s)
    (valid : (validStatuses deps).Holds s)
    (hashed : (hashKeys deps).Holds s) (accounted : ∀ key, Accounted deps s log key) {action : Action Proof Body}
    (lossless : action.Lossless) (stepped : s.step deps action = some t) (key : Bytes) :
    Accounted deps t (s.spend deps action t log) key := by
  have simulated := ledger_step valid hashed stepped
  cases step_cases stepped with
  | receive req up =>
    rw [spend_idle rfl rfl]
    exact (accounted key).unmoved (unmoved_deliver _ _ _) rfl rfl
  | callNext i fault before thread after runner call found pool moved =>
    obtain rfl := unfaulted stepped rfl
    obtain ⟨submission,current⟩ := thread
    have member := List.mem_of_getElem? found
    rw [spend_request found]
    by_cases own : key = deps.jobKey (submission.job deps)
    · subst own
      exact (accounted _).callNext orderly (attentive _ member).current (anew.request _ member) pool moved
    · obtain ⟨queue,finished⟩ := moved.elsewhere own
      have items := simulated.items_elsewhere (fun _ performed => performed.on_request found) own
      exact (accounted key).unmoved ⟨queue,finished,items,fun _ _ _ => .rfl⟩ rfl (count_other own _ _)
  | callPanicked i fault before thread after found pool reading =>
    rw [spend_unretried found (fun _ => by rw [reading]; rfl)]
    refine (accounted key).quiet s.answered rfl rfl ?_
    rw [pool,workItems_quiet _ _ _ _ (by rw [reading]; rfl)]
  | callReturned i fault before thread after runner result found pool moved =>
    obtain ⟨submission,current⟩ := thread
    rw [spend_unretried found moved.unretried]
    by_cases own : key = deps.jobKey (submission.job deps)
    · subst own
      exact ((accounted _).callReturned orderly pool _ moved).unmoved (unmoved_deliver _ _ _) rfl rfl
    · obtain ⟨queue,finished⟩ := moved.elsewhere own
      have items := simulated.items_elsewhere (fun _ performed => performed.on_request found) own
      exact (accounted key).unmoved ⟨by simpa using queue,by simpa using finished,items,by simp⟩ rfl rfl
  | taskNext i answer before task after runner stage found pool moved =>
    obtain ⟨job,current⟩ := task
    rw [spend_task found]
    by_cases own : key = deps.jobKey job
    · subst own
      exact (accounted _).taskNext orderly pool (agrees _ (List.mem_of_getElem? found)) moved _
    · obtain ⟨queue,finished⟩ := moved.elsewhere own
      have items := simulated.items_elsewhere (fun _ performed => performed.on_task found) own
      refine (accounted key).unmoved ⟨queue,finished,items,fun task same _ => ?_⟩ (count_other own _ _) rfl
      have apart (stage : Stage Proof) : task ≠ ⟨job,stage⟩ := fun here => own (by rw [← same,here]; rfl)
      rw [pool]
      exact (mem_rest (apart stage)).symm.trans (mem_rest (apart current))
  | taskEnded i answer before task after runner progress found pool ended moved =>
    obtain ⟨job,current⟩ := task
    rw [spend_task found]
    by_cases own : key = deps.jobKey job
    · subst own
      exact (accounted _).taskEnded orderly pool (agrees _ (List.mem_of_getElem? found)) moved ended _
    · obtain ⟨queue,finished⟩ := moved.elsewhere own
      have items := simulated.items_elsewhere (fun _ performed => performed.on_task found) own
      refine (accounted key).unmoved ⟨queue,finished,items,fun task same _ => ?_⟩ (count_other own _ _) rfl
      have apart : task ≠ ⟨job,current⟩ := fun here => own (by rw [← same,here]; rfl)
      rw [pool]
      exact mem_rest apart
  | received job rest up sent =>
    rw [spend_idle rfl rfl]
    refine (accounted key).unmoved ?_ rfl rfl
    refine ⟨rfl,rfl,?_,fun task _ working => ?_⟩
    · simp only [State.ledger,sent,workItems_received,workItems_task,List.append_nil]
      rfl
    · refine ⟨fun member => (List.mem_append.mp member).resolve_right fun new => ?_,List.mem_append_left _⟩
      obtain rfl := List.mem_singleton.mp new
      exact working rfl
  | stopReceived rest up sent =>
    rw [spend_idle rfl rfl]
    refine (accounted key).unmoved ?_ rfl rfl
    exact ⟨rfl,rfl,by simp [State.ledger,sent],fun _ _ _ => .rfl⟩
  | shutdown up =>
    rw [spend_idle rfl rfl]
    refine (accounted key).unmoved ?_ rfl rfl
    exact ⟨rfl,rfl,by simp [State.ledger,PdaRunner.send],fun _ _ _ => .rfl⟩
  | exit =>
    rw [spend_idle rfl rfl]
    exact (accounted key).dropped rfl rfl (by simp [State.ledger,State.stop,workItems])
  | crash lost found up left =>
    obtain rfl := lossless.found left
    rw [spend_idle rfl rfl]
    exact (accounted key).dropped rfl rfl (by simp [State.ledger,State.stop,workItems])
  | restarted config jobs down recovered =>
    rw [spend_idle rfl rfl]
    obtain ⟨noRequests,noTasks⟩ := hashed.idle down
    obtain ⟨_,rfl⟩ := restart_ok hashed.shared recovered
    exact (accounted key).dropped rfl rfl (by simp [State.ledger,workItems,noRequests,noTasks])
  | restartPanicked config =>
    rw [spend_idle rfl rfl]
    exact accounted key

theorem accounted_reaches {config : Config} {state : State Proof Encoded Body × Spending}
    (run : Reaches (tracked (State.step deps) (State.spend deps)) (fun before => Secured deps before.1)
      (State.initial config,⟨[],[]⟩) state) : ∀ key, Accounted deps state.1 state.2 key := by
  have plain : ∀ before, Reaches (tracked (State.step deps) (State.spend deps)) (fun before => Secured deps before.1)
      (State.initial config,⟨[],[]⟩) before →
      Reaches (State.step deps) (Undivided deps) (State.initial config) before.1 :=
    fun _ part => forget (fun _ _ _ secured => secured.1) part
  apply run.invariant_with plain
  · intro before action after known accounted secured moved
    obtain ⟨stepped,spent⟩ := tracked_eq_some.mp moved
    rw [spent]
    exact accounted_step (orderly_reaches known) (attentive_reaches known) (startsAnew_reaches known)
      (agrees_reaches known) (validStatuses_reaches known) (hashKeys_reaches known) accounted secured.2 stepped
  · intro key
    have idle : key ∉ ((State.initial config : State Proof Encoded Body).ledger deps).items := by simp [Ledger.empty]
    have unfinished : key ∉ (State.initial config : State Proof Encoded Body).runner.finishedDb := AList.notMem_empty key
    exact ⟨fun _ => ⟨rfl,rfl⟩,fun item => absurd item idle,
      fun item => absurd item idle,fun finished => absurd finished unfinished,by simp⟩

/-- The job that a guest's input is for. -/
def inputKey (deps : Dependencies Proof Encoded Body) (stdin : List Bytes) : Option Bytes :=
  stdin[2]?.map fun data => deps.jobKey (deps.jobOf data)

def Network.inputs (deps : Dependencies Proof Encoded Body) (network : Network) (key : Bytes) : Nat :=
  network.received.countP fun stdin => decide (inputKey deps stdin = some key)

@[simp] theorem State.deliver_network (s : State Proof Encoded Body) (origin : IncomingRequest Body)
    (outcome : Inbound Body) : (s.deliver origin outcome).network = s.network := by
  cases outcome <;> rfl

/-- The network is shown a job by a task that attempts it, once. -/
theorem observe_inputs {config : Config} {job : Job} (anchored : deps.Anchored job) (network : Network)
    (stage : Stage Proof) (answer : Answer Proof) : (network.observe deps config job stage answer).inputs deps key ≤
      network.inputs deps key + (if stage.attempts then [deps.jobKey job] else []).count key := by
  obtain ⟨data,rfl⟩ := anchored
  unfold Network.observe
  split
  next nonce result =>
    split
    next usable =>
      have input : inputKey deps (proverStdin config nonce (deps.jobOf data)) =
          some (deps.jobKey (deps.jobOf data)) := rfl
      simp [Network.inputs,List.countP_append,List.countP_singleton,input,Stage.attempts,List.count_singleton]
    next => exact Nat.le_add_right _ _
  next => exact Nat.le_add_right _ _

theorem inputs_step (hashed : (hashKeys deps).Holds s) (spent : s.network.inputs deps key ≤ log.attempts.count key)
    {action : Action Proof Body} (stepped : s.step deps action = some t) :
    t.network.inputs deps key ≤ (s.spend deps action t log).attempts.count key := by
  have shown : s.network.inputs deps key ≤ (s.spend deps action t log).attempts.count key := by
    rw [State.spend,List.count_append]
    exact spent.trans (Nat.le_add_right _ _)
  cases step_cases stepped with
  | taskNext i answer before task after runner stage found pool moved
  | taskEnded i answer before task after runner progress found pool ended moved =>
    rw [spend_task found,List.count_append]
    exact (observe_inputs (hashed.task task (List.mem_of_getElem? found)) _ _ _).trans (Nat.add_le_add_right spent _)
  | receive | callReturned =>
    rw [State.deliver_network]
    exact shown
  | _ => exact shown

theorem inputs_reaches {config : Config} {guard : State Proof Encoded Body × Spending → Action Proof Body → Prop}
    {state : State Proof Encoded Body × Spending}
    (run : Reaches (tracked (State.step deps) (State.spend deps)) guard (State.initial config,⟨[],[]⟩) state) :
    ∀ key, state.1.network.inputs deps key ≤ state.2.attempts.count key := by
  have plain : ∀ before, Reaches (tracked (State.step deps) (State.spend deps)) guard (State.initial config,⟨[],[]⟩)
      before → Reaches (State.step deps) Free (State.initial config) before.1 :=
    fun _ part => forget (fun _ _ _ _ => trivial) part
  apply run.invariant_with plain
  · intro before action after known spent _ moved key
    obtain ⟨stepped,logged⟩ := tracked_eq_some.mp moved
    rw [logged]
    exact inputs_step (hashKeys_reaches known) (spent key) stepped
  · exact fun _ => Nat.le_refl 0

/-- The network times out, and the proof of the retried request arrives. -/
def Tabulated.retryPlain : List (Action Bytes Json) :=
  submitPlain 0 ++ [.recv,.task 0 (.storage none),.task 0 (.requested zeroNonce (.ok zeroKey)),.task 0 (.storage none),
    .task 0 (.storage none),.recv,.task 0 (.storage none),.task 0 (.waited (.error (.network (.requestTimedOut [0])))),
    .task 0 (.storage none),receivePlain,.request 0 none,.request 0 none,.request 0 none,.recv,.task 0 (.storage none),
    .task 0 (.requested oneNonce (.ok oneKey)),.task 0 (.storage none),.task 0 (.storage none),.recv,
    .task 0 (.storage none),.task 0 (.waited (.ok (plainProof zeroKey oneNonce))),.task 0 (.storage none),
    receivePlain,.request 0 none]

def Tabulated.retriedPlain : State Bytes (JobStatus Bytes) Json × Spending :=
  final (tracked (State.step dependencies) (State.spend dependencies)) (.initial networkConfig,⟨[],[]⟩) retryPlain

end PdaProxy
