import PdaProxy.System
import PdaProxy.Semantics.Pool

/-! What one step of the service can do, said once: the operations of a call and of a task
with the facts each of them read, and from them the transitions of the whole state. Every
invariant is derived from these relations, none unfolds the step functions again. -/
namespace PdaProxy
open PdaProxy.Semantics.Serialization PdaProxy.Semantics.Pool

def JobStatus.IsPending {Proof : Type} : JobStatus Proof → Prop
  | .localZkProofPending | .remoteZkProofRequesting | .remoteZkProofPending _ => True
  | .zkProofFinished _ | .failed _ _ => False

variable {Proof Encoded Body : Type} (deps : Dependencies Proof Encoded Body)

def finalizes {Result : Type} : Except ProverError Result → Bool
  | .ok _ | .error (.network _) => true
  | .error (.unhandled _) => false

/-- An answer after which `prove` leaves its job finalized, sent back or not in the queue:
the operation succeeds, or the failure is one that is finalized. -/
def Answer.Handled (config : Config) : Answer Proof → Prop
  | .storage fault => fault = none
  | .setupFailed _ | .panics => False
  | .proved _ result => finalizes result = true
  | .requested _ result =>
    (config.sp1FulfillmentStrategy.map deps.isStrategyName).getD false = true ∧ finalizes result = true
  | .waited result => finalizes result = true

instance (config : Config) : ∀ answer : Answer Proof, Decidable (answer.Handled deps config)
  | .storage fault => inferInstanceAs (Decidable (fault = none))
  | .setupFailed _ | .panics => inferInstanceAs (Decidable False)
  | .proved _ result | .waited result => inferInstanceAs (Decidable (finalizes result = true))
  | .requested _ result => inferInstanceAs (Decidable (_ ∧ finalizes result = true))

/-- One operation of a call on the state it shares with all others. -/
inductive CallStep (config : Config) (job : Job) (fault : Fault) (runner : PdaRunner Encoded) :
    Call Proof → PdaRunner Encoded → Progress (Call Proof) (CallResult Proof) → Prop
  | failed (call error) (refused : fault = none → call = .readFinished ∨ call = .readQueue) :
      CallStep config job fault runner call runner (.returned (.error error))
  | panicked : CallStep config job fault runner .readQueue runner .panicked
  | finished (data proof) (stored : runner.finishedDb.lookup (deps.jobKey job) = some data)
      (read : deps.statusCodec.deserialize data = .ok (.zkProofFinished proof)) :
      CallStep config job fault runner .readFinished runner (.returned (.ok (some proof)))
  | retryable (data error retryStatus) (stored : runner.finishedDb.lookup (deps.jobKey job) = some data)
      (read : deps.statusCodec.deserialize data = .ok (.failed error (some retryStatus))) :
      CallStep config job fault runner .readFinished runner (.next (.retryTransaction error retryStatus))
  | unfinished (absent : runner.finishedDb.lookup (deps.jobKey job) = none) :
      CallStep config job fault runner .readFinished runner (.next .readQueue)
  | retried (error retryStatus) (made : fault = none) :
      CallStep config job fault runner (.retryTransaction error retryStatus)
        (runner.moveToQueue deps (deps.jobKey job) retryStatus) (.next (.retrySend error))
  | resent (error reported) :
      CallStep config job fault runner (.retrySend error) (runner.send (some job)) (.returned (.error reported))
  | pending (data status) (stored : runner.queueDb.lookup (deps.jobKey job) = some data)
      (read : deps.statusCodec.deserialize data = .ok status) (waiting : status.IsPending) :
      CallStep config job fault runner .readQueue runner (.returned (.ok none))
  | unqueued (status : JobStatus Proof) (absent : runner.queueDb.lookup (deps.jobKey job) = none)
      (chosen : initialStatus config = .next status) :
      CallStep config job fault runner .readQueue runner (.next (.insert status))
  | inserted (status) (made : fault = none) :
      CallStep config job fault runner (.insert status) (runner.insertQueue deps (deps.jobKey job) status) (.next .send)
  | sent : CallStep config job fault runner .send (runner.send (some job)) (.returned (.ok none))

theorem getVerifiableEncryption_step (config : Config) (job : Job) (fault : Fault)
    (runner : PdaRunner Encoded) (call : Call Proof) :
    CallStep deps config job fault runner call (getVerifiableEncryption deps config job fault runner call).1
      (getVerifiableEncryption deps config job fault runner call).2 := by
  cases fault with
  | some e => cases call <;> exact .failed _ _ (fun none => by cases none)
  | none =>
    cases call with
    | readFinished =>
      simp only [getVerifiableEncryption]
      cases stored : runner.finishedDb.lookup (deps.jobKey job) with
      | none => exact .unfinished stored
      | some data =>
        dsimp only
        split
        next e read => exact .failed _ _ (fun _ => .inl rfl)
        next proof read => exact .finished data proof stored read
        next error read => exact .failed _ _ (fun _ => .inl rfl)
        next error retryStatus read => exact .retryable data error retryStatus stored read
        next => exact .failed _ _ (fun _ => .inl rfl)
    | readQueue =>
      simp only [getVerifiableEncryption]
      cases stored : runner.queueDb.lookup (deps.jobKey job) with
      | some data =>
        dsimp only
        split
        next e read => exact .failed _ _ (fun _ => .inr rfl)
        next read => exact .pending data _ stored read trivial
        next read => exact .pending data _ stored read trivial
        next read => exact .pending data _ stored read trivial
        next => exact .failed _ _ (fun _ => .inr rfl)
      | none =>
        dsimp only
        cases chosen : (initialStatus config : Progress (JobStatus Proof) PdaRunnerError) with
        | panicked => exact .panicked
        | returned e => exact .failed _ _ (fun _ => .inr rfl)
        | next status => exact .unqueued status stored chosen
    | retryTransaction error retryStatus => exact .retried error retryStatus rfl
    | retrySend error => exact .resent error _
    | insert status => exact .inserted status rfl
    | send => exact .sent

/-- One step of a task. A prover's answer takes the task to the finalization or hand-back
that records it; what is neither leaves the shared state alone and ends the task. -/
inductive TaskStep (config : Config) (job : Job) (runner : PdaRunner Encoded) :
    Stage Proof → Answer Proof → PdaRunner Encoded → Progress (Stage Proof) ProveResult → Prop
  | lost (stage answer progress) (unhandled : ¬ answer.Handled deps config)
      (ended : ∀ next, progress ≠ .next next) : TaskStep config job runner stage answer runner progress
  | unqueued (absent : runner.queueDb.lookup (deps.jobKey job) = none) :
      TaskStep config job runner .readQueue (.storage none) runner (.returned (.ok ()))
  | unreadable (data error result) (stored : runner.queueDb.lookup (deps.jobKey job) = some data)
      (read : deps.statusCodec.deserialize data = .error error) :
      TaskStep config job runner .readQueue (.storage none) runner (.returned result)
  | started (data status) (stored : runner.queueDb.lookup (deps.jobKey job) = some data)
      (read : deps.statusCodec.deserialize data = .ok status) :
      TaskStep config job runner .readQueue (.storage none) runner (startingStage status)
  | refusedLocal (nonce error) :
      TaskStep config job runner .localPending (.proved nonce (.error (.network error))) runner
        (.next (.finalize (handleZkClientError deps error job).2))
  | refusedRemote (nonce error) :
      TaskStep config job runner .remoteRequesting (.requested nonce (.error (.network error))) runner
        (.next (.finalize (handleZkClientError deps error job).2))
  | refusedWait (requestId error) :
      TaskStep config job runner (.remotePending requestId) (.waited (.error (.network error))) runner
        (.next (.finalize (handleZkClientError deps error job).2))
  | proved (nonce proof) :
      TaskStep config job runner .localPending (.proved nonce (.ok proof)) runner
        (.next (.finalize (.zkProofFinished proof)))
  | requested (nonce requestId)
      (usable : (config.sp1FulfillmentStrategy.map deps.isStrategyName).getD false = true) :
      TaskStep config job runner .remoteRequesting (.requested nonce (.ok requestId)) runner
        (.next (.updateStatus (.remoteZkProofPending requestId)))
  | waited (requestId proof) :
      TaskStep config job runner (.remotePending requestId) (.waited (.ok proof)) runner
        (.next (.finalize (.zkProofFinished proof)))
  | finalized (status) :
      TaskStep config job runner (.finalize status) (.storage none)
        (runner.moveToFinished deps (deps.jobKey job) status) (.returned (.ok ()))
  | updated (status) :
      TaskStep config job runner (.updateStatus status) (.storage none)
        (runner.moveToQueue deps (deps.jobKey job) status) (.next .sendBack)
  | sentBack : TaskStep config job runner .sendBack (.storage none) (runner.send (some job)) (.returned (.ok ()))

section
variable {deps} {config : Config} {job : Job} {runner result : PdaRunner Encoded}
  {answer : Answer Proof} {progress : Progress (Stage Proof) ProveResult}

theorem mem_of_lookup {tree other : SledTree Encoded} {key : Bytes} (same : tree.lookup key = other.lookup key) :
    key ∈ tree ↔ key ∈ other := by
  rw [← AList.lookup_isSome,← AList.lookup_isSome,same]

/-- A call for one job leaves the entries of all others as they are. -/
theorem CallStep.elsewhere {fault : Fault} {call : Call Proof} {ended : Progress (Call Proof) (CallResult Proof)}
    {key : Bytes} (moved : CallStep deps config job fault runner call result ended) (different : key ≠ deps.jobKey job) :
    result.queueDb.lookup key = runner.queueDb.lookup key ∧
      result.finishedDb.lookup key = runner.finishedDb.lookup key := by
  cases moved with
  | retried => exact ⟨AList.lookup_insert_ne different,AList.lookup_erase_ne different⟩
  | inserted => exact ⟨AList.lookup_insert_ne different,rfl⟩
  | _ => exact ⟨rfl,rfl⟩

theorem TaskStep.elsewhere {stage : Stage Proof} {key : Bytes}
    (moved : TaskStep deps config job runner stage answer result progress) (different : key ≠ deps.jobKey job) :
    result.queueDb.lookup key = runner.queueDb.lookup key ∧
      result.finishedDb.lookup key = runner.finishedDb.lookup key := by
  cases moved with
  | finalized => exact ⟨AList.lookup_erase_ne different,AList.lookup_insert_ne different⟩
  | updated => exact ⟨AList.lookup_insert_ne different,AList.lookup_erase_ne different⟩
  | _ => exact ⟨rfl,rfl⟩

/-- A call makes one write at most, and what the trees held before it is what a crash can
still leave there. -/
theorem CallStep.unflushed {fault : Fault} {call : Call Proof} {ended : Progress (Call Proof) (CallResult Proof)}
    (moved : CallStep deps config job fault runner call result ended) :
    ∀ content ∈ result.unflushed, content ∈ runner.contents := by
  cases moved with
  | retried | inserted => exact fun _ member => member
  | _ => exact fun _ member => List.mem_cons_of_mem _ member

theorem TaskStep.unflushed {stage : Stage Proof}
    (moved : TaskStep deps config job runner stage answer result progress) :
    ∀ content ∈ result.unflushed, content ∈ runner.contents := by
  cases moved with
  | finalized | updated => exact fun _ member => member
  | _ => exact fun _ member => List.mem_cons_of_mem _ member

private theorem lost_of_logError {call : Progress (Stage Proof) PdaRunnerError} {stage : Stage Proof}
    (unhandled : ¬ answer.Handled deps config) (ended : ∀ next, call ≠ .next next) :
    TaskStep deps config job runner stage answer runner (logError call) := by
  refine .lost _ _ _ unhandled ?_
  cases call with
  | next stage => exact absurd rfl (ended stage)
  | returned e => intro next same; cases same
  | panicked => intro next same; cases same

private theorem zkProofLocal_step {call : Progress (Stage Proof) PdaRunnerError}
    (made : zkProofLocal deps job answer = some call) :
    TaskStep deps config job runner .localPending answer runner (logError call) := by
  unfold zkProofLocal at made
  split at made
  next => cases made; exact lost_of_logError (fun h => h) (by simp)
  next => cases made; exact lost_of_logError (fun h => h) (by simp)
  next nonce error =>
    cases made
    cases error with
    | network error => exact .refusedLocal nonce error
    | unhandled message => exact lost_of_logError (fun h => by cases h) (by simp [proverFailed])
  next nonce proof => cases made; exact .proved nonce proof
  next => contradiction

private theorem waitForZkProof_step {requestId : SuccNetJobId} {call : Progress (Stage Proof) PdaRunnerError}
    (made : waitForZkProof deps job answer = some call) :
    TaskStep deps config job runner (.remotePending requestId) answer runner (logError call) := by
  unfold waitForZkProof at made
  split at made
  next => cases made; exact lost_of_logError (fun h => h) (by simp)
  next error =>
    cases made
    cases error with
    | network error => exact .refusedWait requestId error
    | unhandled message => exact lost_of_logError (fun h => by cases h) (by simp [proverFailed])
  next proof => cases made; exact .waited requestId proof
  next => contradiction

private theorem zkProofRemote_step {call : Progress (Stage Proof) PdaRunnerError}
    (made : zkProofRemote deps config job answer = some call) :
    TaskStep deps config job runner .remoteRequesting answer runner (logError call) := by
  unfold zkProofRemote at made
  split at made
  next => cases made; exact lost_of_logError (fun h => h) (by simp)
  next => cases made; exact lost_of_logError (fun h => h) (by simp)
  next nonce result =>
    split at made
    next missing =>
      cases made
      exact lost_of_logError (fun h => by simp [Answer.Handled,missing] at h) (by simp)
    next name present =>
      split at made
      next known =>
        split at made
        next error =>
          cases made
          cases error with
          | network error => exact .refusedRemote nonce error
          | unhandled message => exact lost_of_logError (fun h => by cases h.2) (by simp [proverFailed])
        next requestId => cases made; exact .requested nonce requestId (by simp [present,known])
      next malformed =>
        cases made
        exact lost_of_logError (fun h => by simp [Answer.Handled,present,malformed] at h) (by simp)
  next => contradiction

theorem prove_step {stage : Stage Proof}
    (moved : prove deps config job answer runner stage = some (result,progress)) :
    TaskStep deps config job runner stage answer result progress := by
  cases stage with
  | remoteRequesting =>
    obtain ⟨call,made,same⟩ := Option.map_eq_some_iff.mp moved
    cases same
    exact zkProofRemote_step made
  | remotePending requestId =>
    obtain ⟨call,made,same⟩ := Option.map_eq_some_iff.mp moved
    cases same
    exact waitForZkProof_step made
  | localPending =>
    obtain ⟨call,made,same⟩ := Option.map_eq_some_iff.mp moved
    cases same
    exact zkProofLocal_step made
  | readQueue =>
    simp only [prove] at moved
    split at moved
    next e => cases moved; exact .lost _ _ _ (by simp [Answer.Handled]) (by simp)
    next =>
      cases stored : runner.queueDb.lookup (deps.jobKey job) with
      | none => rw [stored] at moved; cases moved; exact .unqueued stored
      | some data =>
        rw [stored] at moved
        dsimp only at moved
        split at moved
        next e read => cases moved; exact .unreadable data e _ stored read
        next status read => cases moved; exact .started data status stored read
    next => contradiction
  | finalize status =>
    simp only [prove] at moved
    split at moved
    next e => cases moved; exact .lost _ _ _ (by simp [Answer.Handled]) (by simp)
    next => cases moved; exact .finalized status
    next => contradiction
  | updateStatus status =>
    simp only [prove] at moved
    split at moved
    next e => cases moved; exact .lost _ _ _ (by simp [Answer.Handled]) (by simp)
    next => cases moved; exact .updated status
    next => contradiction
  | sendBack =>
    simp only [prove] at moved
    split at moved
    next e => cases moved; exact .lost _ _ _ (by simp [Answer.Handled]) (by simp)
    next => cases moved; exact .sentBack
    next => contradiction

end

/-- From the answer to one call of `inbound_handler` to its next call or its end. -/
inductive ResumeStep (submission : Submission Body) : CallResult Proof → Inbound Body → Prop
  | failed (e) : ResumeStep submission (.error e) (.done (.error e.display))
  | waits : ResumeStep submission (.ok none) (.done (.ok none))
  | refused (proof e) (rejected : deps.blobNew submission.blob.nmtNamespace (deps.proofCodec.serialize proof) = .error e) :
      ResumeStep submission (.ok (some proof)) (.done (.error e))
  | encrypted (proof encryptedBlob)
      (made : deps.blobNew submission.blob.nmtNamespace (deps.proofCodec.serialize proof) = .ok encryptedBlob) :
      ResumeStep submission (.ok (some proof)) (submitBlobs deps submission.origin submission.bodyJson
        (submission.encryptedBlobs ++ [encryptedBlob]) submission.rest)

theorem resume_step (submission : Submission Body) (result : CallResult Proof) :
    ResumeStep deps submission result (submission.resume deps result) := by
  unfold Submission.resume
  split
  next e => exact .failed e
  next => exact .waits
  next proof =>
    split
    next e rejected => exact .refused proof e rejected
    next encryptedBlob made => exact .encrypted proof encryptedBlob made

section
variable {deps}

theorem submitBlobs_encrypt {origin : IncomingRequest Body} {bodyJson : Json} {encryptedBlobs blobs : List Blob}
    {next : Submission Body} (calls : submitBlobs deps origin bodyJson encryptedBlobs blobs = .encrypt next) :
    blobs = next.blob :: next.rest ∧ next.origin = origin := by
  cases blobs with
  | nil => cases calls
  | cons blob rest =>
    cases calls
    exact ⟨rfl,rfl⟩

theorem resume_next {submission next : Submission Body} {result : CallResult Proof}
    (resumed : submission.resume deps result = .encrypt next) :
    submission.rest = next.blob :: next.rest ∧ next.origin = submission.origin := by
  have stepped := resume_step deps submission result
  generalize submission.resume deps result = inbound at stepped resumed
  cases stepped with
  | encrypted proof encryptedBlob made => exact submitBlobs_encrypt resumed
  | _ => cases resumed

theorem resume_waits {submission : Submission Body} {result : CallResult Proof}
    (ended : submission.resume deps result = .done (.ok none)) : result = .ok none := by
  have stepped := resume_step deps submission result
  generalize submission.resume deps result = inbound at stepped ended
  cases stepped with
  | waits => rfl
  | encrypted proof encryptedBlob made =>
    unfold submitBlobs at ended
    split at ended <;> cases ended
  | _ => cases ended

end

/-- The transitions of the whole state. A thread or task at an index is found between the
ones before and after it, which stay as they are. -/
inductive Step (s : State Proof Encoded Body) : Action Proof Body → State Proof Encoded Body → Prop
  | receive (req) (up : s.process ≠ .stopped) : Step s (.receive req) (s.deliver req (inboundHandler deps req))
  | callNext (i fault before thread after runner call) (found : s.requests[i]? = some thread)
      (pool : s.requests = before ++ thread :: after)
      (moved : CallStep deps s.config (thread.submission.job deps) fault s.runner thread.call runner (.next call)) :
      Step s (.request i fault) { s with runner, requests := before ++ { thread with call } :: after }
  | callPanicked (i fault before thread after) (found : s.requests[i]? = some thread)
      (pool : s.requests = before ++ thread :: after) (reading : thread.call = .readQueue) :
      Step s (.request i fault) { s with requests := before ++ after }
  | callReturned (i fault before thread after runner result) (found : s.requests[i]? = some thread)
      (pool : s.requests = before ++ thread :: after)
      (moved : CallStep deps s.config (thread.submission.job deps) fault s.runner thread.call runner (.returned result)) :
      Step s (.request i fault) (State.deliver { s with
        runner
        requests := before ++ after
        answered := s.answered ++ [⟨s.config,thread.submission.job deps,result⟩] }
        thread.submission.origin (thread.submission.resume deps result))
  | taskNext (i answer before task after runner stage) (found : s.tasks[i]? = some task)
      (pool : s.tasks = before ++ task :: after)
      (moved : TaskStep deps s.config task.job s.runner task.stage answer runner (.next stage)) :
      Step s (.task i answer) { s with
        runner
        network := s.network.observe deps s.config task.job task.stage answer
        tasks := before ++ { task with stage } :: after }
  | taskEnded (i answer before task after runner progress) (found : s.tasks[i]? = some task)
      (pool : s.tasks = before ++ task :: after) (ended : ∀ next, progress ≠ .next next)
      (moved : TaskStep deps s.config task.job s.runner task.stage answer runner progress) :
      Step s (.task i answer) { s with
        runner
        network := s.network.observe deps s.config task.job task.stage answer
        tasks := before ++ after }
  | received (job rest) (up : s.process = .running) (sent : s.runner.channel = some job :: rest) :
      Step s .recv { s with runner := { s.runner with channel := rest }, tasks := s.tasks ++ [⟨job,.readQueue⟩] }
  | stopReceived (rest) (up : s.process = .running) (sent : s.runner.channel = none :: rest) :
      Step s .recv { s with process := .stopping, runner := { s.runner with channel := rest } }
  | shutdown (up : s.process ≠ .stopped) : Step s .shutdown { s with runner := s.runner.send none }
  | exit (ending : s.process = .stopping) : Step s .exit (s.stop (s.runner.queueDb,s.runner.finishedDb))
  | crash (lost found) (up : s.process ≠ .stopped) (left : s.runner.contents[lost]? = some found) :
      Step s (.crash lost) (s.stop found)
  | restarted (config jobs) (down : s.process = .stopped)
      (recovered : restartUnfinishedJobs deps s.runner.queueDb.iter = .ok jobs) :
      Step s (.restart config) { s with
        config
        process := .running
        runner := { s.runner with channel := jobs.map some } }
  | restartPanicked (config error) (down : s.process = .stopped)
      (panicked : restartUnfinishedJobs deps s.runner.queueDb.iter = .error error) : Step s (.restart config) s

variable {deps}

private theorem requestStep_step {s : State Proof Encoded Body} {i : Nat} {fault : Fault}
    {thread : RequestThread Proof Body} (found : s.requests[i]? = some thread) :
    Step deps s (.request i fault) (s.requestStep deps i thread fault) := by
  obtain ⟨before,after,pool,replaced,removed⟩ := split_at found
  obtain ⟨submission,call⟩ := thread
  have moved := getVerifiableEncryption_step deps s.config (submission.job deps) fault s.runner call
  cases made : getVerifiableEncryption deps s.config (submission.job deps) fault s.runner call with
  | mk runner progress =>
    rw [made] at moved
    cases progress with
    | next call =>
      simp only [State.requestStep,made,replaced]
      exact .callNext i fault before _ after runner call found pool moved
    | panicked =>
      simp only [State.requestStep,made,removed]
      cases moved
      exact .callPanicked i fault before _ after found pool rfl
    | returned result =>
      simp only [State.requestStep,made,removed]
      exact .callReturned i fault before _ after runner result found pool moved

private theorem taskStep_step {s t : State Proof Encoded Body} {i : Nat} {answer : Answer Proof}
    {task : ProveTask Proof} (found : s.tasks[i]? = some task) (moved : s.taskStep deps i task answer = some t) :
    Step deps s (.task i answer) t := by
  obtain ⟨before,after,pool,replaced,removed⟩ := split_at found
  unfold State.taskStep at moved
  split at moved
  next => contradiction
  next runner progress made =>
    have action := prove_step made
    cases progress with
    | next stage =>
      simp only [replaced] at moved
      cases moved
      exact .taskNext i answer before task after runner stage found pool action
    | returned result =>
      simp only [removed] at moved
      cases moved
      exact .taskEnded i answer before task after runner _ found pool (by simp) action
    | panicked =>
      simp only [removed] at moved
      cases moved
      exact .taskEnded i answer before task after runner _ found pool (by simp) action

theorem step_cases {s t : State Proof Encoded Body} {action : Action Proof Body}
    (moved : s.step deps action = some t) : Step deps s action t := by
  cases action with
  | receive req =>
    obtain ⟨up,same⟩ := Option.ite_none_left_eq_some.mp moved
    cases same
    exact .receive req up
  | request i fault =>
    obtain ⟨thread,found,same⟩ := Option.map_eq_some_iff.mp moved
    cases same
    exact requestStep_step found
  | task i answer =>
    obtain ⟨task,found,made⟩ := Option.bind_eq_some_iff.mp moved
    exact taskStep_step found made
  | recv =>
    simp only [State.step,State.workerStep] at moved
    split at moved
    next job rest up sent => cases moved; exact .received job rest up sent
    next rest up sent => cases moved; exact .stopReceived rest up sent
    next => contradiction
  | shutdown =>
    obtain ⟨up,same⟩ := Option.ite_none_left_eq_some.mp moved
    cases same
    exact .shutdown up
  | exit =>
    obtain ⟨ending,same⟩ := Option.ite_none_right_eq_some.mp moved
    cases same
    exact .exit ending
  | crash lost =>
    obtain ⟨up,made⟩ := Option.ite_none_left_eq_some.mp moved
    obtain ⟨found,left,same⟩ := Option.map_eq_some_iff.mp made
    cases same
    exact .crash lost found up left
  | restart config =>
    obtain ⟨down,same⟩ := Option.ite_none_right_eq_some.mp moved
    cases same
    unfold State.restartStep
    cases recovered : restartUnfinishedJobs deps s.runner.queueDb.iter with
    | error e => exact .restartPanicked config e down recovered
    | ok jobs => exact .restarted config jobs down recovered

end PdaProxy
