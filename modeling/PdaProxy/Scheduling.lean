import PdaProxy.JobLedger

/-! What a failure to schedule a job leaves behind. A job is recorded in a tree and then sent
on the channel; an operation on the tree that fails has no effect, but a send that fails
comes after the tree has changed. -/
namespace PdaProxy
open PdaProxy.Semantics.Serialization PdaProxy.Semantics.Transition

variable {Proof Encoded Body : Type}

def PdaRunner.SameTrees (runner other : PdaRunner Encoded) : Prop :=
  ∀ key, other.queueDb.lookup key = runner.queueDb.lookup key ∧ other.finishedDb.lookup key = runner.finishedDb.lookup key

def Call.schedules : Call Proof → Bool
  | .retryTransaction _ _ | .retrySend _ | .insert _ | .send => true
  | .readFinished | .readQueue => false

section
variable (deps : Dependencies Proof Encoded Body)

/-- `send_job_with_new_status` with the outcomes of its transaction and of its send. -/
def sendJobWithNewStatus (jobKey : Bytes) (updateStatus : JobStatus Proof) (job : Job) (transaction sending : Fault)
    (runner : PdaRunner Encoded) : PdaRunner Encoded × Except PdaRunnerError Unit :=
  match transaction with
  | some e => (runner,.error (.internalError e))
  | none =>
    let moved := runner.moveToQueue deps jobKey updateStatus
    match sending with
    | some e => (moved,.error (.internalError e))
    | none => (moved.send (some job),.ok ())

def callStep (config : Config) (job : Job) (state : PdaRunner Encoded × Call Proof) (fault : Fault) :
    Option (PdaRunner Encoded × Call Proof) :=
  match getVerifiableEncryption deps config job fault state.1 state.2 with
  | (runner,.next call) => some (runner,call)
  | _ => none

/-- A call on its own comes to an operation that schedules its job, and the operation fails. -/
def FailsScheduling (config : Config) (job : Job) (before : PdaRunner Encoded) (call : Call Proof)
    (after : PdaRunner Encoded) : Prop :=
  ∃ runner message error, Reaches (callStep deps config job) Free (before,.readFinished) (runner,call) ∧
    call.schedules = true ∧
    getVerifiableEncryption deps config job (some message) runner call = (after,.returned (.error error))

/-- What a call on its own has read and written when it comes to an operation. -/
def Call.Alone (job : Job) (before runner : PdaRunner Encoded) : Call Proof → Prop
  | .readFinished | .readQueue => runner = before
  | .retryTransaction _ _ => runner = before ∧ before.finishedDb.lookup (deps.jobKey job) ≠ none
  | .retrySend _ => before.finishedDb.lookup (deps.jobKey job) ≠ none ∧
      ∃ status, runner = before.moveToQueue deps (deps.jobKey job) status
  | .insert _ => runner = before ∧ before.queueDb.lookup (deps.jobKey job) = none
  | .send => before.queueDb.lookup (deps.jobKey job) = none ∧
      ∃ status : JobStatus Proof, runner = before.insertQueue deps (deps.jobKey job) status

end

variable {deps : Dependencies Proof Encoded Body}

theorem PdaRunner.SameTrees.refl (runner : PdaRunner Encoded) : runner.SameTrees runner := fun _ => ⟨rfl,rfl⟩

theorem moveToQueue_same (runner : PdaRunner Encoded) (jobKey : Bytes) (status : JobStatus Proof) :
    runner.SameTrees (runner.moveToQueue deps jobKey status) ↔
      runner.finishedDb.lookup jobKey = none ∧
        runner.queueDb.lookup jobKey = some (deps.statusCodec.serialize status) := by
  constructor
  · intro same
    obtain ⟨queued,finished⟩ := same jobKey
    simp only [PdaRunner.moveToQueue,AList.lookup_insert,AList.lookup_erase] at queued finished
    exact ⟨finished.symm,queued.symm⟩
  · intro settled key
    by_cases same : key = jobKey
    · subst same
      simp [PdaRunner.moveToQueue,settled]
    · simp [PdaRunner.moveToQueue,AList.lookup_insert_ne same,AList.lookup_erase_ne same]

theorem insertQueue_differs {runner : PdaRunner Encoded} {jobKey : Bytes} (absent : runner.queueDb.lookup jobKey = none)
    (status : JobStatus Proof) : ¬ runner.SameTrees (runner.insertQueue deps jobKey status) := by
  intro same
  have queued := (same jobKey).1
  rw [PdaRunner.insertQueue,AList.lookup_insert,absent] at queued
  cases queued

/-- A retry in `get_verifiable_encryption` is one call of `send_job_with_new_status`. -/
theorem retry_sendJobWithNewStatus (config : Config) (job : Job) (error : PdaRunnerError) (status : JobStatus Proof)
    (transaction sending : Fault) (runner : PdaRunner Encoded) :
    (match getVerifiableEncryption deps config job transaction runner (.retryTransaction error status) with
      | (moved,.next call) => getVerifiableEncryption deps config job sending moved call
      | ended => ended) =
    match sendJobWithNewStatus deps (deps.jobKey job) status job transaction sending runner with
    | (after,.ok ()) => (after,.returned (.error (.internalError ("Retrying! Previous error: " ++ error.debug))))
    | (after,.error e) => (after,.returned (retryFailed e)) := by
  cases transaction with
  | some e => rfl
  | none =>
    cases sending with
    | some e => rfl
    | none => rfl

/-- So is the hand-back of a requested job in `prove`. -/
theorem handBack_sendJobWithNewStatus (config : Config) (job : Job) (status : JobStatus Proof)
    (transaction sending : Fault) (runner : PdaRunner Encoded) :
    (match prove deps config job (.storage transaction) runner (.updateStatus status) with
      | some (moved,.next stage) => prove deps config job (.storage sending) moved stage
      | ended => ended) =
    match sendJobWithNewStatus deps (deps.jobKey job) status job transaction sending runner with
    | (after,result) => some (after,.returned result) := by
  cases transaction with
  | some e => rfl
  | none =>
    cases sending with
    | some e => rfl
    | none => rfl

theorem sendJobWithNewStatus_same {jobKey : Bytes} {status : JobStatus Proof} {job : Job} {transaction sending : Fault}
    {runner after : PdaRunner Encoded} {e : PdaRunnerError}
    (failed : sendJobWithNewStatus deps jobKey status job transaction sending runner = (after,.error e)) :
    runner.SameTrees after ↔ transaction ≠ none ∨ (runner.finishedDb.lookup jobKey = none ∧
      runner.queueDb.lookup jobKey = some (deps.statusCodec.serialize status)) := by
  cases transaction with
  | some message =>
    cases failed
    exact iff_of_true (.refl runner) (.inl (by simp))
  | none =>
    cases sending with
    | some message =>
      cases failed
      simp [moveToQueue_same]
    | none => cases failed

section
variable {config : Config} {job : Job} {before : PdaRunner Encoded}

theorem alone_step {state next : PdaRunner Encoded × Call Proof} {fault : Fault}
    (alone : state.2.Alone deps job before state.1) (stepped : callStep deps config job state fault = some next) :
    next.2.Alone deps job before next.1 := by
  obtain ⟨runner,call⟩ := state
  have moved := getVerifiableEncryption_step deps config job fault runner call
  unfold callStep at stepped
  dsimp only at stepped alone
  split at stepped
  next after point made =>
    cases stepped
    rw [made] at moved
    cases moved with
    | retryable data error status stored read =>
      cases alone
      exact ⟨rfl,by simp [stored]⟩
    | unfinished => exact alone
    | retried error status =>
      obtain ⟨rfl,stored⟩ := alone
      exact ⟨stored,status,rfl⟩
    | unqueued status absent chosen =>
      cases alone
      exact ⟨rfl,absent⟩
    | inserted status =>
      obtain ⟨rfl,absent⟩ := alone
      exact ⟨absent,status,rfl⟩
  next => cases stepped

theorem alone_reaches {state : PdaRunner Encoded × Call Proof}
    (run : Reaches (callStep deps config job) Free (before,.readFinished) state) :
    state.2.Alone deps job before state.1 := by
  have start : Call.Alone deps job before before (.readFinished : Call Proof) := rfl
  change (fun reached : PdaRunner Encoded × Call Proof => reached.2.Alone deps job before reached.1) state
  apply run.invariant _ start
  intro reached fault after alone _ stepped
  exact alone_step alone stepped

theorem failsScheduling_same {call : Call Proof} {after : PdaRunner Encoded}
    (failed : FailsScheduling deps config job before call after) : before.SameTrees after ↔ call.sends = false := by
  obtain ⟨runner,message,error,run,schedules,same⟩ := failed
  have alone := alone_reaches run
  cases call with
  | readFinished | readQueue => cases schedules
  | retryTransaction | insert =>
    cases same
    obtain ⟨rfl,_⟩ := alone
    exact iff_of_true (.refl _) rfl
  | retrySend =>
    cases same
    obtain ⟨stored,status,rfl⟩ := alone
    rw [moveToQueue_same]
    exact iff_of_false (fun settled => stored settled.1) (by simp [Call.sends])
  | send =>
    cases same
    obtain ⟨absent,status,rfl⟩ := alone
    exact iff_of_false (insertQueue_differs absent status) (by simp [Call.sends])

end

/-- Where a call cannot schedule its job, the trees are as before if and only if what failed
was not its send; where `send_job_with_new_status` fails, if and only if its transaction
failed or had nothing to change. -/
theorem scheduling_failures_iff (config : Config) (job : Job) (before : PdaRunner Encoded) :
    (∀ (call : Call Proof) after, FailsScheduling deps config job before call after →
      (before.SameTrees after ↔ call.sends = false)) ∧
    (∀ jobKey status transaction sending after e,
      sendJobWithNewStatus deps jobKey status job transaction sending before = (after,.error e) →
      (before.SameTrees after ↔ transaction ≠ none ∨ (before.finishedDb.lookup jobKey = none ∧
        before.queueDb.lookup jobKey = some (deps.statusCodec.serialize status)))) :=
  ⟨fun _ _ failed => failsScheduling_same failed,fun _ _ _ _ _ _ failed => sendJobWithNewStatus_same failed⟩

namespace Tabulated

def plainJob : Job := dependencies.jobOf [1,2,3]

/-- A call on its own for the plaintext, over an empty database, after some operations. -/
def callAlone (operations : Nat) : PdaRunner (JobStatus Bytes) × Call Bytes :=
  final (callStep dependencies localConfig plainJob) (.empty,.readFinished) (List.replicate operations none)

theorem callAlone_reaches (operations : Nat)
    (executes : Executes (callStep dependencies localConfig plainJob) Free (.empty,.readFinished)
      (List.replicate operations none)) :
    Reaches (callStep dependencies localConfig plainJob) Free (.empty,.readFinished) (callAlone operations) :=
  final_reaches _ _ executes

theorem insert_fails : FailsScheduling dependencies localConfig plainJob .empty (.insert .localZkProofPending) .empty :=
  ⟨.empty,"disk full",_,callAlone_reaches 2 (by decide +kernel),rfl,rfl⟩

theorem send_fails : FailsScheduling dependencies localConfig plainJob .empty .send
    (PdaRunner.empty.insertQueue dependencies plainKey .localZkProofPending) :=
  ⟨_,"channel closed",_,callAlone_reaches 3 (by decide +kernel),rfl,rfl⟩

end Tabulated

theorem scheduling_failures_insert :
    (PdaRunner.empty : PdaRunner (JobStatus Bytes)).SameTrees .empty ↔
      (.insert .localZkProofPending : Call Bytes).sends = false :=
  (scheduling_failures_iff Tabulated.localConfig Tabulated.plainJob .empty).1 _ _ Tabulated.insert_fails

/-- A new job whose send fails stays in the queue without having been sent. -/
theorem failed_send_leaves_entry :
    ∃ after, FailsScheduling Tabulated.dependencies Tabulated.localConfig Tabulated.plainJob .empty .send after ∧
      after.channel = [] ∧ after.queueDb.lookup Tabulated.plainKey ≠ none ∧
      ¬ (PdaRunner.empty : PdaRunner (JobStatus Bytes)).SameTrees after :=
  ⟨_,Tabulated.send_fails,rfl,by simp [PdaRunner.insertQueue],insertQueue_differs rfl _⟩

end PdaProxy
