import PdaProxy.Pending
import PdaProxy.Stranding
import Mathlib.Data.Finset.Card

/-! The documented flow: a client that is told to call back comes back once the process has
nothing more to do. A request is put off at its first blob without a proof, so a client with
several new blobs comes back several times, once for each distinct job. -/
namespace PdaProxy
open PdaProxy.Semantics.Serialization PdaProxy.Semantics.Transition PdaProxy.Semantics.Pool PdaProxy.Semantics.Quiescence

variable {Proof Encoded Body : Type}

section
variable (deps : Dependencies Proof Encoded Body) (blobs : List Blob)

/-- A proof can be put into a blob of each of the request's namespaces. -/
def Fits (proof : Proof) : Prop :=
  ∀ blob ∈ blobs, ∃ encryptedBlob, deps.blobNew blob.nmtNamespace (deps.proofCodec.serialize proof) = .ok encryptedBlob

def Succeeds : Action Proof Body → Prop
  | .task _ (.proved _ result) | .task _ (.waited result) => ∃ proof, result = .ok proof ∧ Fits deps blobs proof
  | .task _ (.requested _ result) => ∃ requestId, result = .ok requestId
  | _ => True

/-- The process works by itself, and the provers prove what they are given. -/
def Proves (s : State Proof Encoded Body) (action : Action Proof Body) : Prop :=
  Unhindered deps s action ∧ Succeeds deps blobs action

def Stored (runner : PdaRunner Encoded) (key : Bytes) : Prop :=
  ∃ data proof, runner.finishedDb.lookup key = some data ∧
    deps.statusCodec.deserialize data = .ok (.zkProofFinished proof) ∧ Fits deps blobs proof

/-- A request comes in and is handled to its end, with no step of another in between. -/
def AnsweredAlone (u : State Proof Encoded Body) (req : IncomingRequest Body) (result : InboundResult Body)
    (v : State Proof Encoded Body) : Prop :=
  ∃ n, Executes (State.step deps) Free u (.receive req :: List.replicate n (.request 0 none)) ∧
    final (State.step deps) u (.receive req :: List.replicate n (.request 0 none)) = v ∧
    v.requests = [] ∧ v.served = u.served ++ [(req,result)]

/-- A client asks until its request is forwarded, and waits for the process to finish after
each time that it is put off. -/
inductive Resubmits (req : IncomingRequest Body) : State Proof Encoded Body → Nat → State Proof Encoded Body → Prop
  | forwarded (u v wrappedReq) (alone : AnsweredAlone deps u req (.ok (some wrappedReq)) v) : Resubmits req u 0 v
  | putOff (u v t w n) (alone : AnsweredAlone deps u req (.ok none) v)
      (worked : Reaches (State.step deps) (Proves deps blobs) v t)
      (rested : AtRest (State.step deps) (Proves deps blobs) t) (later : Resubmits req t n w) : Resubmits req u (n + 1) w

/-- The jobs of a request that have no result. -/
def missing (u : State Proof Encoded Body) : Finset Bytes :=
  (blobs.map (Blob.key deps)).toFinset.filter (· ∉ u.runner.finishedDb)

/-- A process that runs and has nothing to do, and has neither left a job of the request in the
queue nor finished one without a proof. -/
structure Ready (config : Config) (u : State Proof Encoded Body) : Prop where
  reached : ∃ first, Reaches (State.step deps) Free (State.initial first) u
  config : u.config = config
  running : u.process = .running
  requests : u.requests = []
  tasks : u.tasks = []
  channel : u.runner.channel = []
  unqueued : ∀ blob ∈ blobs, blob.key deps ∉ u.runner.finishedDb → blob.key deps ∉ u.runner.queueDb
  proved : ∀ blob ∈ blobs, blob.key deps ∈ u.runner.finishedDb → Stored deps blobs u.runner (blob.key deps)

end

variable {deps : Dependencies Proof Encoded Body} {blobs : List Blob} {config : Config} {req : IncomingRequest Body}
  {bodyJson : Json} {s t u v w : State Proof Encoded Body}

theorem AnsweredAlone.unique {result other : InboundResult Body} (alone : AnsweredAlone deps u req result v)
    (again : AnsweredAlone deps u req other w) : other = result ∧ w = v := by
  obtain ⟨n,executes,rfl,ended,served⟩ := alone
  obtain ⟨m,repeated,rfl,finished,answer⟩ := again
  -- A run that goes on after the other has ended would take a step without a request.
  have shorter {n m : Nat} (executes : Executes (State.step deps) Free u (.receive req :: List.replicate n (.request 0 none)))
      (ended : (final (State.step deps) u (.receive req :: List.replicate n (.request 0 none))).requests = [])
      (longer : Executes (State.step deps) Free u (.receive req :: List.replicate m (.request 0 none))) : m ≤ n := by
    by_contra more
    obtain ⟨k,rfl⟩ : ∃ k, m = n + (k + 1) := ⟨m - n - 1,by omega⟩
    rw [List.replicate_add,← List.cons_append] at longer
    obtain ⟨_,_,stepped,_⟩ := (executes_append.mp longer).2
    simp [State.step,ended] at stepped
  obtain rfl : m = n := Nat.le_antisymm (shorter executes ended repeated) (shorter repeated finished executes)
  have same := served.symm.trans answer
  simp only [List.append_cancel_left_eq,List.cons.injEq,Prod.mk.injEq,true_and,and_true] at same
  exact ⟨same.symm,rfl⟩

/-- The loop of `inbound_handler` passes the blobs that have their proofs. -/
theorem passes_stored (done rest encryptedBlobs : List Blob) (idle : u.requests = [])
    (stored : ∀ blob ∈ done, Finished deps u.runner blob) :
    let calls := List.replicate done.length (Action.request 0 none)
    let v := u.deliver req (submitBlobs deps req bodyJson encryptedBlobs (done ++ rest))
    ∃ passed answered, Executes (State.step deps) Free v calls ∧ final (State.step deps) v calls =
      State.deliver { u with answered } req (submitBlobs deps req bodyJson (encryptedBlobs ++ passed) rest) := by
  induction done generalizing u encryptedBlobs with
  | nil => exact ⟨[],u.answered,trivial,by simp [final]⟩
  | cons blob others ih =>
    obtain ⟨here,later⟩ := List.forall_mem_cons.mp stored
    let submission : Submission Body := ⟨req,bodyJson,encryptedBlobs,blob,others ++ rest⟩
    let waiting : State Proof Encoded Body := { u with requests := u.requests ++ [⟨submission,.readFinished⟩] }
    obtain ⟨encryptedBlob,answered,stepped⟩ := @finished_step Proof Encoded Body deps waiting u.requests submission rfl here
    have same : waiting.step deps (.request 0 none) = some (State.deliver { u with answered } req
        (submitBlobs deps req bodyJson (encryptedBlobs ++ [encryptedBlob]) (others ++ rest))) := by
      rw [List.length_eq_zero_iff.mpr idle] at stepped
      exact stepped
    obtain ⟨passed,answered,executes,ends⟩ := @ih { u with answered } (encryptedBlobs ++ [encryptedBlob]) idle later
    refine ⟨encryptedBlob :: passed,answered,⟨trivial,_,same,executes⟩,?_⟩
    change final (State.step deps) waiting (Action.request 0 none :: _) = _
    rw [final,same]
    simpa using ends

/-- With a proof for each of its blobs, a request is forwarded at once. -/
theorem answered_stored (up : u.process ≠ .stopped) (idle : u.requests = []) (parsed : req.json deps = .ok bodyJson)
    (submitted : submittedBlobs deps bodyJson = some blobs) (stored : ∀ blob ∈ blobs, Finished deps u.runner blob) :
    ∃ wrappedReq v, AnsweredAlone deps u req (.ok (some wrappedReq)) v := by
  have received : u.step deps (.receive req) = some (u.deliver req (submitBlobs deps req bodyJson [] (blobs ++ []))) := by
    rw [State.step,if_neg up,inboundHandler_submitted parsed submitted,List.append_nil]
  obtain ⟨passed,answered,executes,ends⟩ := @passes_stored Proof Encoded Body deps req bodyJson u blobs [] [] idle stored
  let wrappedReq := forward deps req (overwriteBlobs bodyJson (deps.blobsToValue ([] ++ passed)))
  refine ⟨wrappedReq,_,blobs.length,⟨trivial,_,received,executes⟩,rfl,?_⟩
  rw [final,received]
  dsimp only
  rw [ends]
  exact ⟨idle,rfl⟩

section
variable {submission : Submission Body} {call : Call Proof} {runner : PdaRunner Encoded}

theorem only_call_next (only : s.requests = [⟨submission,call⟩]) {next : Call Proof}
    (moved : getVerifiableEncryption deps s.config (submission.job deps) none s.runner call = (runner,.next next)) :
    s.step deps (.request 0 none) = some { s with runner, requests := [⟨submission,next⟩] } := by
  simp [State.step,State.requestStep,only,moved]

theorem only_call_returned (only : s.requests = [⟨submission,call⟩]) {result : CallResult Proof}
    (moved : getVerifiableEncryption deps s.config (submission.job deps) none s.runner call = (runner,.returned result)) :
    s.step deps (.request 0 none) = some (State.deliver { s with
      runner
      requests := []
      answered := s.answered ++ [⟨s.config,submission.job deps,result⟩] }
        submission.origin (submission.resume deps result)) := by
  simp [State.step,State.requestStep,only,moved]

end

/-- A call for a job without a record queues it. -/
theorem queues_missing {submission : Submission Body} {status : JobStatus Proof}
    (only : s.requests = [⟨submission,.readFinished⟩])
    (unfinished : s.runner.finishedDb.lookup (submission.blob.key deps) = none)
    (unqueued : s.runner.queueDb.lookup (submission.blob.key deps) = none) (chosen : initialStatus s.config = .next status) :
    let calls : List (Action Proof Body) := List.replicate 4 (.request 0 none)
    Executes (State.step deps) Free s calls ∧ final (State.step deps) s calls = { s with
      runner := (s.runner.insertQueue deps (submission.blob.key deps) status).send (some (submission.job deps))
      requests := []
      answered := s.answered ++ [⟨s.config,submission.job deps,.ok none⟩]
      served := s.served ++ [(submission.origin,.ok none)] } := by
  have absent : s.runner.finishedDb.lookup (deps.jobKey (submission.job deps)) = none := unfinished
  have new : s.runner.queueDb.lookup (deps.jobKey (submission.job deps)) = none := unqueued
  have first : s.step deps (.request 0 none) = some { s with requests := [⟨submission,.readQueue⟩] } :=
    only_call_next only (by simp only [getVerifiableEncryption,absent])
  have second : State.step deps { s with requests := [⟨submission,.readQueue⟩] } (.request 0 none) =
      some { s with requests := [⟨submission,.insert status⟩] } :=
    only_call_next rfl (by simp only [getVerifiableEncryption,new,chosen])
  have third : State.step deps { s with requests := [⟨submission,.insert status⟩] } (.request 0 none) = some { s with
      runner := s.runner.insertQueue deps (submission.blob.key deps) status
      requests := [⟨submission,.send⟩] } :=
    only_call_next rfl rfl
  have fourth := @only_call_returned Proof Encoded Body deps { s with
      runner := s.runner.insertQueue deps (submission.blob.key deps) status
      requests := [⟨submission,.send⟩] } submission .send _ rfl _ rfl
  refine ⟨⟨trivial,_,first,trivial,_,second,trivial,_,third,trivial,_,fourth,trivial⟩,?_⟩
  simp only [List.replicate,final,first,second,third,fourth]
  rfl

/-- At its first blob without a record a request queues the job of it, and is put off. -/
theorem answered_missing {done rest : List Blob} {blob : Blob} {status : JobStatus Proof} (up : u.process ≠ .stopped)
    (idle : u.requests = []) (parsed : req.json deps = .ok bodyJson)
    (submitted : submittedBlobs deps bodyJson = some (done ++ blob :: rest))
    (stored : ∀ blob ∈ done, Finished deps u.runner blob) (unfinished : u.runner.finishedDb.lookup (blob.key deps) = none)
    (unqueued : u.runner.queueDb.lookup (blob.key deps) = none) (chosen : initialStatus u.config = .next status) :
    ∃ answered, AnsweredAlone deps u req (.ok none) { u with
      runner := (u.runner.insertQueue deps (blob.key deps) status).send (some (deps.jobOf blob.data))
      answered
      served := u.served ++ [(req,.ok none)] } := by
  have received : u.step deps (.receive req) =
      some (u.deliver req (submitBlobs deps req bodyJson [] (done ++ blob :: rest))) := by
    rw [State.step,if_neg up,inboundHandler_submitted parsed submitted]
  obtain ⟨passed,answered,executes,ends⟩ := @passes_stored Proof Encoded Body deps req bodyJson u done (blob :: rest) [] idle
    stored
  let submission : Submission Body := ⟨req,bodyJson,[] ++ passed,blob,rest⟩
  have only : u.requests ++ [⟨submission,.readFinished⟩] = [(⟨submission,.readFinished⟩ : RequestThread Proof Body)] := by
    simp [idle]
  obtain ⟨queued,answer⟩ := @queues_missing Proof Encoded Body deps
    (State.deliver { u with answered } req (.encrypt submission)) submission status only unfinished unqueued chosen
  have whole := executes_append.mpr ⟨executes,ends ▸ queued⟩
  have reached := final_append executes (List.replicate 4 (.request 0 none))
  rw [ends] at reached
  rw [List.replicate_append_replicate] at whole reached
  refine ⟨answered ++ [⟨u.config,deps.jobOf blob.data,.ok none⟩],done.length + 4,⟨trivial,_,received,whole⟩,?_,idle,rfl⟩
  rw [final,received]
  refine (reached.trans answer).trans ?_
  simp only [State.deliver,idle,submission,Submission.job]

theorem AnsweredAlone.reaches {result : InboundResult Body} (alone : AnsweredAlone deps u req result v) :
    Reaches (State.step deps) (fun u action => Undisturbed action ∧ Finalizes deps u action) u v := by
  obtain ⟨n,executes,rfl,_,_⟩ := alone
  apply final_reaches
  apply executes.guarded
  intro s action member
  rcases List.mem_cons.mp member with rfl | call
  · exact ⟨trivial,trivial⟩
  · obtain rfl := List.eq_of_mem_replicate call
    exact ⟨rfl,trivial⟩

/-- The task asks the network for a proof, or has just done so. -/
def Stage.asksNetwork : Stage Proof → Bool
  | .remoteRequesting | .updateStatus _ => true
  | .readQueue | .localPending | .remotePending _ | .finalize _ | .sendBack => false

/-- While the job of one key is proved nothing else is touched, and the network is asked only if
it can be. -/
structure Working (deps : Dependencies Proof Encoded Body) (blobs : List Blob) (key : Bytes) (before : PdaRunner Encoded)
    (s : State Proof Encoded Body) : Prop where
  requests : s.requests = []
  message : ∀ job, some job ∈ s.runner.channel → deps.jobKey job = key
  task : ∀ task ∈ s.tasks, task.key deps = key ∧
    ∀ status, task.stage = .finalize status → ∃ proof, status = .zkProofFinished proof ∧ Fits deps blobs proof
  asks : ∀ task ∈ s.tasks, task.stage.asksNetwork = true → s.config.UsableStrategy deps
  queued : ∀ data, s.runner.queueDb.lookup key = some data →
    deps.statusCodec.deserialize data = .ok .remoteZkProofRequesting → s.config.UsableStrategy deps
  others : ∀ other, other ≠ key → s.runner.queueDb.lookup other = before.queueDb.lookup other ∧
    s.runner.finishedDb.lookup other = before.finishedDb.lookup other
  stored : key ∈ s.runner.finishedDb → Stored deps blobs s.runner key

section
variable {key : Bytes} {first : PdaRunner Encoded} {job : Job} {runner after : PdaRunner Encoded} {stage : Stage Proof}
  {answer : Answer Proof} {progress : Progress (Stage Proof) ProveResult}

/-- A prover that succeeds leads to a proof, and nothing else is stored for its job. -/
theorem TaskStep.working {i : Nat}
    (final : ∀ status, stage = .finalize status → ∃ proof, status = .zkProofFinished proof ∧ Fits deps blobs proof)
    (succeeds : Succeeds deps blobs (.task i answer : Action Proof Body))
    (moved : TaskStep deps config job runner stage answer after progress) :
    (deps.jobKey job ∈ after.finishedDb → Stored deps blobs after (deps.jobKey job) ∨ after.finishedDb = runner.finishedDb) ∧
    ∀ status, progress = .next (.finalize status) → ∃ proof, status = .zkProofFinished proof ∧ Fits deps blobs proof := by
  have untouched (noFinal : ∀ status, progress ≠ .next (.finalize status)) (kept : after.finishedDb = runner.finishedDb) :
      (deps.jobKey job ∈ after.finishedDb →
        Stored deps blobs after (deps.jobKey job) ∨ after.finishedDb = runner.finishedDb) ∧
      ∀ status, progress = .next (.finalize status) → ∃ proof, status = .zkProofFinished proof ∧ Fits deps blobs proof :=
    ⟨fun _ => .inr kept,fun status same => absurd same (noFinal status)⟩
  cases moved with
  | lost _ _ _ _ ended => exact untouched (fun _ => ended _) rfl
  | started data status stored read => exact untouched (fun _ => by cases status <;> simp [startingStage]) rfl
  | refusedLocal | refusedWait =>
    obtain ⟨_,failed,_⟩ := succeeds
    cases failed
  | refusedRemote =>
    obtain ⟨_,failed⟩ := succeeds
    cases failed
  | proved nonce proof =>
    obtain ⟨_,made,fits⟩ := succeeds
    cases made
    exact ⟨fun _ => .inr rfl,fun status same => by cases same; exact ⟨proof,rfl,fits⟩⟩
  | waited requestId proof =>
    obtain ⟨_,made,fits⟩ := succeeds
    cases made
    exact ⟨fun _ => .inr rfl,fun status same => by cases same; exact ⟨proof,rfl,fits⟩⟩
  | finalized status =>
    obtain ⟨proof,rfl,fits⟩ := final status rfl
    refine ⟨fun _ => .inl ?_,fun _ same => by cases same⟩
    exact ⟨_,proof,AList.lookup_insert _,deps.statusCodec.round_trip _,fits⟩
  | updated status =>
    refine ⟨fun finished => ?_,fun _ same => by cases same⟩
    exact absurd rfl (AList.mem_erase.mp finished).1
  | _ => exact untouched (by simp) rfl

/-- The network is asked for jobs that are queued for it. -/
theorem TaskStep.asks (asks : stage.asksNetwork = true → config.UsableStrategy deps)
    (queued : ∀ data, runner.queueDb.lookup (deps.jobKey job) = some data →
      deps.statusCodec.deserialize data = .ok .remoteZkProofRequesting → config.UsableStrategy deps)
    (moved : TaskStep deps config job runner stage answer after progress) :
    (∀ next, progress = .next next → next.asksNetwork = true → config.UsableStrategy deps) ∧
      ∀ data, after.queueDb.lookup (deps.jobKey job) = some data →
        deps.statusCodec.deserialize data = .ok .remoteZkProofRequesting → config.UsableStrategy deps := by
  cases moved with
  | lost _ _ _ _ ended => exact ⟨fun next same => absurd same (ended next),queued⟩
  | started data status stored read =>
    refine ⟨fun next same asked => ?_,queued⟩
    cases status with
    | remoteZkProofRequesting => exact queued data stored read
    | localZkProofPending | remoteZkProofPending | zkProofFinished | failed =>
      cases same
      try cases asked
  | requested nonce requestId usable => exact ⟨fun _ _ _ => usable,queued⟩
  | finalized status =>
    refine ⟨fun _ same => (by cases same),fun data found => ?_⟩
    cases (AList.lookup_erase (deps.jobKey job) runner.queueDb).symm.trans found
  | updated status => exact ⟨fun _ _ _ => asks rfl,fun _ _ _ => asks rfl⟩
  | _ =>
    refine ⟨fun _ same asked => ?_,queued⟩
    cases same <;> cases asked

theorem Working.worked (working : Working deps blobs key first s) {i : Nat} {task : ProveTask Proof} (network : Network)
    {tasks : List (ProveTask Proof)} (found : s.tasks[i]? = some task)
    (succeeds : Succeeds deps blobs (.task i answer : Action Proof Body))
    (moved : TaskStep deps s.config task.job s.runner task.stage answer runner progress)
    (left : ∀ other ∈ tasks, other ∈ s.tasks ∨ ∃ stage, progress = .next stage ∧ other = { task with stage }) :
    Working deps blobs key first { s with runner, network, tasks } := by
  have member := List.mem_of_getElem? found
  obtain ⟨rfl,final⟩ := working.task task member
  obtain ⟨stored,writes⟩ := moved.working final succeeds
  obtain ⟨asks,queued⟩ := moved.asks (working.asks task member) working.queued
  refine ⟨working.requests,fun job sent => ?_,?_,?_,queued,fun other different => ?_,fun finished => ?_⟩
  · exact (moved.channel sent).elim (working.message job) fun own => own ▸ rfl
  · intro other inside
    rcases left other inside with old | ⟨stage,next,rfl⟩
    · exact working.task other old
    · exact ⟨rfl,fun status here => writes status (next.trans (congrArg _ here))⟩
  · intro other inside
    rcases left other inside with old | ⟨stage,next,rfl⟩
    · exact working.asks other old
    · exact asks stage next
  · obtain ⟨queue,finished⟩ := moved.elsewhere different
    exact (working.others other different).imp queue.trans finished.trans
  · rcases stored finished with here | kept
    · exact here
    · simp only [Stored,kept] at finished ⊢
      exact working.stored finished

theorem working_step {action : Action Proof Body} (working : Working deps blobs key first s)
    (allowed : Proves deps blobs s action) (stepped : s.step deps action = some t) : Working deps blobs key first t := by
  obtain ⟨⟨internal,undisturbed,_⟩,succeeds⟩ := allowed
  cases step_cases stepped with
  | receive | shutdown | crash | restarted | restartPanicked => exact internal.elim
  | exit => exact undisturbed.elim
  | callNext _ _ _ thread _ _ _ found | callReturned _ _ _ thread _ _ _ found | callPanicked _ _ _ thread _ found =>
    simp [working.requests] at found
  | taskNext i answer before task after runner stage found pool moved =>
    refine working.worked _ found succeeds moved fun other inside => ?_
    exact (mem_replaced inside).imp (fun old => pool ▸ old) fun same => ⟨stage,rfl,same⟩
  | taskEnded i answer before task after runner progress found pool ended moved =>
    exact working.worked _ found succeeds moved fun other inside => .inl (pool ▸ mem_removed inside)
  | received job rest up sent =>
    refine ⟨working.requests,fun other later => working.message other (by simp [sent,later]),?_,?_,working.queued,
      working.others,working.stored⟩
    · intro task member
      rcases List.mem_append.mp member with old | new
      · exact working.task task old
      · obtain rfl := List.mem_singleton.mp new
        exact ⟨working.message job (by simp [sent]),fun status same => by cases same⟩
    · intro task member asked
      rcases List.mem_append.mp member with old | new
      · exact working.asks task old asked
      · obtain rfl := List.mem_singleton.mp new
        cases asked
  | stopReceived rest up sent =>
    exact ⟨working.requests,fun other later => working.message other (by simp [sent,later]),working.task,working.asks,
      working.queued,working.others,working.stored⟩

end

/-- A task that need not ask the network, or can, has an answer with which its prover succeeds. -/
theorem proves_answer (fits : ∃ proof : Proof, Fits deps blobs proof) (job : Job) {stage : Stage Proof}
    (usable : stage.asksNetwork = true → s.config.UsableStrategy deps) :
    ∃ answer, Proves deps blobs s (.task 0 answer : Action Proof Body) ∧
      prove deps s.config job answer s.runner stage ≠ none := by
  have nonce : Block NONCE_LEN := ⟨List.replicate NONCE_LEN 0,List.length_replicate⟩
  obtain ⟨proof,fits⟩ := fits
  cases stage with
  | readQueue =>
    refine ⟨.storage none,⟨⟨trivial,rfl,rfl⟩,trivial⟩,?_⟩
    simp only [prove]
    split
    next => simp
    next => split <;> simp
  | finalize | updateStatus | sendBack => exact ⟨.storage none,⟨⟨trivial,rfl,rfl⟩,trivial⟩,by simp [prove]⟩
  | localPending => exact ⟨.proved nonce (.ok proof),⟨⟨trivial,trivial,rfl⟩,proof,rfl,fits⟩,by simp [prove,zkProofLocal]⟩
  | remotePending => exact ⟨.waited (.ok proof),⟨⟨trivial,trivial,rfl⟩,proof,rfl,fits⟩,by simp [prove,waitForZkProof]⟩
  | remoteRequesting =>
    have requestId : SuccNetJobId := ⟨List.replicate _ 0,List.length_replicate⟩
    have known := usable rfl
    refine ⟨.requested nonce (.ok requestId),⟨⟨trivial,trivial,known,rfl⟩,requestId,rfl⟩,?_⟩
    unfold Config.UsableStrategy at known
    cases strategy : s.config.sp1FulfillmentStrategy with
    | none => simp [strategy] at known
    | some name => simp [prove,zkProofRemote,strategy,show deps.isStrategyName name = true by simpa [strategy] using known]

/-- A process that has proved the job it was given is ready again, with one job less to prove. -/
theorem ready_again (fits : ∃ proof : Proof, Fits deps blobs proof) (ready : Ready deps blobs config u) {key : Bytes}
    {result : InboundResult Body} (alone : AnsweredAlone deps u req result v) (start : Working deps blobs key u.runner v)
    (hand : InHand deps v key) (worked : Reaches (State.step deps) (Proves deps blobs) v t)
    (rested : AtRest (State.step deps) (Proves deps blobs) t) :
    Ready deps blobs config t ∧ missing deps blobs t = (missing deps blobs u).erase key := by
  obtain ⟨first,reached⟩ := ready.reached
  have before : Reaches (State.step deps) Free (State.initial first) v :=
    reached.trans (alone.reaches.weaken fun _ _ _ => trivial)
  have run : Reaches (State.step deps) Free (State.initial first) t := before.trans (worked.weaken fun _ _ _ => trivial)
  have alive : Uninterrupted config u := ⟨ready.config,ready.running,by simp [ready.channel]⟩
  have called : Uninterrupted config v :=
    alone.reaches.invariant (fun _ _ _ kept allowed stepped => uninterrupted_step kept allowed.1 stepped) alive
  have uninterrupted : Uninterrupted config t :=
    worked.invariant (fun _ _ _ kept allowed stepped => uninterrupted_step kept allowed.1.2.1 stepped) called
  have working : Working deps blobs key u.runner t :=
    worked.invariant (fun _ _ _ kept allowed stepped => working_step kept allowed stepped) start
  have noTasks := rest_tasks rested fun task member => proves_answer fits task.job (working.asks task member)
  have noMessages := rest_channel rested ⟨⟨trivial,trivial,trivial⟩,trivial⟩ uninterrupted.running
  have held := inHand_reaches before (worked.weaken fun _ _ allowed => allowed.1) (.inr hand)
  have finished : key ∈ t.runner.finishedDb := by
    refine held.resolve_right fun hand => ?_
    cases hand with
    | waiting job sent => simp [noMessages] at sent
    | running task member => simp [noTasks] at member
    | calling thread member => simp [working.requests] at member
  have same {other : Bytes} (different : other ≠ key) : other ∈ t.runner.finishedDb ↔ other ∈ u.runner.finishedDb :=
    mem_of_lookup (working.others other different).2
  refine ⟨⟨⟨first,run⟩,uninterrupted.config,uninterrupted.running,working.requests,noTasks,noMessages,
    fun blob member unfinished => ?_,fun blob member recorded => ?_⟩,?_⟩
  · have different : blob.key deps ≠ key := fun here => unfinished (here ▸ finished)
    rw [mem_of_lookup (working.others _ different).1]
    exact ready.unqueued blob member fun old => unfinished ((same different).mpr old)
  · by_cases here : blob.key deps = key
    · exact here ▸ working.stored finished
    · obtain ⟨data,proof,stored,read⟩ := ready.proved blob member ((same here).mp recorded)
      exact ⟨data,proof,(working.others _ here).2.trans stored,read⟩
  · ext other
    simp only [missing,Finset.mem_filter,Finset.mem_erase]
    by_cases here : other = key
    · subst here
      simp [finished]
    · simp [here,same here]

/-- What a request that comes to a ready process is answered. -/
theorem ready_answered (fits : ∃ proof : Proof, Fits deps blobs proof) {status : JobStatus Proof}
    (chosen : initialStatus config = .next status)
    (usable : status = .remoteZkProofRequesting → config.UsableStrategy deps) (parsed : req.json deps = .ok bodyJson)
    (submitted : submittedBlobs deps bodyJson = some blobs) (ready : Ready deps blobs config u) :
    (missing deps blobs u = ∅ ∧ ∃ wrappedReq v, AnsweredAlone deps u req (.ok (some wrappedReq)) v) ∨
    ∃ key ∈ missing deps blobs u, ∃ v, AnsweredAlone deps u req (.ok none) v ∧
      ∀ t, Reaches (State.step deps) (Proves deps blobs) v t → AtRest (State.step deps) (Proves deps blobs) t →
        Ready deps blobs config t ∧ missing deps blobs t = (missing deps blobs u).erase key := by
  have up : u.process ≠ .stopped := by simp [ready.running]
  have stored {blob : Blob} (member : blob ∈ blobs) (finished : blob.key deps ∈ u.runner.finishedDb) :
      Finished deps u.runner blob := by
    obtain ⟨data,proof,found,read,fits⟩ := ready.proved blob member finished
    obtain ⟨encryptedBlob,made⟩ := fits blob member
    exact ⟨data,proof,encryptedBlob,found,read,made⟩
  cases first : blobs.find? fun blob => decide (blob.key deps ∉ u.runner.finishedDb) with
  | none =>
    have all : ∀ blob ∈ blobs, blob.key deps ∈ u.runner.finishedDb := by simpa using first
    refine .inl ⟨?_,answered_stored up ready.requests parsed submitted fun blob member => stored member (all blob member)⟩
    simpa [missing,Finset.filter_eq_empty_iff] using all
  | some blob =>
    obtain ⟨unfinished,done,rest,split,passed⟩ := List.find?_eq_some_iff_append.mp first
    have member : blob ∈ blobs := by simp [split]
    have absent : u.runner.finishedDb.lookup (blob.key deps) = none := AList.lookup_eq_none.mpr (by simpa using unfinished)
    have unqueued : u.runner.queueDb.lookup (blob.key deps) = none :=
      AList.lookup_eq_none.mpr (ready.unqueued blob member (AList.lookup_eq_none.mp absent))
    have before : ∀ other ∈ done, Finished deps u.runner other := by
      intro other inside
      exact stored (by simp [split,inside]) (by simpa using passed other inside)
    obtain ⟨answered,alone⟩ := answered_missing up ready.requests parsed (split ▸ submitted) before absent unqueued
      (ready.config ▸ chosen)
    refine .inr ⟨blob.key deps,?_,_,alone,fun t worked rested => ready_again fits ready alone ?_ ?_ worked rested⟩
    · simp only [missing,Finset.mem_filter,List.mem_toFinset]
      exact ⟨List.mem_map_of_mem member,AList.lookup_eq_none.mp absent⟩
    · refine ⟨ready.requests,?_,?_,?_,fun data found read => ?_,fun other different => ⟨?_,rfl⟩,
        fun finished => absurd finished (AList.lookup_eq_none.mp absent)⟩
      · simp [PdaRunner.send,PdaRunner.insertQueue,ready.channel,Blob.key]
      · simp [ready.tasks]
      · simp [ready.tasks]
      · cases (AList.lookup_insert u.runner.queueDb).symm.trans found
        rw [deps.statusCodec.round_trip] at read
        exact ready.config.symm ▸ usable (Except.ok.inj read)
      · exact AList.lookup_insert_ne different
    · exact .waiting (deps.jobOf blob.data) (List.mem_append_right _ List.mem_cons_self) rfl

/-- A client that comes back whenever the process has finished is put off once for each distinct
job of its request that had no result, and is then forwarded. -/
theorem resubmissions (deps : Dependencies Proof Encoded Body) (config : Config) (status : JobStatus Proof)
    (chosen : initialStatus config = .next status)
    (usable : status = .remoteZkProofRequesting → config.UsableStrategy deps) (req : IncomingRequest Body) (bodyJson : Json)
    (parsed : req.json deps = .ok bodyJson) (blobs : List Blob) (submitted : submittedBlobs deps bodyJson = some blobs)
    (fits : ∃ proof : Proof, Fits deps blobs proof) (u : State Proof Encoded Body) (ready : Ready deps blobs config u) :
    (∃ w, Resubmits deps blobs req u (missing deps blobs u).card w) ∧
      ∀ n w, Resubmits deps blobs req u n w → n = (missing deps blobs u).card := by
  constructor
  · generalize size : (missing deps blobs u).card = n
    induction n generalizing u with
    | zero =>
      rcases ready_answered fits chosen usable parsed submitted ready with ⟨_,wrappedReq,v,alone⟩ | ⟨key,member,_⟩
      · exact ⟨v,.forwarded u v wrappedReq alone⟩
      · simp [Finset.card_eq_zero.mp size] at member
    | succ n ih =>
      rcases ready_answered fits chosen usable parsed submitted ready with ⟨none,_⟩ | ⟨key,member,v,alone,again⟩
      · simp [none] at size
      · obtain ⟨first,reached⟩ := ready.reached
        have before : Reaches (State.step deps) Free (State.initial first) v :=
          reached.trans (alone.reaches.weaken fun _ _ _ => trivial)
        have holds := updatesPending_reaches before
        have lowers : Lowers (State.step deps) (Proves deps blobs) updatesPending.Holds (State.potential deps) :=
          service_lowers.weaken fun _ _ allowed => allowed.1.1
        obtain ⟨t,worked,rested⟩ := comes_to_rest lowers v holds
        obtain ⟨ready,fewer⟩ := again t worked rested
        obtain ⟨w,later⟩ := ih t ready (by rw [fewer,Finset.card_erase_of_mem member,size]; rfl)
        exact ⟨w,.putOff u v t w n alone worked rested later⟩
  · intro n w rounds
    induction rounds with
    | forwarded u v wrappedReq alone =>
      rcases ready_answered fits chosen usable parsed submitted ready with ⟨none,_⟩ | ⟨key,member,other,pending,_⟩
      · simp [none]
      · cases (alone.unique pending).1
    | putOff u v t w n alone worked rested later ih =>
      rcases ready_answered fits chosen usable parsed submitted ready with
        ⟨_,_,other,forwarded⟩ | ⟨key,member,other,pending,again⟩
      · cases (alone.unique forwarded).1
      · obtain rfl := (alone.unique pending).2
        obtain ⟨ready,fewer⟩ := again t worked rested
        rw [ih ready,fewer]
        exact Finset.card_erase_add_one member

namespace Tabulated

def pairBlobs : List Blob := [⟨List.replicate 29 0,[1,2,3],0,[],none,none⟩,zeroBlob]

theorem ready_initial (config : Config) : Ready dependencies pairBlobs config (.initial config) :=
  ⟨⟨config,.refl⟩,rfl,rfl,rfl,rfl,rfl,fun _ _ _ => AList.notMem_empty _,
    fun _ _ finished => absurd finished (AList.notMem_empty _)⟩

theorem fits_any : Fits dependencies pairBlobs [] := fun _ _ => ⟨_,blobNew_eq _ _⟩

end Tabulated

set_option maxRecDepth 2048 in
/-- A client with two new blobs is put off twice. -/
theorem resubmissions_pair :
    ∃ w, Resubmits Tabulated.dependencies Tabulated.pairBlobs Tabulated.pairRequest
      (.initial Tabulated.networkConfig) 2 w := by
  have two : (missing Tabulated.dependencies Tabulated.pairBlobs
      (.initial Tabulated.networkConfig : State Bytes (JobStatus Bytes) Json)).card = 2 := by decide +kernel
  rw [← two]
  exact (resubmissions Tabulated.dependencies Tabulated.networkConfig _ rfl
    (fun _ => by unfold Config.UsableStrategy; decide) Tabulated.pairRequest _ rfl Tabulated.pairBlobs (by decide +kernel)
    ⟨[],Tabulated.fits_any⟩ _ (Tabulated.ready_initial _)).1

end PdaProxy
