import PdaProxy.Recovery
import PdaProxy.Egress

/-! Which data a proof belongs to. A status is stored under a job key, and what it holds, a
proof or a request ID, was made for the data whose hash is in that key, under the encryption
key and the program of the process that made it. So what a call returns decrypts to the data
it was called with, where the hash does not collide and the process keeps its secrets. -/
namespace PdaProxy
open PdaProxy.Semantics.Serialization PdaProxy.Semantics.Transition PdaProxy.Semantics.Pool

variable {Proof Encoded Body : Type}

/-- A proof of the guest's run on an input, under the verifying key of the program. -/
structure Dependencies.Proves (deps : Dependencies Proof Encoded Body) (elf : Bytes) (stdin : List Bytes)
    (proof : Proof) : Prop where
  commits : guestMain deps.sha256 deps.cipher stdin = .ok (deps.publicValues proof)
  verifies : deps.verify proof (deps.setup elf).vk = .ok ()

def Stage.pendingId : Stage Proof → Option SuccNetJobId
  | .remotePending requestId => some requestId
  | .readQueue | .remoteRequesting | .localPending | .finalize _ | .updateStatus _ | .sendBack => none

section
variable (deps : Dependencies Proof Encoded Body)

/-- A prover that succeeds has proved what it was given; the network's proof under an ID
is one of the request that has this ID. -/
def HonestProver (s : State Proof Encoded Body) : Action Proof Body → Prop
  | .task i (.proved nonce (.ok proof)) =>
    ∀ task ∈ s.tasks[i]?, deps.Proves s.config.chachaElf (proverStdin s.config nonce task.job) proof
  | .task i (.waited (.ok proof)) =>
    ∀ task ∈ s.tasks[i]?, ∀ request ∈ s.network.accepted, task.stage.pendingId = some request.requestId →
      deps.Proves request.elf request.stdin proof
  | _ => True

def Within (data : Set Bytes) (req : IncomingRequest Body) : Prop :=
  ∀ bodyJson ∈ (req.json deps).toOption, ∀ blob ∈ (submittedBlobs deps bodyJson).getD [], blob.data ∈ data

def Config.SameSecrets (config other : Config) : Prop :=
  other.encryptionKey = config.encryptionKey ∧ other.chachaElf = config.chachaElf

theorem Config.SameSecrets.symm {config other : Config} (same : config.SameSecrets other) :
    other.SameSecrets config := ⟨same.1.symm,same.2.symm⟩

def KeepsSecrets (s : State Proof Encoded Body) : Action Proof Body → Prop
  | .restart config => s.config.SameSecrets config
  | _ => True

def holdsProof (data : Encoded) : Bool :=
  match deps.statusCodec.deserialize data with
  | .ok (.zkProofFinished _) => true
  | _ => false

/-- No process starts with other secrets while a proof is stored. -/
def KeepsResults (s : State Proof Encoded Body) : Action Proof Body → Prop
  | .restart config => s.config.SameSecrets config ∨
      ∀ entry ∈ s.runner.finishedDb.iter, holdsProof deps entry.2 = false
  | _ => True

/-- A proof of the encryption of some data with a configuration's secrets. -/
def Attests (config : Config) (data : Bytes) (proof : Proof) : Prop :=
  ∃ nonce, deps.Proves config.chachaElf (proverStdin config nonce (deps.jobOf data)) proof

def Promised (config : Config) (accepted : List ProofRequest) (data : Bytes) (requestId : SuccNetJobId) : Prop :=
  ∃ nonce, ⟨requestId,config.chachaElf,proverStdin config nonce (deps.jobOf data)⟩ ∈ accepted

/-- What a status says about the data of its job. -/
def StatusFor (config : Config) (accepted : List ProofRequest) (data : Bytes) : JobStatus Proof → Prop
  | .zkProofFinished proof => Attests deps config data proof
  | .remoteZkProofPending requestId => Promised deps config accepted data requestId
  | .failed _ retryStatus => ∀ status ∈ retryStatus, status = .remoteZkProofRequesting
  | .localZkProofPending | .remoteZkProofRequesting => True

def StatusAt (known : Set Bytes) (config : Config) (accepted : List ProofRequest) (key : Bytes)
    (status : JobStatus Proof) : Prop :=
  ∃ data ∈ known, key = deps.jobKey (deps.jobOf data) ∧ StatusFor deps config accepted data status

def JobWithin (known : Set Bytes) (job : Job) : Prop := ∃ data ∈ known, job = deps.jobOf data

/-- Every status belongs to the data of its key, and every proof that was returned to the
data of its call. -/
def bindings (known : Set Bytes) : Assertions Proof Encoded Body where
  shared history queueDb finishedDb :=
    StoresBoth deps queueDb finishedDb (StatusAt deps known history.config history.network.accepted)
      (StatusAt deps known history.config history.network.accepted) ∧
    ∀ entry ∈ history.answered, ∀ proof, entry.result = .ok (some proof) →
      ∃ data ∈ known, entry.job = deps.jobOf data ∧ Attests deps entry.config data proof
  request history submission call := (∀ blob ∈ submission.blob :: submission.rest, blob.data ∈ known) ∧
    call.Writes (StatusAt deps known history.config history.network.accepted (deps.jobKey (submission.job deps)))
  task history job stage := JobWithin deps known job ∧
    stage.Writes (StatusAt deps known history.config history.network.accepted (deps.jobKey job))
      (StatusAt deps known history.config history.network.accepted (deps.jobKey job)) ∧
    ∀ requestId, stage = .remotePending requestId →
      StatusAt deps known history.config history.network.accepted (deps.jobKey job) (.remoteZkProofPending requestId)
  message _ job := JobWithin deps known job
  served _ _ _ := True

end

variable {deps : Dependencies Proof Encoded Body} {known : Set Bytes}

instance (elf : Bytes) (stdin : List Bytes) (proof : Proof) : Decidable (deps.Proves elf stdin proof) :=
  decidable_of_iff (guestMain deps.sha256 deps.cipher stdin = .ok (deps.publicValues proof) ∧
    deps.verify proof (deps.setup elf).vk = .ok ()) ⟨fun both => ⟨both.1,both.2⟩,fun proves => ⟨proves.commits,proves.verifies⟩⟩

instance [DecidablePred (· ∈ known)] : DecidablePred (Within deps known) := fun req =>
  inferInstanceAs (Decidable (∀ bodyJson ∈ (req.json deps).toOption,
    ∀ blob ∈ (submittedBlobs deps bodyJson).getD [], blob.data ∈ known))

instance (s : State Proof Encoded Body) : DecidablePred (HonestProver deps s)
  | .task i (.proved nonce (.ok proof)) => inferInstanceAs (Decidable (∀ task ∈ s.tasks[i]?,
      deps.Proves s.config.chachaElf (proverStdin s.config nonce task.job) proof))
  | .task i (.waited (.ok proof)) => inferInstanceAs (Decidable (∀ task ∈ s.tasks[i]?,
      ∀ request ∈ s.network.accepted, task.stage.pendingId = some request.requestId →
        deps.Proves request.elf request.stdin proof))
  | .task _ (.proved _ (.error _)) | .task _ (.waited (.error _)) | .task _ (.requested _ _)
  | .task _ (.storage _) | .task _ (.setupFailed _) | .task _ .panics
  | .receive _ | .request _ _ | .recv | .shutdown | .exit | .crash _ | .restart _ => isTrue trivial

instance (config other : Config) : Decidable (config.SameSecrets other) := inferInstanceAs (Decidable (_ ∧ _))

instance (s : State Proof Encoded Body) : DecidablePred (KeepsSecrets s)
  | .restart config => inferInstanceAs (Decidable (s.config.SameSecrets config))
  | .receive _ | .request _ _ | .recv | .task _ _ | .shutdown | .exit | .crash _ => isTrue trivial

instance (s : State Proof Encoded Body) : DecidablePred (KeepsResults deps s)
  | .restart config => inferInstanceAs (Decidable (s.config.SameSecrets config ∨
      ∀ entry ∈ s.runner.finishedDb.iter, holdsProof deps entry.2 = false))
  | .receive _ | .request _ _ | .recv | .task _ _ | .shutdown | .exit | .crash _ => isTrue trivial

theorem Stores.imp {tree : SledTree Encoded} {property weaker : Bytes → JobStatus Proof → Prop}
    (stores : Stores deps tree property) (implied : ∀ key status, property key status → weaker key status) :
    Stores deps tree weaker := by
  intro key data found
  obtain ⟨status,written,holds⟩ := stores key data found
  exact ⟨status,written,implied key status holds⟩

theorem Call.Writes.imp {call : Call Proof} {queued weaker : JobStatus Proof → Prop} (writes : call.Writes queued)
    (implied : ∀ status, queued status → weaker status) : call.Writes weaker := by
  cases call with
  | retryTransaction error status => exact implied status writes
  | insert status => exact implied status writes
  | _ => trivial

theorem Stage.Writes.imp {stage : Stage Proof} {property weaker : JobStatus Proof → Prop}
    (writes : stage.Writes property property) (implied : ∀ status, property status → weaker status) :
    stage.Writes weaker weaker := by
  cases stage with
  | finalize status => exact implied status writes
  | updateStatus status => exact implied status writes
  | _ => trivial

section
variable {config other : Config} {accepted later : List ProofRequest} {key : Bytes} {status : JobStatus Proof}

theorem StatusAt.grows (grown : accepted ⊆ later) (bound : StatusAt deps known config accepted key status) :
    StatusAt deps known config later key status := by
  obtain ⟨data,member,same,holds⟩ := bound
  refine ⟨data,member,same,?_⟩
  cases status with
  | remoteZkProofPending requestId =>
    obtain ⟨nonce,promised⟩ := holds
    exact ⟨nonce,grown promised⟩
  | _ => exact holds

theorem Attests.reconfigured {data : Bytes} {proof : Proof} (same : config.SameSecrets other)
    (attests : Attests deps config data proof) : Attests deps other data proof := by
  obtain ⟨nonce,proves⟩ := attests
  exact ⟨nonce,by simpa only [proverStdin,same.1,same.2] using proves⟩

theorem StatusAt.reconfigured (same : config.SameSecrets other)
    (bound : StatusAt deps known config accepted key status) : StatusAt deps known other accepted key status := by
  obtain ⟨data,member,keyed,holds⟩ := bound
  refine ⟨data,member,keyed,?_⟩
  cases status with
  | zkProofFinished proof => exact Attests.reconfigured same holds
  | remoteZkProofPending requestId =>
    obtain ⟨nonce,promised⟩ := holds
    exact ⟨nonce,by simpa only [proverStdin,same.1,same.2] using promised⟩
  | _ => exact holds

theorem StatusAt.unproved (final : status.IsFinal) (unproved : ∀ proof, status ≠ .zkProofFinished proof)
    (bound : StatusAt deps known config accepted key status) : StatusAt deps known other accepted key status := by
  obtain ⟨data,member,keyed,holds⟩ := bound
  refine ⟨data,member,keyed,?_⟩
  cases status with
  | zkProofFinished proof => exact absurd rfl (unproved proof)
  | failed error retryStatus => exact holds
  | _ => cases final

theorem StatusAt.retries {error : PdaRunnerError}
    (bound : StatusAt deps known config accepted key (.failed error (some status))) :
    StatusAt deps known config accepted key status := by
  obtain ⟨data,member,same,holds⟩ := bound
  obtain rfl := holds status rfl
  exact ⟨data,member,same,trivial⟩

theorem initialStatus_bound {job : Job} (within : JobWithin deps known job)
    (chosen : initialStatus config = .next status) : StatusAt deps known config accepted (deps.jobKey job) status := by
  obtain ⟨data,member,rfl⟩ := within
  refine ⟨data,member,rfl,?_⟩
  unfold initialStatus at chosen
  split at chosen <;> cases chosen <;> trivial

theorem handleZkClientError_bound {job : Job} (within : JobWithin deps known job) (error : SP1NetworkError) :
    StatusAt deps known config accepted (deps.jobKey job) (handleZkClientError deps error job).2 := by
  obtain ⟨data,member,rfl⟩ := within
  refine ⟨data,member,rfl,?_⟩
  obtain ⟨reported,same | same⟩ := @handleZkClientError_status Proof Encoded Body deps error (deps.jobOf data)
  · rw [same]
    exact fun status found => by cases found
  · rw [same]
    exact fun status found => (Option.some.inj found).symm

end

theorem Network.observe_requested (network : Network) (config : Config) (job : Job) (nonce : Block NONCE_LEN)
    (requestId : SuccNetJobId) (usable : (config.sp1FulfillmentStrategy.map deps.isStrategyName).getD false = true) :
    (network.observe deps config job (.remoteRequesting : Stage Proof) (.requested nonce (.ok requestId))).accepted =
      network.accepted ++ [⟨requestId,config.chachaElf,proverStdin config nonce job⟩] := by
  simp [Network.observe,usable]

section
variable {s : State Proof Encoded Body} {i : Nat}

theorem TaskStep.bound {answer : Answer Proof} {task : ProveTask Proof} {runner : PdaRunner Encoded}
    {stage : Stage Proof} (found : s.tasks[i]? = some task) (within : JobWithin deps known task.job)
    (queue : Stores deps s.runner.queueDb (StatusAt deps known s.config s.network.accepted))
    (waits : ∀ requestId, task.stage = .remotePending requestId →
      StatusAt deps known s.config s.network.accepted (deps.jobKey task.job) (.remoteZkProofPending requestId))
    (honest : HonestProver deps s (.task i answer))
    (moved : TaskStep deps s.config task.job s.runner task.stage answer runner (.next stage)) :
    let accepted := (s.network.observe deps s.config task.job task.stage answer).accepted
    stage.Writes (StatusAt deps known s.config accepted (deps.jobKey task.job))
        (StatusAt deps known s.config accepted (deps.jobKey task.job)) ∧
      ∀ requestId, stage = .remotePending requestId →
        StatusAt deps known s.config accepted (deps.jobKey task.job) (.remoteZkProofPending requestId) := by
  have grown : s.network.accepted ⊆ (s.network.observe deps s.config task.job task.stage answer).accepted :=
    s.network.observe_accepted _ _ _ _
  have kept : Stores deps s.runner.queueDb (StatusAt deps known s.config
      (s.network.observe deps s.config task.job task.stage answer).accepted) :=
    queue.imp fun _ _ bound => bound.grows grown
  obtain ⟨job,current⟩ := task
  refine moved.writes kept (fun error => handleZkClientError_bound within error) ?_ ?_ ?_
  · intro nonce proof here answered
    subst here answered
    obtain ⟨data,member,rfl⟩ := within
    exact ⟨data,member,rfl,nonce,honest _ found⟩
  · intro nonce requestId here answered usable
    subst here answered
    obtain ⟨data,member,rfl⟩ := within
    refine ⟨data,member,rfl,nonce,?_⟩
    rw [Network.observe_requested _ _ _ _ _ usable]
    exact List.mem_append_right _ (List.mem_singleton.mpr rfl)
  · intro requestId proof here answered
    subst here answered
    -- The task waits for an ID that was given to a request for this very data.
    obtain ⟨data,member,same,nonce,promised⟩ := waits requestId rfl
    exact ⟨data,member,same,nonce,honest _ found _ promised rfl⟩

theorem CallStep.attested (collisionFree : Set.InjOn deps.sha256 known) {data : Bytes} (member : data ∈ known)
    {config : Config} {accepted : List ProofRequest} {fault : Fault} {runner after : PdaRunner Encoded}
    {call : Call Proof} {proof : Proof}
    (finished : Stores deps runner.finishedDb (StatusAt deps known config accepted))
    (moved : CallStep deps config (deps.jobOf data) fault runner call after (.returned (.ok (some proof)))) :
    Attests deps config data proof := by
  cases moved with
  | finished stored _ found read =>
    obtain ⟨other,otherMember,same,attests⟩ := finished.read found read
    have equal : other = data := collisionFree otherMember member (jobKey_injective same).symm
    exact equal ▸ attests

theorem Within.submission {req : IncomingRequest Body} (within : Within deps known req) {submission : Submission Body}
    (waits : inboundHandler deps req = .encrypt submission) :
    ∀ blob ∈ submission.blob :: submission.rest, blob.data ∈ known := by
  have sound : (inboundHandler deps req).Sound deps ([] : List (Answered Proof)) req := inboundHandler_sound req
  rw [waits] at sound
  obtain ⟨_,done,parsed,submitted,_⟩ := sound
  intro blob member
  have read : submission.bodyJson ∈ (req.json deps).toOption := by simp [parsed,Except.toOption]
  have listed : blob ∈ (submittedBlobs deps submission.bodyJson).getD [] := by
    rw [submitted,Option.getD_some]
    exact List.mem_append_right _ member
  exact within submission.bodyJson read blob listed

end

/-- Where data are known and do not collide, provers are honest and no secrets change under
a stored proof. -/
def Faithful (deps : Dependencies Proof Encoded Body) (known : Set Bytes) (s : State Proof Encoded Body)
    (action : Action Proof Body) : Prop :=
  Receives (Within deps known) action ∧ HonestProver deps s action ∧ KeepsResults deps s action

instance [DecidablePred (· ∈ known)] (s : State Proof Encoded Body) : DecidablePred (Faithful deps known s) :=
  fun action => inferInstanceAs (Decidable (Receives (Within deps known) action ∧ HonestProver deps s action ∧
    KeepsResults deps s action))

theorem Stores.hashed {tree : SledTree Encoded} {config : Config} {accepted : List ProofRequest}
    (bound : Stores deps tree (StatusAt deps known config accepted)) : ∀ key ∈ tree, deps.HashKey key := by
  intro key stored
  obtain ⟨data,found⟩ := Option.isSome_iff_exists.mp (AList.lookup_isSome.mpr stored)
  obtain ⟨_,_,input,_,same,_⟩ := bound key data found
  exact ⟨input,same⟩

/-- Finished jobs stay bound in a process with other secrets, if there is no proof among them. -/
theorem Stores.restarted {s : State Proof Encoded Body} {config : Config} {accepted : List ProofRequest}
    (final : Stores deps s.runner.finishedDb (fun _ => JobStatus.IsFinal))
    (bound : Stores deps s.runner.finishedDb (StatusAt deps known s.config accepted))
    (kept : KeepsResults deps s (.restart config)) :
    Stores deps s.runner.finishedDb (StatusAt deps known config accepted) := by
  rcases kept with same | unproved
  · exact bound.imp fun _ _ holds => holds.reconfigured same
  · intro key data found
    obtain ⟨status,rfl,holds⟩ := bound key data found
    have read := deps.statusCodec.round_trip status
    have noProof : ∀ proof, status ≠ .zkProofFinished proof := by
      intro proof same
      subst same
      have none := unproved _ (SledTree.mem_iter found)
      simp only [holdsProof,read] at none
      cases none
    exact ⟨status,rfl,holds.unproved (final.read found read) noProof⟩

theorem bindings_stable (collisionFree : Set.InjOn deps.sha256 known) :
    (bindings deps known).Stable deps (Faithful deps known) (validStatuses deps).Holds where
  shared_grows grown same before now :=
    ⟨⟨before.1.queue.imp fun _ _ bound => same ▸ bound.grows grown.accepted,
      before.1.finished.imp fun _ _ bound => same ▸ bound.grows grown.accepted⟩,now.2⟩
  request_grows grown same holds := ⟨holds.1,holds.2.imp fun _ bound => same ▸ bound.grows grown.accepted⟩
  task_grows grown same holds :=
    ⟨holds.1,holds.2.1.imp fun _ bound => same ▸ bound.grows grown.accepted,
      fun requestId waits => same ▸ (holds.2.2 requestId waits).grows grown.accepted⟩
  message_grows _ _ within := within
  served_grows _ _ := trivial
  request_message {_ submission _} holds := ⟨submission.blob.data,holds.1 _ (by simp),rfl⟩
  task_message holds := holds.1
  message_task within := ⟨within,trivial,fun _ same => by cases same⟩
  receive _ _ allowed := ⟨fun _ waits => ⟨Within.submission allowed.1 waits,trivial⟩,fun _ _ => trivial⟩
  call {_ _ _ thread _ _} _ holds _ _ asserted moved := by
    obtain ⟨trees,answers⟩ := holds.shared
    have within : JobWithin deps known (thread.submission.job deps) := ⟨_,asserted.1 _ (by simp),rfl⟩
    obtain ⟨trees,next⟩ := moved.stores (fun _ _ bound => bound.retries)
      (fun _ chosen => initialStatus_bound within chosen) trees asserted.2
    exact ⟨⟨trees,answers⟩,asserted.1,next _ rfl⟩
  answer {_ _ _ thread _ result} _ holds _ _ asserted moved := by
    obtain ⟨trees,answers⟩ := holds.shared
    have member : thread.submission.blob.data ∈ known := asserted.1 _ (by simp)
    have within : JobWithin deps known (thread.submission.job deps) := ⟨_,member,rfl⟩
    have kept := (moved.stores (fun _ _ bound => bound.retries)
      (fun _ chosen => initialStatus_bound within chosen) trees asserted.2).1
    refine ⟨⟨kept,?_⟩,?_,fun _ _ => trivial⟩
    · apply forall_concat answers
      intro proof returned
      cases returned
      exact ⟨_,member,rfl,moved.attested collisionFree member trees.finished⟩
    · intro next resumed
      refine ⟨fun blob later => asserted.1 blob ?_,trivial⟩
      rw [(resume_next resumed).1]
      exact List.mem_cons_of_mem _ later
  work {s _ answer task _ _} _ holds allowed found asserted moved := by
    obtain ⟨trees,answers⟩ := holds.shared
    obtain ⟨within,writes,waits⟩ := asserted
    have kept := moved.stores trees writes
    have grown : s.network.accepted ⊆ (s.network.observe deps s.config task.job task.stage answer).accepted :=
      s.network.observe_accepted _ _ _ _
    have queue := kept.queue.imp fun _ _ bound => bound.grows grown
    have finished := kept.finished.imp fun _ _ bound => bound.grows grown
    refine ⟨⟨⟨queue,finished⟩,answers⟩,?_⟩
    intro stage same
    subst same
    exact ⟨within,moved.bound found within trees.queue waits allowed.2.1⟩
  restart {s config jobs} valid holds allowed _ recovered := by
    obtain ⟨trees,answers⟩ := holds.shared
    -- What is left in the queue would panic, so only the finished tree comes with the new secrets.
    obtain ⟨empty,rfl⟩ := restart_ok trees.queue.hashed recovered
    refine ⟨⟨⟨?_,valid.shared.finished.restarted trees.finished allowed.2.2⟩,answers⟩,fun _ member => by cases member⟩
    rw [empty]
    exact stores_empty _

theorem attests_reaches (collisionFree : Set.InjOn deps.sha256 known) {config : Config}
    {s : State Proof Encoded Body} (run : Reaches (State.step deps) (Faithful deps known) (State.initial config) s)
    {entry : Answered Proof} (listed : entry ∈ s.answered) {proof : Proof} (returned : entry.result = .ok (some proof)) :
    ∃ data ∈ known, entry.job = deps.jobOf data ∧ Attests deps entry.config data proof := by
  have holds := Assertions.holds_reaches (bindings_stable collisionFree) run
    (fun _ reached => validStatuses_reaches reached)
    ⟨⟨stores_empty _,stores_empty _⟩,fun _ member => by cases member⟩
  exact holds.shared.2 entry listed proof returned

theorem Attests.output {config : Config} {data : Bytes} {proof : Proof} (attests : Attests deps config data proof) :
    ∃ output, ZkvmOutput.fromBytes (deps.publicValues proof) = .ok output ∧
      output.privkeyHash = deps.sha256 config.encryptionKey.toList ∧
      chacha deps.cipher config.encryptionKey output.nonce output.ciphertext = .ok data := by
  obtain ⟨nonce,proves⟩ := attests
  obtain ⟨ciphertext,applied,commits⟩ := guestMain_success proves.commits
  refine ⟨⟨deps.sha256 config.encryptionKey.toList,nonce,deps.sha256 data,ciphertext⟩,?_,rfl,chacha_involutive applied⟩
  rw [commits,fromBytes_commits]
  rfl

/-- The process that made a proof decrypts the blob that carries it. -/
theorem Attests.decrypts {config : Config} {data : Bytes} {proof : Proof} (attests : Attests deps config data proof)
    {blob : Blob} (carries : blob.data = deps.proofCodec.serialize proof) :
    verifyDecryptBlob deps config.encryptionKey (.ok (deps.setup config.chachaElf)) blob = pure { blob with data } := by
  obtain ⟨output,parsed,_,decrypted⟩ := attests.output
  obtain ⟨nonce,proves⟩ := attests
  have extracted : extractVerifiedProofOutput deps (.ok (deps.setup config.chachaElf)) proof = .ok output := by
    simp only [extractVerifiedProofOutput,proves.verifies,parsed]
  simp only [verifyDecryptBlob,carries,deps.proofCodec.round_trip,liftM_ok,pure_bind,extracted,decrypted]

structure Usable (deps : Dependencies Proof Encoded Body) (config : Config) (data : Bytes) (proof : Proof) : Prop where
  commits : ∃ output, ZkvmOutput.fromBytes (deps.publicValues proof) = .ok output ∧
    output.privkeyHash = deps.sha256 config.encryptionKey.toList
  verifies : deps.verify proof (deps.setup config.chachaElf).vk = .ok ()
  decrypts : ∀ blob : Blob, blob.data = deps.proofCodec.serialize proof →
    verifyDecryptBlob deps config.encryptionKey (.ok (deps.setup config.chachaElf)) blob = pure { blob with data }

theorem Attests.usable {config : Config} {data : Bytes} {proof : Proof} (attests : Attests deps config data proof) :
    Usable deps config data proof where
  commits := by
    obtain ⟨output,parsed,hashed,_⟩ := attests.output
    exact ⟨output,parsed,hashed⟩
  verifies := attests.choose_spec.verifies
  decrypts := fun _ carries => attests.decrypts carries

/-- Over any history of lifetimes, none of which starts with new secrets while a proof is
stored, every proof that a call returns is usable in the lifetime that returns it. -/
theorem results_usable (known : Set Bytes) (collisionFree : Set.InjOn deps.sha256 known) (config : Config)
    (s : State Proof Encoded Body)
    (run : Reaches (State.step deps) (Faithful deps known) (State.initial config) s)
    (entry : Answered Proof) (listed : entry ∈ s.answered) (proof : Proof)
    (returned : entry.result = .ok (some proof)) : Usable deps entry.config entry.job.input.data proof := by
  obtain ⟨data,_,same,attests⟩ := attests_reaches collisionFree run listed returned
  rw [same]
  exact attests.usable

def Tabulated.plainData : Set Bytes := {[1,2,3]}

instance : DecidablePred (· ∈ Tabulated.plainData) := fun data => inferInstanceAs (Decidable (data = [1,2,3]))

/-- A request to the network fails, the key is rotated, and the retried job is proved. -/
theorem results_usable_rotated :
    let rotated : Config := { Tabulated.networkConfig with encryptionKey := Tabulated.oneKey }
    Usable Tabulated.dependencies rotated [1,2,3] (Tabulated.plainProof Tabulated.oneKey Tabulated.zeroNonce) :=
  results_usable Tabulated.plainData (Set.injOn_singleton _ _) Tabulated.networkConfig
    (Tabulated.run Tabulated.networkConfig (Tabulated.submitPlain 0 ++ [.recv,.task 0 (.storage none),
      .task 0 (.requested Tabulated.oneNonce (.error (.network (.rpcError "unavailable")))),.task 0 (.storage none),
      .shutdown,.recv,.exit,.restart { Tabulated.networkConfig with encryptionKey := Tabulated.oneKey },
      Tabulated.receivePlain,.request 0 none,.request 0 none,.request 0 none,.recv,.task 0 (.storage none),
      .task 0 (.requested Tabulated.zeroNonce (.ok Tabulated.oneKey)),.task 0 (.storage none),.task 0 (.storage none),
      .recv,.task 0 (.storage none),
      .task 0 (.waited (.ok (Tabulated.plainProof Tabulated.oneKey Tabulated.zeroNonce))),.task 0 (.storage none),
      Tabulated.receivePlain,.request 0 none]))
    (Tabulated.run_reaches _ _ (by decide +kernel))
    ⟨{ Tabulated.networkConfig with encryptionKey := Tabulated.oneKey },Tabulated.dependencies.jobOf [1,2,3],
      .ok (some (Tabulated.plainProof Tabulated.oneKey Tabulated.zeroNonce))⟩
    (by rw [Tabulated.run_eq]; decide +kernel) _ rfl

/-- The key is rotated under a stored proof: the next lifetime returns the proof of the last. -/
theorem rotated_key_returns_stale_proof :
    let rotated : Config := { Tabulated.localConfig with encryptionKey := Tabulated.oneKey }
    let s := Tabulated.run Tabulated.localConfig (Tabulated.submitPlain 0 ++
      Tabulated.provePlain Tabulated.zeroKey Tabulated.zeroNonce ++
      [.shutdown,.recv,.exit,.restart rotated,Tabulated.receivePlain,.request 0 none])
    let proof := Tabulated.plainProof Tabulated.zeroKey Tabulated.zeroNonce
    Reaches (State.step Tabulated.dependencies)
        (fun u action => Receives (Within Tabulated.dependencies Tabulated.plainData) action ∧
          HonestProver Tabulated.dependencies u action) (.initial Tabulated.localConfig) s ∧
      ⟨rotated,Tabulated.dependencies.jobOf [1,2,3],.ok (some proof)⟩ ∈ s.answered ∧
      ¬ Usable Tabulated.dependencies rotated [1,2,3] proof := by
  refine ⟨Tabulated.run_reaches _ _ (by decide +kernel),by rw [Tabulated.run_eq]; decide +kernel,?_⟩
  intro usable
  obtain ⟨output,parsed,hashed⟩ := usable.commits
  have stale : (ZkvmOutput.fromBytes (Tabulated.plainProof Tabulated.zeroKey Tabulated.zeroNonce)).toOption.map
      (·.privkeyHash) ≠ some (Tabulated.sha256 Tabulated.oneKey.toList) := by decide +kernel
  have same : ZkvmOutput.fromBytes (Tabulated.plainProof Tabulated.zeroKey Tabulated.zeroNonce) = .ok output := parsed
  rw [same] at stale
  exact stale (congrArg some hashed)

def fixedSecrets (config : Config) : Assertions Proof Encoded Body where
  shared history _ _ := config.SameSecrets history.config ∧
    ∀ entry ∈ history.answered, config.SameSecrets entry.config
  request _ _ _ := True
  task _ _ _ := True
  message _ _ := True
  served _ _ _ := True

theorem fixedSecrets_stable (config : Config) :
    (fixedSecrets config).Stable deps (fun s action => KeepsSecrets s action) (fun _ => True) where
  shared_grows _ _ _ now := now
  request_grows _ _ _ := trivial
  task_grows _ _ _ := trivial
  message_grows _ _ _ := trivial
  served_grows _ _ := trivial
  request_message _ := trivial
  task_message _ := trivial
  message_task _ := trivial
  receive _ _ _ := ⟨fun _ _ => trivial,fun _ _ => trivial⟩
  call _ holds _ _ _ _ := ⟨holds.shared,trivial⟩
  answer _ holds _ _ _ _ := by
    refine ⟨⟨holds.shared.1,?_⟩,fun _ _ => trivial,fun _ _ => trivial⟩
    exact forall_concat holds.shared.2 holds.shared.1
  work _ holds _ _ _ _ := ⟨holds.shared,fun _ _ => trivial⟩
  restart _ holds kept _ _ := by
    obtain ⟨⟨sameKey,sameElf⟩,answers⟩ := holds.shared
    exact ⟨⟨⟨kept.1.trans sameKey,kept.2.trans sameElf⟩,answers⟩,fun _ _ => trivial⟩

/-- The node's answer to `blob.Get` with an encrypted blob reaches the client with its data. -/
def Retrieves (deps : Dependencies Proof Encoded Body) (config : Config) (data : Bytes) (encrypted : Blob) : Prop :=
  ∀ setups resp bodyBytes bodyJson, (∀ position, setups position = .ok (deps.setup config.chachaElf)) →
    resp.parts.status ≠ 401 → resp.body = .ok bodyBytes → deps.fromSlice bodyBytes = .ok bodyJson →
    bodyJson.get "result" = some (deps.blobToValue encrypted) →
    ∃ response clientJson, outboundHandler deps config setups resp "blob.Get" = pure response ∧
      response.body = deps.toVec clientJson ∧
      clientJson.get "result" = some (deps.blobToValue { encrypted with data })

theorem Attests.retrieves {config : Config} {blob encrypted : Blob} {proof : Proof}
    (attests : Attests deps config blob.data proof)
    (made : deps.blobNew blob.nmtNamespace (deps.proofCodec.serialize proof) = .ok encrypted) :
    Retrieves deps config blob.data encrypted := by
  intro setups resp bodyBytes bodyJson ready accepted collected parsed result
  have decrypted := attests.decrypts (deps.blobNew_fields made).2
  let plainJson := bodyJson.set "result" (deps.blobToValue { encrypted with data := blob.data })
  have mutated : tryMutateResponse deps config.encryptionKey setups "blob.Get" bodyJson = pure plainJson := by
    simp only [tryMutateResponse,result,deps.blob_round_trip made,liftM_ok,pure_bind,ready,decrypted,plainJson]
  refine ⟨⟨{ resp.parts with headers := withoutContentLength resp.parts.headers },deps.toVec plainJson⟩,
    plainJson,?_,rfl,Json.get_set _ _ _ _ result⟩
  simp only [outboundHandler,collected,liftM_ok,pure_bind,if_neg accepted,parsed,mutated]
  rfl

/-- Where data are known and do not collide, provers are honest and secrets are fixed. -/
def Steady (deps : Dependencies Proof Encoded Body) (known : Set Bytes) (s : State Proof Encoded Body)
    (action : Action Proof Body) : Prop :=
  Receives (Within deps known) action ∧ HonestProver deps s action ∧ KeepsSecrets s action

instance [DecidablePred (· ∈ known)] (s : State Proof Encoded Body) : DecidablePred (Steady deps known s) :=
  fun action => inferInstanceAs (Decidable (Receives (Within deps known) action ∧ HonestProver deps s action ∧
    KeepsSecrets s action))

theorem Steady.faithful {s : State Proof Encoded Body} {action : Action Proof Body}
    (steady : Steady deps known s action) : Faithful deps known s action := by
  refine ⟨steady.1,steady.2.1,?_⟩
  cases action with
  | restart config => exact .inl steady.2.2
  | _ => trivial

/-- With fixed secrets, known data that do not collide and honest provers, whatever is
forwarded for a client's blobs is one blob for each of them, in their order and under their
namespaces, and what the node returns for it reaches the client with the blob's data. -/
theorem end_to_end_round_trip (known : Set Bytes) (collisionFree : Set.InjOn deps.sha256 known) (config : Config)
    (s : State Proof Encoded Body)
    (run : Reaches (State.step deps) (Steady deps known) (State.initial config) s)
    (req : IncomingRequest Body) (forwarded : Request Body) (served : (req,.ok (some forwarded)) ∈ s.served)
    (bodyJson : Json) (parsed : req.json deps = .ok bodyJson) (blobs : List Blob)
    (submitted : submittedBlobs deps bodyJson = some blobs) :
    ∃ forwardedJson encryptedBlobs others, forwarded.body = deps.toVec forwardedJson ∧
      methodOf forwardedJson = some "blob.Submit" ∧
      forwardedJson.get "params" = some (.array (deps.blobsToValue encryptedBlobs :: others)) ∧
      List.Forall₂ (fun blob encrypted => encrypted.nmtNamespace = blob.nmtNamespace ∧
        Retrieves deps config blob.data encrypted) blobs encryptedBlobs := by
  have fixed := (Assertions.holds_reaches (fixedSecrets_stable config) (run.weaken fun _ _ allowed => allowed.2.2)
    (fun _ _ => trivial) ⟨⟨rfl,rfl⟩,fun _ member => by cases member⟩).shared.2
  have faithful := run.weaken fun _ _ steady => Steady.faithful steady
  obtain ⟨_,sound⟩ := forwarded_reaches faithful (fun _ _ allowed => allowed.1) served
  cases sound with
  | unchanged clientJson read other =>
    cases parsed.symm.trans read
    cases submitted.symm.trans other
  | encrypted clientJson clientBlobs encryptedBlobs read found replaced =>
    cases parsed.symm.trans read
    cases submitted.symm.trans found
    obtain ⟨method,blobsValue,others,params,_⟩ := submittedBlobs_eq_some.mp submitted
    refine ⟨_,encryptedBlobs,others,rfl,(overwriteBlobs_method _ _).trans method,?_,?_⟩
    · rw [overwriteBlobs_params params,Json.get_set _ _ _ _ params]
    · refine replaced.imp fun blob encrypted single => ?_
      obtain ⟨proof,⟨made,listed⟩,built⟩ := single
      obtain ⟨data,member,same,attests⟩ := attests_reaches collisionFree faithful listed rfl
      obtain rfl : blob.data = data := congrArg (fun job => job.input.data) same
      have own := attests.reconfigured (fixed _ listed).symm
      exact ⟨(deps.blobNew_fields built).1,own.retrieves built⟩

theorem end_to_end_round_trip_proved :
    ∃ forwardedJson encryptedBlobs others,
      Tabulated.forwardedPlain.body = Tabulated.dependencies.toVec forwardedJson ∧
      methodOf forwardedJson = some "blob.Submit" ∧
      forwardedJson.get "params" = some (.array (Tabulated.dependencies.blobsToValue encryptedBlobs :: others)) ∧
      List.Forall₂ (fun (blob encrypted : Blob) => encrypted.nmtNamespace = blob.nmtNamespace ∧
        Retrieves Tabulated.dependencies Tabulated.localConfig blob.data encrypted)
        [⟨List.replicate 29 0,[1,2,3],0,[],none,none⟩] encryptedBlobs :=
  end_to_end_round_trip Tabulated.plainData (Set.injOn_singleton _ _) Tabulated.localConfig _
    (Tabulated.run_reaches _ Tabulated.returnPlain (by decide +kernel)) _ _ Tabulated.returnPlain_served
    (Tabulated.call "blob.Submit" [Tabulated.plainBlob]) rfl _ Tabulated.plainBlob_submitted

end PdaProxy
