import PdaProxy.Binding
import PdaProxy.Semantics.Tracking

/-! Which data a nonce encrypts. A nonce is drawn by the task that hands a job to a prover;
over the network its proof comes back in another task, under a request ID that was stored in
between. Every proof goes back to one draw, whatever was repeated, overwritten or retried. -/
namespace PdaProxy
open PdaProxy.Semantics.Serialization PdaProxy.Semantics.Transition PdaProxy.Semantics.Tracking PdaProxy.Semantics.Pool

variable {Proof Encoded Body : Type}

/-- A nonce of `random_nonce`, and what it was drawn for. -/
structure Draw where
  config : Config
  nonce : Block NONCE_LEN
  job : Job

def Draw.stdin (draw : Draw) : List Bytes := proverStdin draw.config draw.nonce draw.job

/-- The nonces that a history has drawn, and the proofs that it has stored. -/
structure Chronicle (Proof : Type) where
  drawn : List Draw
  stored : List Proof

instance : Preorder (Chronicle Proof) where
  le old new := old.drawn ⊆ new.drawn ∧ old.stored ⊆ new.stored
  le_refl _ := ⟨fun _ member => member,fun _ member => member⟩
  le_trans _ _ _ first second := ⟨fun _ member => second.1 (first.1 member),fun _ member => second.2 (first.2 member)⟩

section
variable (deps : Dependencies Proof Encoded Body)

/-- The proving functions draw their nonce after the setup, and the remote one after it has
read the fulfillment strategy. -/
def ProveTask.draw (config : Config) (task : ProveTask Proof) (answer : Answer Proof) : Option Draw :=
  match task.stage,answer with
  | .localPending,.proved nonce _ => some ⟨config,nonce,task.job⟩
  | .remoteRequesting,.requested nonce _ =>
    if (config.sp1FulfillmentStrategy.map deps.isStrategyName).getD false then some ⟨config,nonce,task.job⟩ else none
  | _,_ => none

def ProveTask.storing (task : ProveTask Proof) (answer : Answer Proof) : Option Proof :=
  match task.stage,answer with
  | .finalize (.zkProofFinished proof),.storage none => some proof
  | _,_ => none

def State.draw (s : State Proof Encoded Body) : Action Proof Body → Option Draw
  | .task i answer => s.tasks[i]?.bind (·.draw deps s.config answer)
  | _ => none

def State.storing (s : State Proof Encoded Body) : Action Proof Body → Option Proof
  | .task i answer => s.tasks[i]?.bind (·.storing answer)
  | _ => none

def State.chronicle (s : State Proof Encoded Body) (action : Action Proof Body) (_ : State Proof Encoded Body)
    (chronicle : Chronicle Proof) : Chronicle Proof where
  drawn := chronicle.drawn ++ (s.draw deps action).toList
  stored := chronicle.stored ++ (s.storing action).toList

/-- No nonce is drawn twice, and provers prove what they are given. -/
def FreshNonces (history : State Proof Encoded Body × Chronicle Proof) (action : Action Proof Body) : Prop :=
  HonestProver deps history.1 action ∧
    ∀ draw ∈ history.1.draw deps action, draw.nonce ∉ history.2.drawn.map Draw.nonce

def ChronicledIn (chronicle : Chronicle Proof) (s : State Proof Encoded Body) (action : Action Proof Body) : Prop :=
  HonestProver deps s action ∧ (∀ draw ∈ s.draw deps action, draw ∈ chronicle.drawn) ∧
    ∀ proof ∈ s.storing action, proof ∈ chronicle.stored

def Draw.Made (draw : Draw) (proof : Proof) : Prop :=
  guestMain deps.sha256 deps.cipher draw.stdin = .ok (deps.publicValues proof)

def StatusDrawn (drawn : List Draw) (accepted : List ProofRequest) (key : Bytes) : JobStatus Proof → Prop
  | .zkProofFinished proof => ∃ draw ∈ drawn, key = deps.jobKey draw.job ∧ draw.Made deps proof
  | .remoteZkProofPending requestId => ∃ draw ∈ drawn, key = deps.jobKey draw.job ∧
      ∃ elf, ⟨requestId,elf,draw.stdin⟩ ∈ accepted
  | .failed _ retryStatus => ∀ status ∈ retryStatus, status = .remoteZkProofRequesting
  | .localZkProofPending | .remoteZkProofRequesting => True

/-- Every proof and every request ID goes back to a draw for the job of its key. -/
def draws (drawn : List Draw) : Assertions Proof Encoded Body where
  shared history queueDb finishedDb := StoresBoth deps queueDb finishedDb
    (StatusDrawn deps drawn history.network.accepted) (StatusDrawn deps drawn history.network.accepted)
  request history submission call :=
    call.Writes (StatusDrawn deps drawn history.network.accepted (deps.jobKey (submission.job deps)))
  task history job stage :=
    stage.Writes (StatusDrawn deps drawn history.network.accepted (deps.jobKey job))
      (StatusDrawn deps drawn history.network.accepted (deps.jobKey job)) ∧
    ∀ requestId, stage = .remotePending requestId →
      StatusDrawn deps drawn history.network.accepted (deps.jobKey job)
        (.remoteZkProofPending requestId : JobStatus Proof)
  message _ _ := True
  served _ _ _ := True

/-- What is in the finished tree was stored there, and what was returned had been. -/
def storings (stored : List Proof) : Assertions Proof Encoded Body where
  shared history _ finishedDb :=
    Stores deps finishedDb (fun _ status => ∀ proof, status = .zkProofFinished proof → proof ∈ stored) ∧
    ∀ entry ∈ history.answered, ∀ proof, entry.result = .ok (some proof) → proof ∈ stored
  request _ _ _ := True
  task _ _ _ := True
  message _ _ := True
  served _ _ _ := True

end

variable {deps : Dependencies Proof Encoded Body}

theorem State.chronicle_grows (s : State Proof Encoded Body) (action : Action Proof Body) (t : State Proof Encoded Body)
    (chronicle : Chronicle Proof) : chronicle ≤ s.chronicle deps action t chronicle :=
  ⟨fun _ member => List.mem_append_left _ member,fun _ member => List.mem_append_left _ member⟩

theorem State.storing_stage {s : State Proof Encoded Body} {action : Action Proof Body} {proof : Proof}
    (storing : s.storing action = some proof) : ∃ task ∈ s.tasks, task.stage = .finalize (.zkProofFinished proof) := by
  cases action with
  | task i answer =>
    obtain ⟨task,found,stored⟩ := Option.bind_eq_some_iff.mp storing
    refine ⟨task,List.mem_of_getElem? found,?_⟩
    unfold ProveTask.storing at stored
    split at stored
    next stage => cases stored; exact stage
    next => cases stored
  | _ => cases storing

section
variable {drawn later : List Draw} {accepted granted : List ProofRequest} {key : Bytes} {status : JobStatus Proof}

theorem StatusDrawn.grows (extended : drawn ⊆ later) (grown : accepted ⊆ granted)
    (bound : StatusDrawn deps drawn accepted key status) : StatusDrawn deps later granted key status := by
  cases status with
  | zkProofFinished proof =>
    obtain ⟨draw,member,made⟩ := bound
    exact ⟨draw,extended member,made⟩
  | remoteZkProofPending requestId =>
    obtain ⟨draw,member,same,elf,promised⟩ := bound
    exact ⟨draw,extended member,same,elf,grown promised⟩
  | _ => exact bound

theorem StatusDrawn.retries {error : PdaRunnerError}
    (bound : StatusDrawn deps drawn accepted key (.failed error (some status))) :
    StatusDrawn deps drawn accepted key status := by
  obtain rfl := bound status rfl
  trivial

theorem initialStatus_drawn {config : Config} (chosen : initialStatus config = .next status) :
    StatusDrawn deps drawn accepted key status := by
  unfold initialStatus at chosen
  split at chosen <;> cases chosen <;> trivial

theorem handleZkClientError_drawn (error : SP1NetworkError) (job : Job) :
    StatusDrawn deps drawn accepted key (handleZkClientError deps error job).2 := by
  obtain ⟨reported,same | same⟩ := @handleZkClientError_status Proof Encoded Body deps error job
  · rw [same]
    exact fun status found => by cases found
  · rw [same]
    exact fun status found => (Option.some.inj found).symm

end

theorem Draw.Made.nonce {draw : Draw} {proof : Proof} (made : draw.Made deps proof) {output : ZkvmOutput}
    (parsed : ZkvmOutput.fromBytes (deps.publicValues proof) = .ok output) : output.nonce = draw.nonce := by
  obtain ⟨ciphertext,_,commits⟩ := guestMain_success made
  rw [commits,fromBytes_commits] at parsed
  cases parsed
  rfl

section
variable {chronicle : Chronicle Proof} {s : State Proof Encoded Body} {i : Nat}

theorem TaskStep.drawn {answer : Answer Proof} {task : ProveTask Proof} {runner : PdaRunner Encoded}
    {stage : Stage Proof} (found : s.tasks[i]? = some task)
    (queue : Stores deps s.runner.queueDb (StatusDrawn deps chronicle.drawn s.network.accepted))
    (waits : ∀ requestId, task.stage = .remotePending requestId →
      StatusDrawn deps chronicle.drawn s.network.accepted (deps.jobKey task.job)
        (.remoteZkProofPending requestId : JobStatus Proof))
    (allowed : ChronicledIn deps chronicle s (.task i answer))
    (moved : TaskStep deps s.config task.job s.runner task.stage answer runner (.next stage)) :
    let accepted := (s.network.observe deps s.config task.job task.stage answer).accepted
    stage.Writes (StatusDrawn deps chronicle.drawn accepted (deps.jobKey task.job))
        (StatusDrawn deps chronicle.drawn accepted (deps.jobKey task.job)) ∧
      ∀ requestId, stage = .remotePending requestId →
        StatusDrawn deps chronicle.drawn accepted (deps.jobKey task.job)
          (.remoteZkProofPending requestId : JobStatus Proof) := by
  have grown : s.network.accepted ⊆ (s.network.observe deps s.config task.job task.stage answer).accepted :=
    s.network.observe_accepted _ _ _ _
  have kept : Stores deps s.runner.queueDb (StatusDrawn deps chronicle.drawn
      (s.network.observe deps s.config task.job task.stage answer).accepted) :=
    queue.imp fun _ _ bound => bound.grows (fun _ member => member) grown
  obtain ⟨honest,recorded,_⟩ := allowed
  simp only [State.draw,found,Option.bind_some] at recorded
  obtain ⟨job,current⟩ := task
  refine moved.writes kept (fun error => handleZkClientError_drawn error _) ?_ ?_ ?_
  · intro nonce proof here answered
    subst here answered
    exact ⟨_,recorded _ rfl,rfl,(honest _ found).commits⟩
  · intro nonce requestId here answered usable
    subst here answered
    refine ⟨_,recorded ⟨s.config,nonce,job⟩ (if_pos usable),rfl,s.config.chachaElf,?_⟩
    rw [Network.observe_requested _ _ _ _ _ usable]
    exact List.mem_append_right _ (List.mem_singleton.mpr rfl)
  · intro requestId proof here answered
    subst here answered
    -- The proof under an ID is one of the input that the ID was given for.
    obtain ⟨draw,member,same,elf,promised⟩ := waits requestId rfl
    exact ⟨draw,member,same,(honest _ found _ promised rfl).commits⟩

theorem draws_stable (chronicle : Chronicle Proof) :
    (draws deps chronicle.drawn).Stable deps (ChronicledIn deps chronicle) (fun _ => True) where
  shared_grows grown _ before _ :=
    ⟨before.queue.imp fun _ _ bound => bound.grows (fun _ member => member) grown.accepted,
      before.finished.imp fun _ _ bound => bound.grows (fun _ member => member) grown.accepted⟩
  request_grows grown _ writes := writes.imp fun _ bound => bound.grows (fun _ member => member) grown.accepted
  task_grows grown _ holds :=
    ⟨holds.1.imp fun _ bound => bound.grows (fun _ member => member) grown.accepted,
      fun requestId waits => (holds.2 requestId waits).grows (fun _ member => member) grown.accepted⟩
  message_grows _ _ _ := trivial
  served_grows _ _ := trivial
  request_message _ := trivial
  task_message _ := trivial
  message_task _ := ⟨trivial,fun _ same => by cases same⟩
  receive _ _ _ := ⟨fun _ _ => trivial,fun _ _ => trivial⟩
  call _ holds _ _ writes moved := by
    obtain ⟨trees,next⟩ := moved.stores (fun _ _ bound => bound.retries) (fun _ chosen => initialStatus_drawn chosen)
      holds.shared writes
    exact ⟨trees,next _ rfl⟩
  answer _ holds _ _ writes moved :=
    ⟨(moved.stores (fun _ _ bound => bound.retries) (fun _ chosen => initialStatus_drawn chosen)
      holds.shared writes).1,fun _ _ => trivial,fun _ _ => trivial⟩
  work {s _ answer task _ _} _ holds allowed found asserted moved := by
    have kept := moved.stores holds.shared asserted.1
    have grown : s.network.accepted ⊆ (s.network.observe deps s.config task.job task.stage answer).accepted :=
      s.network.observe_accepted _ _ _ _
    refine ⟨⟨kept.queue.imp fun _ _ bound => bound.grows (fun _ member => member) grown,
      kept.finished.imp fun _ _ bound => bound.grows (fun _ member => member) grown⟩,?_⟩
    intro stage same
    subst same
    exact moved.drawn found holds.shared.queue asserted.2 allowed
  restart _ holds _ _ _ := ⟨holds.shared,fun _ _ => trivial⟩

theorem CallStep.finished_stores {property : Bytes → JobStatus Proof → Prop} {config : Config} {job : Job}
    {fault : Fault} {runner after : PdaRunner Encoded} {call : Call Proof}
    {progress : Progress (Call Proof) (CallResult Proof)}
    (moved : CallStep deps config job fault runner call after progress)
    (finished : Stores deps runner.finishedDb property) :
    Stores deps after.finishedDb property ∧
      ∀ proof, progress = .returned (.ok (some proof)) → property (deps.jobKey job) (.zkProofFinished proof) := by
  cases moved with
  | finished data proof stored read =>
    refine ⟨finished,fun other same => ?_⟩
    cases same
    exact finished.read stored read
  | retried error retryStatus => exact ⟨finished.erase _,fun _ same => by cases same⟩
  | _ => exact ⟨finished,fun _ same => by cases same⟩

theorem storings_stable (chronicle : Chronicle Proof) :
    (storings deps chronicle.stored).Stable deps (ChronicledIn deps chronicle) (fun _ => True) where
  shared_grows _ _ before now := ⟨before.1,now.2⟩
  request_grows _ _ _ := trivial
  task_grows _ _ _ := trivial
  message_grows _ _ _ := trivial
  served_grows _ _ := trivial
  request_message _ := trivial
  task_message _ := trivial
  message_task _ := trivial
  receive _ _ _ := ⟨fun _ _ => trivial,fun _ _ => trivial⟩
  call _ holds _ _ _ moved := ⟨⟨(moved.finished_stores holds.shared.1).1,holds.shared.2⟩,trivial⟩
  answer _ holds _ _ _ moved := by
    obtain ⟨finished,returns⟩ := moved.finished_stores holds.shared.1
    refine ⟨⟨finished,?_⟩,fun _ _ => trivial,fun _ _ => trivial⟩
    apply forall_concat holds.shared.2
    intro proof returned
    cases returned
    exact returns proof rfl proof rfl
  work {_ _ _ task _ _} _ holds allowed found _ moved := by
    obtain ⟨finished,answers⟩ := holds.shared
    obtain ⟨_,_,recorded⟩ := allowed
    simp only [State.storing,found,Option.bind_some] at recorded
    refine ⟨⟨?_,answers⟩,fun _ _ => trivial⟩
    obtain ⟨job,current⟩ := task
    cases moved with
    | finalized status =>
      apply finished.insert
      intro proof same
      subst same
      exact recorded proof rfl
    | updated status => exact finished.erase _
    | _ => exact finished
  restart _ holds _ _ _ := ⟨holds.shared,fun _ _ => trivial⟩

end

abbrev Chronicled (deps : Dependencies Proof Encoded Body) (config : Config)
    (history : State Proof Encoded Body × Chronicle Proof) : Prop :=
  Reaches (tracked (State.step deps) (State.chronicle deps)) (FreshNonces deps) (State.initial config,⟨[],[]⟩) history

section
variable {config : Config} {history : State Proof Encoded Body × Chronicle Proof}

theorem Chronicled.within (run : Chronicled deps config history) :
    Reaches (State.step deps) (ChronicledIn deps history.2) (State.initial config) history.1 := by
  refine forget_within State.chronicle_grows ?_ run
  intro s action t chronicle allowed _ included
  refine ⟨allowed.1,fun draw drawn => included.1 ?_,fun proof stored => included.2 ?_⟩
  · exact List.mem_append_right _ (Option.mem_toList.mpr drawn)
  · exact List.mem_append_right _ (Option.mem_toList.mpr stored)

theorem Chronicled.draws (run : Chronicled deps config history) : (draws deps history.2.drawn).Holds history.1 :=
  Assertions.holds_reaches (draws_stable history.2) run.within (fun _ _ => trivial) ⟨stores_empty _,stores_empty _⟩

theorem Chronicled.storings (run : Chronicled deps config history) :
    (storings deps history.2.stored).Holds history.1 :=
  Assertions.holds_reaches (storings_stable history.2) run.within (fun _ _ => trivial)
    ⟨stores_empty _,fun _ member => by cases member⟩

theorem Chronicled.nodup (run : Chronicled deps config history) : (history.2.drawn.map Draw.nonce).Nodup := by
  apply run.invariant _ List.nodup_nil
  intro before action after distinct allowed moved
  obtain ⟨_,recorded⟩ := tracked_eq_some.mp moved
  rw [recorded,State.chronicle,List.map_append]
  cases drawn : before.1.draw deps action with
  | none => simpa using distinct
  | some draw =>
    have fresh := allowed.2 draw drawn
    simp only [Option.toList_some,List.map_cons,List.map_nil]
    exact List.nodup_append.mpr ⟨distinct,List.nodup_singleton _,by grind⟩

theorem Chronicled.made (run : Chronicled deps config history) :
    ∀ proof ∈ history.2.stored, ∃ draw ∈ history.2.drawn, draw.Made deps proof := by
  apply run.invariant_with (fun _ reached => Chronicled.draws reached)
  · intro before action after holds made _ moved proof member
    obtain ⟨_,recorded⟩ := tracked_eq_some.mp moved
    rw [recorded] at member ⊢
    rcases List.mem_append.mp member with old | new
    · obtain ⟨draw,drawn,same⟩ := made proof old
      exact ⟨draw,List.mem_append_left _ drawn,same⟩
    · obtain ⟨task,running,stage⟩ := State.storing_stage (Option.mem_toList.mp new)
      have writes := (holds.task task running).1
      rw [stage] at writes
      obtain ⟨draw,drawn,_,same⟩ := writes
      exact ⟨draw,List.mem_append_left _ drawn,same⟩
  · intro proof member
    cases member

theorem Chronicled.sameDraw (run : Chronicled deps config history) {first second : Draw}
    (firstDrawn : first ∈ history.2.drawn) (secondDrawn : second ∈ history.2.drawn) {proof other : Proof}
    (made : first.Made deps proof) (remade : second.Made deps other) {output otherOutput : ZkvmOutput}
    (parsed : ZkvmOutput.fromBytes (deps.publicValues proof) = .ok output)
    (otherParsed : ZkvmOutput.fromBytes (deps.publicValues other) = .ok otherOutput)
    (same : output.nonce = otherOutput.nonce) : first = second := by
  apply List.inj_on_of_nodup_map run.nodup firstDrawn secondDrawn
  rw [← made.nonce parsed,← remade.nonce otherParsed,same]

end

/-- The proofs of a run: stored at some time, in the tree now, or returned by a call. -/
inductive Issued (deps : Dependencies Proof Encoded Body) (history : State Proof Encoded Body × Chronicle Proof)
    (proof : Proof) : Prop
  | stored (member : proof ∈ history.2.stored)
  | finished (key data) (found : history.1.runner.finishedDb.lookup key = some data)
      (read : deps.statusCodec.deserialize data = .ok (.zkProofFinished proof))
  | returned (entry) (listed : entry ∈ history.1.answered) (result : entry.result = .ok (some proof))

theorem Issued.inStored {config : Config} {history : State Proof Encoded Body × Chronicle Proof} {proof : Proof}
    (issued : Issued deps history proof) (run : Chronicled deps config history) : proof ∈ history.2.stored := by
  cases issued with
  | stored member => exact member
  | finished key data found read => exact run.storings.shared.1.read found read proof rfl
  | returned entry listed result => exact run.storings.shared.2 entry listed proof result

/-- Where no nonce is drawn twice and provers prove what they are given, two proofs of a run
that commit to one nonce, overwritten ones among them, commit to one plaintext hash and one
ciphertext, and the finished tree does not hold them under two keys. -/
theorem nonce_commits_once (config : Config) (history : State Proof Encoded Body × Chronicle Proof)
    (run : Chronicled deps config history) (proof other : Proof) (output otherOutput : ZkvmOutput)
    (parsed : ZkvmOutput.fromBytes (deps.publicValues proof) = .ok output)
    (otherParsed : ZkvmOutput.fromBytes (deps.publicValues other) = .ok otherOutput)
    (same : output.nonce = otherOutput.nonce) :
    (Issued deps history proof → Issued deps history other →
      output.plaintextHash = otherOutput.plaintextHash ∧ output.ciphertext = otherOutput.ciphertext) ∧
    ∀ key data otherKey otherData, history.1.runner.finishedDb.lookup key = some data →
      deps.statusCodec.deserialize data = .ok (.zkProofFinished proof) →
      history.1.runner.finishedDb.lookup otherKey = some otherData →
      deps.statusCodec.deserialize otherData = .ok (.zkProofFinished other) → key = otherKey := by
  constructor
  · intro issued otherIssued
    obtain ⟨draw,drawn,made⟩ := run.made proof (issued.inStored run)
    obtain ⟨_,otherDrawn,remade⟩ := run.made other (otherIssued.inStored run)
    obtain rfl := run.sameDraw drawn otherDrawn made remade parsed otherParsed same
    have values : deps.publicValues proof = deps.publicValues other := Except.ok.inj (made.symm.trans remade)
    rw [values] at parsed
    cases parsed.symm.trans otherParsed
    exact ⟨rfl,rfl⟩
  · intro key data otherKey otherData found read otherFound otherRead
    obtain ⟨draw,drawn,keyed,made⟩ := run.draws.shared.finished.read found read
    obtain ⟨_,otherDrawn,otherKeyed,remade⟩ := run.draws.shared.finished.read otherFound otherRead
    obtain rfl := run.sameDraw drawn otherDrawn made remade parsed otherParsed same
    rw [keyed,otherKeyed]

instance (history : State Proof Encoded Body × Chronicle Proof) : DecidablePred (FreshNonces deps history) :=
  fun action => inferInstanceAs (Decidable (HonestProver deps history.1 action ∧
    ∀ draw ∈ history.1.draw deps action, draw.nonce ∉ history.2.drawn.map Draw.nonce))

namespace Tabulated

def markedCodec : Codec (Bytes × UInt8) Bytes where
  serialize proof := proof.2 :: proof.1
  deserialize
    | [] => .error "unexpected end of file"
    | mark :: values => .ok (values,mark)
  round_trip _ := rfl

/-- Dependencies whose proofs hold more than their public values. -/
def marked : Dependencies (Bytes × UInt8) (JobStatus (Bytes × UInt8)) Json :=
  { quick with
    statusCodec := .plain _
    proofCodec := markedCodec
    publicValues := Prod.fst
    verify _ _ := .ok () }

/-- Two clients queue one job. Its request is accepted once, the two tasks that wait on it
are given different proofs, and the second overwrites the first. -/
def overwritePlain : List (Action (Bytes × UInt8) Json) :=
  [.receive plainRequest,.receive plainRequest,.request 0 none,.request 0 none,.request 1 none,.request 1 none,
    .request 0 none,.request 0 none,.request 0 none,.request 0 none,.recv,.recv,.task 0 (.storage none),
    .task 0 (.requested zeroNonce (.ok zeroKey)),.task 0 (.storage none),.task 0 (.storage none),.recv,
    .task 0 (.storage none),.task 1 (.storage none),.task 0 (.waited (.ok (plainProof zeroKey zeroNonce,0))),
    .task 1 (.waited (.ok (plainProof zeroKey zeroNonce,1))),.task 0 (.storage none),.task 0 (.storage none)]

end Tabulated

theorem nonce_commits_once_overwritten :
    let history := final (tracked (State.step Tabulated.marked) (State.chronicle Tabulated.marked))
      (State.initial Tabulated.networkConfig,⟨[],[]⟩) Tabulated.overwritePlain
    let values := Tabulated.plainProof Tabulated.zeroKey Tabulated.zeroNonce
    (values,0) ∈ history.2.stored ∧ (values,1) ∈ history.2.stored ∧ ∃ output otherOutput,
      ZkvmOutput.fromBytes values = .ok output ∧ ZkvmOutput.fromBytes values = .ok otherOutput ∧
      (Issued Tabulated.marked history (values,0) → Issued Tabulated.marked history (values,1) →
        output.plaintextHash = otherOutput.plaintextHash ∧ output.ciphertext = otherOutput.ciphertext) ∧
      ∀ key data otherKey otherData, history.1.runner.finishedDb.lookup key = some data →
        Tabulated.marked.statusCodec.deserialize data = .ok (.zkProofFinished (values,0)) →
        history.1.runner.finishedDb.lookup otherKey = some otherData →
        Tabulated.marked.statusCodec.deserialize otherData = .ok (.zkProofFinished (values,1)) → key = otherKey :=
  ⟨by decide +kernel,by decide +kernel,_,_,rfl,rfl,nonce_commits_once Tabulated.networkConfig _
    (final_reaches _ _ (by decide +kernel)) (Tabulated.plainProof Tabulated.zeroKey Tabulated.zeroNonce,0)
    (Tabulated.plainProof Tabulated.zeroKey Tabulated.zeroNonce,1) _ _ rfl rfl rfl⟩

end PdaProxy
