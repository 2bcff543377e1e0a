import PdaProxy.Pending
import PdaProxy.Rewriting
import PdaProxy.Service

/-! Which responses answer the request they are given to. The closure has three responses of
its own, each with a fixed `id`; whatever else a client gets is the node's answer to the
forwarded request, with no more than its result rewritten. -/
namespace PdaProxy
open PdaProxy.Semantics.Serialization PdaProxy.Semantics.Outcome PdaProxy.Semantics.Transition

variable {Proof Encoded Body : Type}

def OneOutcome (json : Json) : Prop := (json.get "result").isSome = !(json.get "error").isSome

instance (json : Json) : Decidable (OneOutcome json) := inferInstanceAs (Decidable (_ = _))

section
variable (deps : Dependencies Proof Encoded Body)

/-- A JSON-RPC response to the request with an `id`. -/
def AnswersRequest (id : Json) (response : Response Body) : Prop :=
  ∃ json, deps.fromSlice response.body = .ok json ∧ json.get "id" = some id ∧ OneOutcome json

def pendingJson : Json :=
  .object [("id",.number (.posInt 1)),("jsonrpc",.string "2.0"),
    ("status",.string "[pda-proxy] Verifiable encryption processing... Call back for result")]

def badAuthJson : Json :=
  .object [("id",.number (.posInt 1)),("jsonrpc",.string "2.0"),("error",.object [("message",
    .string "Missing or malformed Authorization header. Expected format: Bearer <token>")])]

/-- Printed JSON is read back, and so are the two responses that are kept as text. -/
structure ReadsTexts : Prop where
  printed : deps.ReadsPrinted
  pending : deps.fromSlice (pendingResponse deps).body = .ok pendingJson
  badAuth : deps.fromSlice (badAuthResponse deps).body = .ok badAuthJson

/-- The node's answer arrives whole, does not refuse the token, and is JSON. -/
def Delivered (answer : Except String (IncomingResponse Body)) (json : Json) : Prop :=
  ∃ resp respBytes, answer = .ok resp ∧ resp.body = .ok respBytes ∧ resp.parts.status ≠ 401 ∧
    deps.fromSlice respBytes = .ok json

/-- A request that is no submission, or one without blobs. -/
def NothingToEncrypt (bodyJson : Json) : Prop :=
  methodOf bodyJson = some "blob.Submit" → ∀ paramsRaw, bodyJson.get "params" = some paramsRaw →
    ∃ params, paramsRaw.asArray = some params ∧
      ∀ blobsValue ∈ params.head?, deps.blobsFromValue blobsValue = .ok []

/-- The current blob of a request has been queued, now or before. -/
def State.CallsBack (s : State Proof Encoded Body) : Action Proof Body → Prop
  | .request i fault => fault = none ∧ ∃ thread, s.requests[i]? = some thread ∧
      (thread.call = .send ∨ thread.call = .readQueue ∧
        ∃ data status, s.runner.queueDb.lookup (deps.jobKey (thread.submission.job deps)) = some data ∧
          deps.statusCodec.deserialize data = .ok status ∧ status.IsPending)
  | _ => False

/-- A request has nothing to encrypt, or its last blob has a proof. -/
def State.Forwards (s : State Proof Encoded Body) : Action Proof Body → Prop
  | .receive req => ∃ bodyJson, req.json deps = .ok bodyJson ∧ NothingToEncrypt deps bodyJson
  | .request i fault => fault = none ∧ ∃ thread, s.requests[i]? = some thread ∧ thread.call = .readFinished ∧
      thread.submission.rest = [] ∧ Finished deps s.runner thread.submission.blob
  | _ => False

end

/-- What a client is answered, with the step of the service that ends the handling of its
request and the node's answer. -/
structure Reply (Proof Encoded Body : Type) where
  before : State Proof Encoded Body
  action : Action Proof Body
  client : ClientRequest Body
  answer : Except String (IncomingResponse Body)
  exchange : Exchange Body

section
variable (deps : Dependencies Proof Encoded Body)

/-- The runs of the service, with the responses that its authorised clients get along them. -/
inductive Replied (node : Upstream) : State Proof Encoded Body → List (Reply Proof Encoded Body) → Prop
  | start (config) : Replied node (State.initial config) []
  | quiet (s t action replies) (earlier : Replied node s replies) (stepped : s.step deps action = some t) :
      Replied node t replies
  | reply (s t action replies origin result client setups answer exchange) (earlier : Replied node s replies)
      (stepped : s.step deps action = some t) (ended : t.served = s.served ++ [(origin,result)])
      (rewritten : rewriteUri node client = some origin) (bearer : hasBearer client.headers = true)
      (made : serve deps node s.config setups (fun _ => result) answer client = some exchange) :
      Replied node t (replies ++ [⟨s,action,client,answer,exchange⟩])

/-- The node's answer has the `id` of the request that was forwarded to it. -/
def Reply.Echoed (reply : Reply Proof Encoded Body) : Prop :=
  ∀ forwarded ∈ reply.exchange.forwarded, ∀ json sent, Delivered deps reply.answer json →
    deps.fromSlice forwarded.body = .ok sent → json.get "id" = sent.get "id"

/-- The client is not put off, its `id` is the one of the fixed responses or the node's answer
is passed on, and an answer that is passed on has one outcome. -/
structure Reply.Matching (reply : Reply Proof Encoded Body) (id : Json) : Prop where
  settled : ¬ reply.before.CallsBack deps reply.action
  identified : id = .number (.posInt 1) ∨
    reply.before.Forwards deps reply.action ∧ ∃ json, Delivered deps reply.answer json
  upstream : reply.before.Forwards deps reply.action → ∀ json, Delivered deps reply.answer json → OneOutcome json

end

variable {deps : Dependencies Proof Encoded Body}

section
variable {id json : Json} {response : Response Body}

theorem answersRequest_iff (parsed : deps.fromSlice response.body = .ok json) :
    AnswersRequest deps id response ↔ json.get "id" = some id ∧ OneOutcome json := by
  simp only [AnswersRequest,parsed,Except.ok.injEq,exists_eq_left']

theorem answersRequest_first (parsed : deps.fromSlice response.body = .ok json)
    (first : json.get "id" = some (.number (.posInt 1))) (outcome : OneOutcome json) :
    AnswersRequest deps id response ↔ id = .number (.posInt 1) := by
  rw [answersRequest_iff parsed,first]
  constructor
  · intro answers
    exact (Option.some.inj answers.1).symm
  · intro same
    exact ⟨congrArg some same.symm,outcome⟩

theorem internalErrorResponse_answers (texts : ReadsTexts deps) (message : String) :
    AnswersRequest deps id (internalErrorResponse deps message) ↔ id = .number (.posInt 1) :=
  answersRequest_first (texts.printed _ (.internalError message)) rfl rfl

theorem badAuthResponse_answers (texts : ReadsTexts deps) :
    AnswersRequest deps id (badAuthResponse deps) ↔ id = .number (.posInt 1) :=
  answersRequest_first texts.badAuth rfl rfl

theorem pendingResponse_answers (texts : ReadsTexts deps) : ¬ AnswersRequest deps id (pendingResponse deps) := by
  rw [answersRequest_iff texts.pending]
  intro answers
  cases answers.2

end

section
variable {config : Config} {job : Job} {fault : Fault} {runner : PdaRunner Encoded} {call : Call Proof}

theorem getVerifiableEncryption_waits :
    (getVerifiableEncryption deps config job fault runner call).2 = .returned (.ok none) ↔
      fault = none ∧ (call = .send ∨ call = .readQueue ∧
        ∃ data status, runner.queueDb.lookup (deps.jobKey job) = some data ∧
          deps.statusCodec.deserialize data = .ok status ∧ status.IsPending) := by
  cases fault with
  | some e => cases call <;> simp [getVerifiableEncryption,retryFailed]
  | none =>
    cases call with
    | readQueue =>
      simp only [getVerifiableEncryption]
      cases stored : runner.queueDb.lookup (deps.jobKey job) with
      | none => cases initialStatus config <;> simp
      | some data =>
        cases read : deps.statusCodec.deserialize data with
        | error e => simp [read]
        | ok status => cases status <;> simp [read,JobStatus.IsPending]
    | readFinished =>
      simp only [getVerifiableEncryption]
      cases runner.finishedDb.lookup (deps.jobKey job) with
      | none => simp
      | some data =>
        dsimp only
        split <;> simp
    | _ => simp [getVerifiableEncryption]

theorem getVerifiableEncryption_proof {proof : Proof} :
    (getVerifiableEncryption deps config job fault runner call).2 = .returned (.ok (some proof)) ↔
      fault = none ∧ call = .readFinished ∧
        ∃ data, runner.finishedDb.lookup (deps.jobKey job) = some data ∧
          deps.statusCodec.deserialize data = .ok (.zkProofFinished proof) := by
  cases fault with
  | some e => cases call <;> simp [getVerifiableEncryption,retryFailed]
  | none =>
    cases call with
    | readFinished =>
      simp only [getVerifiableEncryption]
      cases stored : runner.finishedDb.lookup (deps.jobKey job) with
      | none => simp
      | some data =>
        cases read : deps.statusCodec.deserialize data with
        | error e => simp [read]
        | ok status =>
          cases status with
          | failed error retry => cases retry <;> simp [read]
          | _ => simp [read]
    | readQueue =>
      simp only [getVerifiableEncryption]
      cases runner.queueDb.lookup (deps.jobKey job) with
      | none => cases initialStatus config <;> simp
      | some data =>
        dsimp only
        split <;> simp
    | _ => simp [getVerifiableEncryption]

end

/-- The step that ends a request is its arrival or the answer to the last of its calls. -/
inductive EndedBy (deps : Dependencies Proof Encoded Body) (s : State Proof Encoded Body) (origin : IncomingRequest Body) :
    Action Proof Body → InboundResult Body → Prop
  | atOnce (result) (ended : inboundHandler deps origin = .done result) : EndedBy deps s origin (.receive origin) result
  | resumed (i fault thread answer result) (found : s.requests[i]? = some thread) (same : thread.submission.origin = origin)
      (returned : (getVerifiableEncryption deps s.config (thread.submission.job deps) fault s.runner thread.call).2 =
        .returned answer)
      (ended : thread.submission.resume deps answer = .done result) : EndedBy deps s origin (.request i fault) result

section
variable {s t : State Proof Encoded Body} {action : Action Proof Body} {origin : IncomingRequest Body}
  {result : InboundResult Body}

theorem ended_by (stepped : s.step deps action = some t) (ended : t.served = s.served ++ [(origin,result)]) :
    EndedBy deps s origin action result := by
  cases action with
  | receive req =>
    obtain ⟨_,same⟩ := Option.ite_none_left_eq_some.mp stepped
    cases same
    obtain ⟨rfl,handled⟩ := State.deliver_done ended
    exact .atOnce result handled
  | request i fault =>
    obtain ⟨thread,found,same⟩ := Option.map_eq_some_iff.mp stepped
    cases same
    cases made : getVerifiableEncryption deps s.config (thread.submission.job deps) fault s.runner thread.call with
    | mk runner progress =>
      rw [State.requestStep,made] at ended
      cases progress with
      | next call => simp at ended
      | panicked => simp at ended
      | returned answer =>
        obtain ⟨same,resumed⟩ := State.deliver_done ended
        exact .resumed i fault thread answer result found same (by rw [made]) resumed
  | _ =>
    cases step_cases stepped <;> simp [State.stop] at ended

end

section
variable {req : IncomingRequest Body} {bodyJson : Json}

theorem submitBlobs_done {encryptedBlobs blobs : List Blob} {result : InboundResult Body} :
    submitBlobs deps req bodyJson encryptedBlobs blobs = .done result ↔
      blobs = [] ∧ .ok (some (forward deps req (overwriteBlobs bodyJson (deps.blobsToValue encryptedBlobs)))) = result := by
  cases blobs with
  | nil => simp [submitBlobs]
  | cons blob rest => simp [submitBlobs]

theorem interceptSubmit_done {result : InboundResult Body} (ended : interceptSubmit deps req bodyJson = .done result) :
    result ≠ .ok none ∧ ((∃ forwarded, result = .ok (some forwarded)) ↔
      ∀ paramsRaw, bodyJson.get "params" = some paramsRaw →
        ∃ params, paramsRaw.asArray = some params ∧
          ∀ blobsValue ∈ params.head?, deps.blobsFromValue blobsValue = .ok []) := by
  unfold interceptSubmit at ended
  cases params : bodyJson.get "params" with
  | none =>
    rw [params] at ended
    cases ended
    simp
  | some paramsRaw =>
    rw [params] at ended
    dsimp only at ended
    cases listed : paramsRaw.asArray with
    | none =>
      rw [listed] at ended
      cases ended
      simp [listed]
    | some entries =>
      rw [listed] at ended
      cases entries with
      | nil =>
        cases ended
        simp [listed]
      | cons blobsValue others =>
        dsimp only at ended
        cases read : deps.blobsFromValue blobsValue with
        | error e =>
          rw [read] at ended
          cases ended
          simp [listed,read]
        | ok blobs =>
          rw [read] at ended
          obtain ⟨rfl,rfl⟩ := submitBlobs_done.mp ended
          simp [listed,read]

theorem inboundHandler_done {result : InboundResult Body} (ended : inboundHandler deps req = .done result) :
    result ≠ .ok none ∧ ((∃ forwarded, result = .ok (some forwarded)) ↔
      ∃ bodyJson, req.json deps = .ok bodyJson ∧ NothingToEncrypt deps bodyJson) := by
  unfold inboundHandler at ended
  cases received : req.body with
  | error e =>
    rw [received] at ended
    cases ended
    simp [IncomingRequest.json,received]
  | ok bodyBytes =>
    rw [received] at ended
    cases parsed : deps.fromSlice bodyBytes with
    | error e =>
      simp only [parsed] at ended
      cases ended
      simp [IncomingRequest.json,received,parsed]
    | ok bodyJson =>
      have json : req.json deps = .ok bodyJson := by rw [IncomingRequest.json,received,← parsed]
      simp only [parsed] at ended
      have single : (∃ other, req.json deps = .ok other ∧ NothingToEncrypt deps other) ↔ NothingToEncrypt deps bodyJson := by
        simp [json]
      rw [single]
      split at ended
      next submits =>
        obtain ⟨settled,forwards⟩ := interceptSubmit_done ended
        exact ⟨settled,forwards.trans ⟨fun nothing _ => nothing,fun nothing => nothing submits⟩⟩
      next other =>
        cases ended
        exact ⟨by simp,iff_of_true ⟨_,rfl⟩ fun submits => absurd submits other⟩

end

section
variable {s t : State Proof Encoded Body} {action : Action Proof Body} {origin : IncomingRequest Body}
  {result : InboundResult Body}

theorem callsBack_iff (ended : EndedBy deps s origin action result) : result = .ok none ↔ s.CallsBack deps action := by
  cases ended with
  | atOnce _ ended =>
    apply iff_of_false (inboundHandler_done ended).1
    exact id
  | resumed i fault thread answer _ found same returned ended =>
    have waits : result = .ok none ↔ answer = .ok none := by
      constructor
      · intro waiting
        exact resume_waits (ended.trans (congrArg _ waiting))
      · intro waiting
        rw [waiting] at ended
        exact (Inbound.done.inj ended).symm
    have answered : answer = .ok none ↔ (getVerifiableEncryption deps s.config (thread.submission.job deps) fault s.runner
        thread.call).2 = .returned (.ok none) := by
      rw [returned,Progress.returned.injEq]
    rw [waits,answered,getVerifiableEncryption_waits]
    simp only [State.CallsBack,found,Option.some.injEq,exists_eq_left']

theorem resume_forwards {submission : Submission Body} {answer : CallResult Proof}
    (ended : submission.resume deps answer = .done result) :
    (∃ forwarded, result = .ok (some forwarded)) ↔
      submission.rest = [] ∧ ∃ proof encryptedBlob, answer = .ok (some proof) ∧
        deps.blobNew submission.blob.nmtNamespace (deps.proofCodec.serialize proof) = .ok encryptedBlob := by
  have stepped := resume_step deps submission answer
  generalize submission.resume deps answer = inbound at stepped ended
  cases stepped with
  | failed e =>
    cases ended
    simp
  | waits =>
    cases ended
    simp
  | refused proof e rejected =>
    cases ended
    simp [rejected]
  | encrypted proof encryptedBlob made =>
    obtain ⟨last,forwarded⟩ := submitBlobs_done.mp ended
    exact iff_of_true ⟨_,forwarded.symm⟩ ⟨last,proof,encryptedBlob,rfl,made⟩

theorem forwards_iff (ended : EndedBy deps s origin action result) :
    (∃ forwarded, result = .ok (some forwarded)) ↔ s.Forwards deps action := by
  cases ended with
  | atOnce _ ended => exact (inboundHandler_done ended).2
  | resumed i fault thread answer _ found same returned ended =>
    rw [resume_forwards ended]
    have answered (proof : Proof) : answer = .ok (some proof) ↔ fault = none ∧ thread.call = .readFinished ∧
        ∃ data, s.runner.finishedDb.lookup (deps.jobKey (thread.submission.job deps)) = some data ∧
          deps.statusCodec.deserialize data = .ok (.zkProofFinished proof) := by
      rw [← getVerifiableEncryption_proof,returned,Progress.returned.injEq]
    simp only [State.Forwards,found,Option.some.injEq,exists_eq_left',answered]
    constructor
    · intro forwards
      obtain ⟨last,proof,encryptedBlob,⟨working,reading,data,stored,read⟩,made⟩ := forwards
      exact ⟨working,reading,last,data,proof,encryptedBlob,stored,read,made⟩
    · intro forwards
      obtain ⟨working,reading,last,data,proof,encryptedBlob,stored,read,made⟩ := forwards
      exact ⟨last,proof,encryptedBlob,⟨working,reading,data,stored,read⟩,made⟩

end

section
variable {config : Config} {setups : Nat → Except PdaRunnerError SP1ProofSetup} {requestMethod : String}
  {answer : Except String (IncomingResponse Body)} {json : Json} {response : Response Body}

theorem tryMutateResponse_keeps {key : Block KEY_LEN} {mutatedJson : Json}
    (rewritten : tryMutateResponse deps key setups requestMethod json = pure mutatedJson) :
    mutatedJson.get "id" = json.get "id" ∧ (OneOutcome mutatedJson ↔ OneOutcome json) := by
  by_cases asked : requestMethod = "blob.Get" ∨ requestMethod = "blob.GetAll"
  · obtain ⟨result,mutated,found,same,_⟩ := tryMutateResponse_success asked rewritten
    have replaced := Json.get_set json result mutated "result" found
    have error := Json.get_set_ne json mutated "result" "error" (by decide)
    rw [same]
    refine ⟨Json.get_set_ne _ _ _ _ (by decide),?_⟩
    rw [OneOutcome,OneOutcome,replaced,error,found]
    rfl
  · rw [tryMutateResponse_unchanged asked rewritten]
    exact ⟨rfl,Iff.rfl⟩

/-- What the node delivers reaches the client with its `id` and its outcome. -/
theorem returned_delivered (texts : ReadsTexts deps) (delivered : Delivered deps answer json)
    (made : returned deps config setups requestMethod answer = some response) :
    ∃ shown, deps.fromSlice response.body = .ok shown ∧ shown.get "id" = json.get "id" ∧
      (OneOutcome shown ↔ OneOutcome json) := by
  obtain ⟨resp,respBytes,rfl,collected,authorized,parsed⟩ := delivered
  cases tried : tryMutateResponse deps config.encryptionKey setups requestMethod json with
  | none =>
    have panics : outboundHandler deps config setups resp requestMethod = ExceptT.mk none := by
      simp only [outboundHandler,collected,liftM_ok,pure_bind,if_neg authorized,parsed,tried]
      rfl
    rw [returned,panics] at made
    cases made
  | some outcome =>
    cases outcome with
    | error e =>
      rw [returned,outboundHandler_unchanged authorized collected parsed tried] at made
      cases made
      exact ⟨json,parsed,rfl,Iff.rfl⟩
    | ok mutated =>
      rw [returned,outboundHandler_mutated authorized collected parsed tried] at made
      cases made
      exact ⟨mutated,texts.printed mutated (tryMutateResponse_printed parsed tried),tryMutateResponse_keeps tried⟩

/-- Where the node delivers nothing, the client gets one of the fixed errors. -/
theorem returned_undelivered (texts : ReadsTexts deps) {id : Json} (lost : ¬ ∃ json, Delivered deps answer json)
    (made : returned deps config setups requestMethod answer = some response) :
    AnswersRequest deps id response ↔ id = .number (.posInt 1) := by
  cases answer with
  | error e =>
    cases made
    exact internalErrorResponse_answers texts _
  | ok resp =>
    cases collected : resp.body with
    | error e =>
      have failed : outboundHandler deps config setups resp requestMethod = throw e := by
        simp only [outboundHandler,collected]
        rfl
      rw [returned,failed] at made
      cases made
      exact internalErrorResponse_answers texts _
    | ok respBytes =>
      by_cases authorized : resp.parts.status = 401
      · have refused : outboundHandler deps config setups resp requestMethod = pure (badAuthResponse deps) := by
          simp only [outboundHandler,collected,liftM_ok,pure_bind,if_pos authorized]
        rw [returned,refused] at made
        cases made
        exact badAuthResponse_answers texts
      · cases parsed : deps.fromSlice respBytes with
        | ok json => exact absurd ⟨json,resp,respBytes,rfl,collected,authorized,parsed⟩ lost
        | error e =>
          rw [returned,outboundHandler_malformed authorized collected parsed] at made
          cases made
          exact internalErrorResponse_answers texts _

end

section
variable {node : Upstream} {s t : State Proof Encoded Body} {replies : List (Reply Proof Encoded Body)}

theorem Replied.reaches (run : Replied deps node s replies) :
    ∃ config, Reaches (State.step deps) Free (State.initial config) s := by
  induction run with
  | start config => exact ⟨config,.refl⟩
  | quiet s t action replies earlier stepped ih =>
    obtain ⟨config,run⟩ := ih
    exact ⟨config,run.tail ⟨action,trivial,stepped⟩⟩
  | reply s t action replies origin result client setups answer exchange earlier stepped ended rewritten bearer made ih =>
    obtain ⟨config,run⟩ := ih
    exact ⟨config,run.tail ⟨action,trivial,stepped⟩⟩

/-- Nothing is said of a run by leaving its responses out. -/
theorem Replied.of_reaches {config : Config} (run : Reaches (State.step deps) Free (State.initial config) s) :
    Replied deps node s [] := by
  induction run with
  | refl => exact .start config
  | tail _ last ih =>
    obtain ⟨action,_,stepped⟩ := last
    exact .quiet _ _ action _ ih stepped

theorem Forwarded.sent {answered : List (Answered Proof)} {req : IncomingRequest Body} {forwarded : Request Body}
    {bodyJson : Json} (texts : ReadsTexts deps) (came : Forwarded deps answered req forwarded)
    (parsed : req.json deps = .ok bodyJson) :
    ∃ sent, deps.fromSlice forwarded.body = .ok sent ∧ sent.get "id" = bodyJson.get "id" := by
  obtain ⟨bodyBytes,slice⟩ := req.json_read parsed
  cases came with
  | unchanged other read _ =>
    obtain rfl := Except.ok.inj (parsed.symm.trans read)
    exact ⟨bodyJson,texts.printed _ (.parsed _ _ slice),rfl⟩
  | encrypted other blobs encryptedBlobs read _ _ =>
    obtain rfl := Except.ok.inj (parsed.symm.trans read)
    exact ⟨_,texts.printed _ (.submission _ _ encryptedBlobs slice),overwriteBlobs_get _ _ (by decide)⟩

section
variable {config : Config} {setups : Nat → Except PdaRunnerError SP1ProofSetup}
  {answer : Except String (IncomingResponse Body)} {client : ClientRequest Body} {origin : IncomingRequest Body}

theorem rewriteUri_headers (rewritten : rewriteUri node client = some origin) :
    origin.parts.headers = client.headers := by
  obtain ⟨target,_,same⟩ := Option.map_eq_some_iff.mp rewritten
  rw [← same]

theorem serve_error (rewritten : rewriteUri node client = some origin) (bearer : hasBearer client.headers = true) (e : String) :
    serve deps node config setups (fun _ => .error e) answer client = some ⟨[],internalErrorResponse deps e⟩ := by
  simp only [serve,rewritten,rewriteUri_headers rewritten,bearer,if_true]

theorem serve_pending (rewritten : rewriteUri node client = some origin) (bearer : hasBearer client.headers = true) :
    serve deps node config setups (fun _ => .ok none) answer client = some ⟨[],pendingResponse deps⟩ := by
  simp only [serve,rewritten,rewriteUri_headers rewritten,bearer,if_true]

theorem serve_forwarded (rewritten : rewriteUri node client = some origin) (bearer : hasBearer client.headers = true)
    (wrappedReq : Request Body) :
    serve deps node config setups (fun _ => .ok (some wrappedReq)) answer client =
      (returned deps config setups (origin.requestMethod deps) answer).map fun response => ⟨[wrappedReq],response⟩ := by
  simp only [serve,rewritten,rewriteUri_headers rewritten,bearer,if_true]

end

theorem Delivered.unique {answer : Except String (IncomingResponse Body)} {json other : Json}
    (delivered : Delivered deps answer json) (again : Delivered deps answer other) : other = json := by
  obtain ⟨resp,respBytes,rfl,collected,_,parsed⟩ := delivered
  obtain ⟨_,_,same,recollected,_,reparsed⟩ := again
  cases same
  cases collected.symm.trans recollected
  exact Except.ok.inj (reparsed.symm.trans parsed)

section
variable {reply : Reply Proof Encoded Body} {id json : Json}

theorem matching_first (settled : ¬ reply.before.CallsBack deps reply.action)
    (lost : ¬ (reply.before.Forwards deps reply.action ∧ ∃ json, Delivered deps reply.answer json)) :
    reply.Matching deps id ↔ id = .number (.posInt 1) := by
  constructor
  · intro matching
    exact matching.identified.resolve_right lost
  · intro first
    exact ⟨settled,.inl first,fun sends json delivered => absurd ⟨sends,json,delivered⟩ lost⟩

theorem matching_delivered (settled : ¬ reply.before.CallsBack deps reply.action)
    (sends : reply.before.Forwards deps reply.action) (delivered : Delivered deps reply.answer json) :
    reply.Matching deps id ↔ OneOutcome json := by
  constructor
  · intro matching
    exact matching.upstream sends json delivered
  · intro outcome
    exact ⟨settled,.inr ⟨sends,json,delivered⟩,fun _ other again => delivered.unique again ▸ outcome⟩

end

theorem rewriteUri_json {client : ClientRequest Body} {origin : IncomingRequest Body} {bodyBytes : Body} {bodyJson : Json}
    (rewritten : rewriteUri node client = some origin) (received : client.body = .ok bodyBytes)
    (parsed : deps.fromSlice bodyBytes = .ok bodyJson) : origin.json deps = .ok bodyJson := by
  obtain ⟨target,_,rfl⟩ := Option.map_eq_some_iff.mp rewritten
  rw [IncomingRequest.json,received,← parsed]

theorem reply_matching_iff (texts : ReadsTexts deps) {config : Config} {action : Action Proof Body}
    {origin : IncomingRequest Body} {result : InboundResult Body} {client : ClientRequest Body}
    {setups : Nat → Except PdaRunnerError SP1ProofSetup} {answer : Except String (IncomingResponse Body)}
    {exchange : Exchange Body} {bodyBytes : Body} {bodyJson id : Json}
    (run : Reaches (State.step deps) Free (State.initial config) s) (stepped : s.step deps action = some t)
    (ended : t.served = s.served ++ [(origin,result)]) (rewritten : rewriteUri node client = some origin)
    (bearer : hasBearer client.headers = true)
    (made : serve deps node s.config setups (fun _ => result) answer client = some exchange)
    (echo : Reply.Echoed deps ⟨s,action,client,answer,exchange⟩) (received : client.body = .ok bodyBytes)
    (parsed : deps.fromSlice bodyBytes = .ok bodyJson) (identified : bodyJson.get "id" = some id) :
    AnswersRequest deps id exchange.response ↔ Reply.Matching deps ⟨s,action,client,answer,exchange⟩ id := by
  have waits := callsBack_iff (ended_by stepped ended)
  have forwards := forwards_iff (ended_by stepped ended)
  rcases result with e | _ | forwarded
  · rw [serve_error rewritten bearer] at made
    cases made
    have settled : ¬ s.CallsBack deps action := by
      intro waiting
      cases waits.mpr waiting
    have kept : ¬ s.Forwards deps action := by
      intro sent
      obtain ⟨forwarded,same⟩ := forwards.mpr sent
      cases same
    rw [internalErrorResponse_answers texts,matching_first settled fun sent => kept sent.1]
  · rw [serve_pending rewritten bearer] at made
    cases made
    apply iff_of_false (pendingResponse_answers texts)
    intro matching
    exact matching.settled (waits.mp rfl)
  · rw [serve_forwarded rewritten bearer] at made
    have settled : ¬ s.CallsBack deps action := by
      intro waiting
      cases waits.mpr waiting
    have sends : s.Forwards deps action := forwards.mp ⟨forwarded,rfl⟩
    obtain ⟨response,answered,rfl⟩ := Option.map_eq_some_iff.mp made
    by_cases reached : ∃ json, Delivered deps answer json
    · obtain ⟨json,delivered⟩ := reached
      obtain ⟨shown,read,sameId,sameOutcome⟩ := returned_delivered texts delivered answered
      have served : (origin,.ok (some forwarded)) ∈ t.served := by simp [ended]
      obtain ⟨_,came⟩ := forwarded_reaches (run.tail ⟨action,trivial,stepped⟩) (fun _ action _ => receives_any action) served
      obtain ⟨sent,printed,kept⟩ := came.sent texts (rewriteUri_json rewritten received parsed)
      have echoed : json.get "id" = some id := by
        rw [echo forwarded (List.mem_singleton_self _) json sent delivered printed,kept,identified]
      rw [answersRequest_iff read,sameId,sameOutcome,and_iff_right echoed]
      exact (matching_delivered settled sends delivered).symm
    · rw [returned_undelivered texts reached answered]
      exact (matching_first settled fun sent => reached sent.2).symm

end

/-- In every run, a response answers the JSON-RPC request it is given to if and only if the client
is not put off, and its `id` is 1 or the node's answer comes through, with one outcome in it. -/
theorem replies_match_iff (deps : Dependencies Proof Encoded Body) (texts : ReadsTexts deps) (node : Upstream)
    (s : State Proof Encoded Body) (replies : List (Reply Proof Encoded Body)) (run : Replied deps node s replies)
    (reply : Reply Proof Encoded Body) (given : reply ∈ replies) (echo : reply.Echoed deps) (bodyBytes : Body)
    (bodyJson id : Json) (received : reply.client.body = .ok bodyBytes) (parsed : deps.fromSlice bodyBytes = .ok bodyJson)
    (identified : bodyJson.get "id" = some id) :
    AnswersRequest deps id reply.exchange.response ↔ reply.Matching deps id := by
  induction run with
  | start config => cases given
  | quiet s t action replies earlier stepped ih => exact ih given
  | reply s t action replies origin result client setups answer exchange earlier stepped ended rewritten bearer made ih =>
    rcases List.mem_append.mp given with before | last
    · exact ih before
    · cases List.mem_singleton.mp last
      obtain ⟨config,run⟩ := earlier.reaches
      exact reply_matching_iff texts run stepped ended rewritten bearer made echo received parsed identified

namespace Tabulated

def text : Json ⊕ String → String := Sum.elim (fun _ => "") id

/-- What the two texts are read as. -/
def parseText (pending badAuth raw : String) : Except String Json :=
  if raw = pending then .ok pendingJson
  else if raw = badAuth then .ok badAuthJson
  else .error "expected value at line 1 column 1"

theorem parseText_pending (pending badAuth : String) : parseText pending badAuth pending = .ok pendingJson := if_pos rfl

theorem parseText_badAuth {pending badAuth : String} (other : badAuth ≠ pending) :
    parseText pending badAuth badAuth = .ok badAuthJson := by
  rw [parseText,if_neg other,if_pos rfl]

def readTexts (deps : Dependencies Bytes (JobStatus Bytes) (Json ⊕ String)) :
    Dependencies Bytes (JobStatus Bytes) (Json ⊕ String) :=
  { deps with
    fromSlice := Sum.elim .ok (parseText (text (pendingResponse deps).body) (text (badAuthResponse deps).body)) }

def withTexts : Dependencies Bytes (JobStatus Bytes) (Json ⊕ String) := readTexts withText

theorem withTexts_reads : ReadsTexts withTexts where
  printed _ _ := rfl
  pending := parseText_pending (text (pendingResponse withText).body) (text (badAuthResponse withText).body)
  badAuth :=
    parseText_badAuth (by decide +kernel : text (badAuthResponse withText).body ≠ text (pendingResponse withText).body)

def seven : Json := .number (.posInt 7)

def submitRequest : Json := (call "blob.Submit" [plainBlob]).set "id" seven

def originOf (body : Json) : IncomingRequest (Json ⊕ String) := ⟨⟨"POST","/",bearer⟩,.ok (.inl body)⟩

def start : State Bytes (JobStatus Bytes) (Json ⊕ String) := .initial localConfig

/-- A request with nothing to encrypt, and what comes of its forwarding. -/
def headReply (answer : Except String (IncomingResponse (Json ⊕ String))) (response : Response (Json ⊕ String)) :
    Reply Bytes (JobStatus Bytes) (Json ⊕ String) where
  before := start
  action := .receive (originOf headRequest)
  client := requestWith (.inl headRequest)
  answer := answer
  exchange := ⟨[forward withTexts (originOf headRequest) headRequest],response⟩

theorem headReply_replied (answer : Except String (IncomingResponse (Json ⊕ String))) (response : Response (Json ⊕ String))
    (made : serve withTexts node localConfig (fun _ => ready)
      (fun _ => .ok (some (forward withTexts (originOf headRequest) headRequest))) answer (requestWith (.inl headRequest)) =
        some ⟨[forward withTexts (originOf headRequest) headRequest],response⟩) :
    ∃ s, Replied withTexts node s [headReply answer response] :=
  ⟨_,.reply _ _ _ _ _ _ _ _ _ _ (.start localConfig) rfl rfl rfl rfl made⟩

def headAnswer : Json := (answer .null).set "id" seven

def beforeSend : State Bytes (JobStatus Bytes) (Json ⊕ String) :=
  final (State.step withTexts) start
    [.receive (originOf submitRequest),.request 0 none,.request 0 none,.request 0 none]

/-- A submission with a new blob, whose client is told to call back. -/
def submitReply : Reply Bytes (JobStatus Bytes) (Json ⊕ String) where
  before := beforeSend
  action := .request 0 none
  client := requestWith (.inl submitRequest)
  answer := .error ""
  exchange := ⟨[],pendingResponse withTexts⟩

set_option maxRecDepth 2048 in
theorem submitReply_replied : ∃ s, Replied withTexts node s [submitReply] :=
  ⟨_,.reply beforeSend _ _ _ (originOf submitRequest) (.ok none) _ (fun _ => ready) _ _
    (.of_reaches (final_reaches _ _ (by decide +kernel))) rfl rfl rfl rfl rfl⟩

end Tabulated

theorem replies_match_forwarded :
    let reply := Tabulated.headReply (.ok (Tabulated.responseWith (.inl Tabulated.headAnswer)))
      ⟨⟨200,[]⟩,.inl Tabulated.headAnswer⟩
    AnswersRequest Tabulated.withTexts Tabulated.seven reply.exchange.response ↔
      reply.Matching Tabulated.withTexts Tabulated.seven := by
  intro reply
  obtain ⟨s,run⟩ := Tabulated.headReply_replied (.ok (Tabulated.responseWith (.inl Tabulated.headAnswer)))
    ⟨⟨200,[]⟩,.inl Tabulated.headAnswer⟩ rfl
  refine replies_match_iff Tabulated.withTexts Tabulated.withTexts_reads Tabulated.node s [reply] run reply
    (List.mem_singleton_self _) ?_ _ Tabulated.headRequest Tabulated.seven rfl rfl rfl
  intro forwarded member json sent delivered read
  cases List.mem_singleton.mp member
  obtain ⟨resp,respBytes,same,collected,_,parsed⟩ := delivered
  cases same
  cases collected
  cases parsed
  cases read
  rfl

/-- A client that uses the `id` 7 is told to call back under another, without an outcome, and
is told under another that the node cannot be reached. -/
theorem fixed_id_answers_another :
    let failed := Tabulated.headReply (.error "connection refused")
      (internalErrorResponse Tabulated.withTexts "DA Client: connection refused")
    ((∃ s, Replied Tabulated.withTexts Tabulated.node s [Tabulated.submitReply]) ∧
      Tabulated.submitReply.Echoed Tabulated.withTexts ∧ Tabulated.submitReply.client.body = .ok (.inl Tabulated.submitRequest) ∧
      Tabulated.submitRequest.get "id" = some Tabulated.seven ∧
      ¬ AnswersRequest Tabulated.withTexts Tabulated.seven Tabulated.submitReply.exchange.response) ∧
    (∃ s, Replied Tabulated.withTexts Tabulated.node s [failed]) ∧ failed.Echoed Tabulated.withTexts ∧
      failed.client.body = .ok (.inl Tabulated.headRequest) ∧ Tabulated.headRequest.get "id" = some Tabulated.seven ∧
      ¬ AnswersRequest Tabulated.withTexts Tabulated.seven failed.exchange.response := by
  intro failed
  refine ⟨⟨Tabulated.submitReply_replied,?_,rfl,rfl,pendingResponse_answers Tabulated.withTexts_reads⟩,
    Tabulated.headReply_replied _ _ rfl,?_,rfl,rfl,?_⟩
  · intro forwarded member
    cases member
  · intro forwarded member json sent delivered
    obtain ⟨resp,respBytes,same,_⟩ := delivered
    cases same
  · intro answers
    have same : Tabulated.seven = .number (.posInt 1) := (internalErrorResponse_answers Tabulated.withTexts_reads _).mp answers
    cases same

end PdaProxy
