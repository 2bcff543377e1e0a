import PdaProxy.Orphans
import PdaProxy.Egress

/-! What the answer to call back later promises. It is given at the first blob of a request
that has no proof yet: the blobs before that one have theirs, and those after it are not
looked at. -/
namespace PdaProxy
open PdaProxy.Semantics.Serialization PdaProxy.Semantics.Transition PdaProxy.Semantics.Pool

variable {Proof Encoded Body : Type}

section
variable (deps : Dependencies Proof Encoded Body)

def Blob.key (blob : Blob) : Bytes := deps.jobKey (deps.jobOf blob.data)

/-- The blob's job has ended with a proof, and the proof fits in a blob. -/
def Finished (runner : PdaRunner Encoded) (blob : Blob) : Prop :=
  ∃ data proof encryptedBlob, runner.finishedDb.lookup (blob.key deps) = some data ∧
    deps.statusCodec.deserialize data = .ok (.zkProofFinished proof) ∧
    deps.blobNew blob.nmtNamespace (deps.proofCodec.serialize proof) = .ok encryptedBlob

/-- A request that comes in and is handled with no step of another in between. -/
def handledAlone (u : State Proof Encoded Body) (req : IncomingRequest Body) (blobs : List Blob) :
    List (Action Proof Body) :=
  .receive req :: List.replicate blobs.length (.request u.requests.length none)

def ForwardedAlone (u : State Proof Encoded Body) (req : IncomingRequest Body) (blobs : List Blob) : Prop :=
  Executes (State.step deps) Free u (handledAlone u req blobs) ∧
    ∃ forwarded, (final (State.step deps) u (handledAlone u req blobs)).served = u.served ++ [(req,.ok (some forwarded))]

/-- Every blob of a request is recorded, and once those that are have their proofs, the same
request is forwarded. -/
structure Scheduled (t : State Proof Encoded Body) (req : IncomingRequest Body) (blobs : List Blob) : Prop where
  recorded : ∀ blob ∈ blobs, t.runner.Records (blob.key deps)
  forwarded : ∀ u, Reaches (State.step deps) Free t u → u.process ≠ .stopped →
    (∀ blob ∈ blobs, t.runner.Records (blob.key deps) → Finished deps u.runner blob) → ForwardedAlone deps u req blobs

end

variable {deps : Dependencies Proof Encoded Body} {s t : State Proof Encoded Body}

theorem CallStep.answers {config : Config} {job : Job} {fault : Fault} {runner after : PdaRunner Encoded}
    {call : Call Proof} {found : Option Proof}
    (sender : call.sends = true → runner.Records (deps.jobKey job))
    (moved : CallStep deps config job fault runner call after (.returned (.ok found))) :
    after.Records (deps.jobKey job) := by
  cases moved with
  | finished data proof stored read => exact .inr (AList.lookup_isSome.mp (by simp [stored]))
  | pending data status stored read waiting => exact .inl (AList.lookup_isSome.mp (by simp [stored]))
  | sent => exact sender rfl

theorem sender_recorded {i : Nat} {thread : RequestThread Proof Body} (registered : (s.ledger deps).Registered)
    (found : s.requests[i]? = some thread) (sends : thread.call.sends = true) :
    s.runner.Records (thread.key deps) := by
  have item : thread.key deps ∈ (s.ledger deps).items :=
    attended_iff.mp (.sending thread (List.mem_of_getElem? found) sends rfl)
  rcases registered _ item with queued | finished
  · exact .inl queued
  · exact .inr (AList.lookup_isSome.mp (Option.isSome_iff_ne_none.mpr finished))

theorem pending_step {i : Nat} {fault : Fault} {thread : RequestThread Proof Body}
    (found : s.requests[i]? = some thread) (stepped : s.step deps (.request i fault) = some t)
    (pending : t.served = s.served ++ [(thread.submission.origin,.ok none)]) :
    CallStep deps s.config (thread.submission.job deps) fault s.runner thread.call t.runner (.returned (.ok none)) ∧
      t.answered = s.answered ++ [⟨s.config,thread.submission.job deps,.ok none⟩] := by
  generalize same : Action.request i fault = action at stepped
  cases step_cases stepped with
  | callReturned j other before located after runner result there pool moved =>
    cases same
    obtain rfl := Option.some.inj (found.symm.trans there)
    obtain ⟨_,ended⟩ := State.deliver_done pending
    obtain rfl := resume_waits ended
    rw [State.deliver_runner,State.deliver_answered]
    exact ⟨moved,rfl⟩
  | callNext | callPanicked =>
    simp at pending
  | _ => cases same

theorem pending_runner {config : Config} {job : Job} {fault : Fault} {runner after : PdaRunner Encoded}
    {call : Call Proof} {key : Bytes}
    (moved : CallStep deps config job fault runner call after (.returned (.ok none))) :
    after.Records key ↔ runner.Records key := by
  cases moved with
  | pending => exact Iff.rfl
  | sent => exact Iff.rfl

theorem interceptions_reaches {guard : State Proof Encoded Body → Action Proof Body → Prop} {config : Config}
    (run : Reaches (State.step deps) guard (State.initial config) s) {i : Nat} {thread : RequestThread Proof Body}
    (found : s.requests[i]? = some thread) :
    Intercepted deps s.answered thread.submission.origin thread.submission.bodyJson thread.submission.encryptedBlobs
      (thread.submission.blob :: thread.submission.rest) := by
  have holds := Assertions.holds_reaches (interceptions_stable fun _ => True)
    (run.weaken fun _ action _ => receives_any action) (fun _ _ => trivial) trivial
  exact (holds.request thread (List.mem_of_getElem? found)).2

theorem inboundHandler_submitted {req : IncomingRequest Body} {bodyJson : Json} {blobs : List Blob}
    (parsed : req.json deps = .ok bodyJson) (submitted : submittedBlobs deps bodyJson = some blobs) :
    inboundHandler deps req = submitBlobs deps req bodyJson [] blobs := by
  obtain ⟨method,blobsValue,others,params,decoded⟩ := submittedBlobs_eq_some.mp submitted
  unfold IncomingRequest.json at parsed
  split at parsed
  next => cases parsed
  next bodyBytes collected =>
    simp only [inboundHandler,collected,parsed,method,interceptSubmit,params,Json.asArray,decoded]

/-- The jobs of the blobs that a request has passed, those before the one its call is for, are recorded. -/
def PassedRecorded (deps : Dependencies Proof Encoded Body) (s : State Proof Encoded Body)
    (thread : RequestThread Proof Body) : Prop :=
  ∀ bodyJson done, thread.submission.origin.json deps = .ok bodyJson →
    submittedBlobs deps bodyJson = some (done ++ thread.submission.blob :: thread.submission.rest) →
    ∀ blob ∈ done, s.runner.Records (blob.key deps)

theorem PassedRecorded.mono {thread other : RequestThread Proof Body} (passed : PassedRecorded deps s thread)
    (same : other.submission = thread.submission) (kept : ∀ key, s.runner.Records key → t.runner.Records key) :
    PassedRecorded deps t other := by
  intro bodyJson done parsed submitted blob member
  rw [same] at parsed submitted
  exact kept _ (passed bodyJson done parsed submitted blob member)

/-- A request that has just come in has passed no blob. -/
theorem passed_received {req : IncomingRequest Body} {submission : Submission Body} {call : Call Proof}
    (calls : inboundHandler deps req = .encrypt submission) : PassedRecorded deps s ⟨submission,call⟩ := by
  intro bodyJson done parsed submitted blob member
  obtain rfl : submission.origin = req := by
    have sound := @inboundHandler_sound Proof Encoded Body deps [] req
    rw [calls] at sound
    exact sound.1
  rw [inboundHandler_submitted parsed submitted] at calls
  have whole := (submitBlobs_encrypt calls).1
  rw [List.append_left_eq_self] at whole
  rw [whole] at member
  cases member

theorem resume_answered {submission next : Submission Body} {result : CallResult Proof}
    (resumed : submission.resume deps result = .encrypt next) : ∃ found, result = .ok found := by
  cases result with
  | error e => cases resumed
  | ok found => exact ⟨found,rfl⟩

/-- A request that goes on to its next blob has passed one whose job was answered. -/
theorem passed_resumed {submission next : Submission Body} {call : Call Proof} {result : CallResult Proof}
    (passed : PassedRecorded deps s ⟨submission,call⟩) (kept : ∀ key, s.runner.Records key → t.runner.Records key)
    (intercepted : Intercepted deps s.answered submission.origin submission.bodyJson submission.encryptedBlobs
      (submission.blob :: submission.rest))
    (answered : ∀ found, result = .ok found → t.runner.Records (submission.blob.key deps))
    (resumed : submission.resume deps result = .encrypt next) (first : Call Proof) :
    PassedRecorded deps t ⟨next,first⟩ := by
  intro bodyJson done parsed submitted
  obtain ⟨rest,origin⟩ := resume_next resumed
  obtain ⟨before,read,split,_⟩ := intercepted
  simp only [origin] at parsed
  obtain rfl := Except.ok.inj (parsed.symm.trans read)
  simp only [← rest] at submitted
  have whole : done ++ submission.rest = (before ++ [submission.blob]) ++ submission.rest := by
    rw [List.append_assoc]
    exact Option.some.inj (submitted.symm.trans split)
  rw [List.append_cancel_right whole]
  refine forall_concat (fun blob member => kept _ (passed _ before parsed split blob member)) ?_
  obtain ⟨found,ended⟩ := resume_answered resumed
  exact answered found ended

theorem passed_step {action : Action Proof Body} (registered : (s.ledger deps).Registered)
    (intercepted : ∀ thread ∈ s.requests, Intercepted deps s.answered thread.submission.origin thread.submission.bodyJson
      thread.submission.encryptedBlobs (thread.submission.blob :: thread.submission.rest))
    (passed : ∀ thread ∈ s.requests, PassedRecorded deps s thread) (stepped : s.step deps action = some t) :
    ∀ thread ∈ t.requests, PassedRecorded deps t thread := by
  cases step_cases stepped with
  | receive req up =>
    intro thread member
    cases handled : inboundHandler deps req with
    | done result =>
      rw [handled] at member
      exact (passed thread member).mono rfl fun _ recorded => recorded
    | encrypt submission =>
      rw [handled] at member
      rcases List.mem_append.mp member with before | new
      · exact (passed thread before).mono rfl fun _ recorded => recorded
      · obtain rfl := List.mem_singleton.mp new
        exact passed_received handled
  | callNext i fault before thread after runner call found pool moved =>
    intro other member
    rcases mem_others member with rfl | before
    · exact (passed thread (List.mem_of_getElem? found)).mono rfl fun _ recorded => moved.records recorded
    · exact (passed other (pool ▸ mem_removed before)).mono rfl fun _ recorded => moved.records recorded
  | callReturned i fault before thread after runner result found pool moved =>
    intro other member
    have present := List.mem_of_getElem? found
    cases resumed : thread.submission.resume deps result with
    | done response =>
      rw [resumed] at member
      exact (passed other (pool ▸ mem_removed member)).mono rfl fun _ recorded => moved.records recorded
    | encrypt next =>
      rw [resumed] at member
      rcases List.mem_append.mp member with before | new
      · exact (passed other (pool ▸ mem_removed before)).mono rfl fun _ recorded => moved.records recorded
      · obtain rfl := List.mem_singleton.mp new
        refine passed_resumed (passed thread present) (fun _ recorded => moved.records recorded)
          (intercepted thread present) ?_ resumed _
        rintro answer rfl
        exact moved.answers (sender_recorded registered found)
  | callPanicked i fault before thread after found pool reading =>
    exact fun other member => (passed other (pool ▸ mem_removed member)).mono rfl fun _ recorded => recorded
  | exit | crash => exact fun _ member => by cases member
  | taskNext i answer before task after runner stage found pool moved =>
    exact fun other member => (passed other member).mono rfl fun _ recorded => moved.records recorded
  | taskEnded i answer before task after runner progress found pool ended moved =>
    exact fun other member => (passed other member).mono rfl fun _ recorded => moved.records recorded
  | received | stopReceived | shutdown | restarted | restartPanicked =>
    exact fun other member => (passed other member).mono rfl fun _ recorded => recorded

theorem passed_reaches {guard : State Proof Encoded Body → Action Proof Body → Prop} {config : Config}
    (run : Reaches (State.step deps) guard (State.initial config) s) :
    ∀ thread ∈ s.requests, PassedRecorded deps s thread := by
  apply run.invariant_with (fun _ reached => reached)
  · intro before action after reached passed _ stepped
    refine passed_step (ledger_registered reached) (fun thread member => ?_) passed stepped
    obtain ⟨i,found⟩ := List.getElem?_of_mem member
    exact interceptions_reaches reached found
  · exact fun _ member => by cases member

theorem finished_step {u : State Proof Encoded Body} {first : List (RequestThread Proof Body)}
    {submission : Submission Body} (last : u.requests = first ++ [⟨submission,.readFinished⟩])
    (finished : Finished deps u.runner submission.blob) :
    ∃ encryptedBlob answered, u.step deps (.request first.length none) =
      some (State.deliver { u with requests := first, answered } submission.origin
        (submitBlobs deps submission.origin submission.bodyJson (submission.encryptedBlobs ++ [encryptedBlob])
          submission.rest)) := by
  obtain ⟨data,proof,encryptedBlob,stored,read,made⟩ := finished
  have found : u.requests[first.length]? = some ⟨submission,.readFinished⟩ := by simp [last]
  have removed : u.requests.eraseIdx first.length = first := by simp [last,List.eraseIdx_append_of_length_le]
  have lookup : u.runner.finishedDb.lookup (deps.jobKey (submission.job deps)) = some data := stored
  refine ⟨encryptedBlob,u.answered ++ [⟨u.config,submission.job deps,.ok (some proof)⟩],?_⟩
  simp only [State.step,found,Option.map_some,State.requestStep,getVerifiableEncryption,lookup,read,removed,
    Submission.resume,made]

/-- From call to call, the loop of `inbound_handler` over finished blobs comes to its end. -/
theorem forwards_alone {req : IncomingRequest Body} {bodyJson : Json} (blobs encryptedBlobs : List Blob)
    (u : State Proof Encoded Body) (finished : ∀ blob ∈ blobs, Finished deps u.runner blob) :
    let v := u.deliver req (submitBlobs deps req bodyJson encryptedBlobs blobs)
    let calls := List.replicate blobs.length (Action.request u.requests.length none)
    Executes (State.step deps) Free v calls ∧
      ∃ forwarded, (final (State.step deps) v calls).served = u.served ++ [(req,.ok (some forwarded))] := by
  induction blobs generalizing u encryptedBlobs with
  | nil => exact ⟨trivial,_,rfl⟩
  | cons blob rest ih =>
    obtain ⟨here,later⟩ := List.forall_mem_cons.mp finished
    let submission : Submission Body := ⟨req,bodyJson,encryptedBlobs,blob,rest⟩
    let waiting : State Proof Encoded Body := { u with requests := u.requests ++ [⟨submission,.readFinished⟩] }
    obtain ⟨encryptedBlob,answered,stepped⟩ := @finished_step Proof Encoded Body deps waiting u.requests submission rfl here
    obtain ⟨executes,forwarded,served⟩ := ih (encryptedBlobs ++ [encryptedBlob]) { u with answered } later
    refine ⟨⟨trivial,_,stepped,executes⟩,forwarded,?_⟩
    have same : State.step deps waiting (.request u.requests.length none) = _ := stepped
    change (final (State.step deps) waiting (Action.request u.requests.length none :: _)).served = _
    rw [final,same]
    exact served

theorem forwardedAlone_of_finished {u : State Proof Encoded Body} {req : IncomingRequest Body} {bodyJson : Json}
    {blobs : List Blob} (up : u.process ≠ .stopped) (parsed : req.json deps = .ok bodyJson)
    (submitted : submittedBlobs deps bodyJson = some blobs) (finished : ∀ blob ∈ blobs, Finished deps u.runner blob) :
    ForwardedAlone deps u req blobs := by
  have received : u.step deps (.receive req) = some (u.deliver req (submitBlobs deps req bodyJson [] blobs)) := by
    rw [State.step,if_neg up,inboundHandler_submitted parsed submitted]
  obtain ⟨executes,forwarded,served⟩ := @forwards_alone Proof Encoded Body deps req bodyJson blobs [] u finished
  refine ⟨⟨trivial,_,received,executes⟩,forwarded,?_⟩
  rw [handledAlone,final,received]
  exact served

/-- In every run, a request that is answered to call back later is scheduled as a whole if and
only if the blobs after the one it waits for were recorded before. -/
theorem pending_scheduled_iff (config : Config) (s t : State Proof Encoded Body)
    (run : Reaches (State.step deps) Free (State.initial config) s) (i : Nat) (fault : Fault)
    (thread : RequestThread Proof Body) (found : s.requests[i]? = some thread)
    (stepped : s.step deps (.request i fault) = some t)
    (pending : t.served = s.served ++ [(thread.submission.origin,.ok none)]) (bodyJson : Json)
    (parsed : thread.submission.origin.json deps = .ok bodyJson) (blobs : List Blob)
    (submitted : submittedBlobs deps bodyJson = some blobs) :
    Scheduled deps t thread.submission.origin blobs ↔
      ∀ blob ∈ thread.submission.rest, s.runner.Records (blob.key deps) := by
  obtain ⟨moved,answered⟩ := pending_step found stepped pending
  obtain ⟨done,read,split,replaced⟩ := interceptions_reaches run found
  obtain rfl := Except.ok.inj (parsed.symm.trans read)
  obtain rfl := Option.some.inj (submitted.symm.trans split)
  constructor
  · intro scheduled blob later
    rw [← pending_runner moved]
    exact scheduled.recorded blob (by simp [later])
  · intro rest
    have before : ∀ blob ∈ done, t.runner.Records (blob.key deps) := by
      intro blob member
      have passed := passed_reaches run thread (List.mem_of_getElem? found) _ done parsed split
      have lossless : (Action.request i fault : Action Proof Body).Lossless := trivial
      exact records_step lossless stepped (passed blob member)
    have current : t.runner.Records (thread.submission.blob.key deps) :=
      moved.answers (sender_recorded (ledger_registered run) found)
    have all : ∀ blob ∈ done ++ thread.submission.blob :: thread.submission.rest, t.runner.Records (blob.key deps) := by
      intro blob member
      rcases List.mem_append.mp member with earlier | later
      · exact before blob earlier
      · rcases List.mem_cons.mp later with rfl | later
        · exact current
        · exact (pending_runner moved).mpr (rest blob later)
    refine ⟨all,?_⟩
    intro u later up finished
    exact forwardedAlone_of_finished up parsed submitted fun blob member => finished blob member (all blob member)

namespace Tabulated

/-- Up to the step that answers the request for a new first blob. -/
def askFor (req : IncomingRequest Json) : List (Action Bytes Json) :=
  [.receive req,.request 0 none,.request 0 none,.request 0 none]

def plainThread : RequestThread Bytes Json :=
  ⟨⟨plainRequest,call "blob.Submit" [plainBlob],[],⟨List.replicate 29 0,[1,2,3],0,[],none,none⟩,[]⟩,.send⟩

end Tabulated

set_option maxRecDepth 2048 in
theorem pending_scheduled_plain :
    Scheduled Tabulated.dependencies (Tabulated.run Tabulated.localConfig (Tabulated.submitPlain 0))
        Tabulated.plainRequest [⟨List.replicate 29 0,[1,2,3],0,[],none,none⟩] ↔
      ∀ blob ∈ ([] : List Blob), (Tabulated.run Tabulated.localConfig (Tabulated.askFor Tabulated.plainRequest)).runner.Records
        (blob.key Tabulated.dependencies) :=
  pending_scheduled_iff Tabulated.localConfig _ _
    (Tabulated.run_reaches _ (Tabulated.askFor Tabulated.plainRequest) (by decide +kernel)) 0 none
    Tabulated.plainThread rfl rfl rfl _ rfl _ Tabulated.plainBlob_submitted

namespace Tabulated

def zeroBlob : Blob := ⟨List.replicate 29 0,zeroKey.toList,0,[],none,none⟩

def pairRequest : IncomingRequest Json := post (call "blob.Submit" [plainBlob,blobToValue zeroBlob])

/-- A client submits two blobs, and again after the job that was pending has its proof. -/
def submitPair : List (Action Bytes Json) := askFor pairRequest ++ [.request 0 none]

def submitPairAgain : List (Action Bytes Json) :=
  submitPair ++ provePlain zeroKey zeroNonce ++
    [.receive pairRequest,.request 0 none,.request 0 none,.request 0 none,.request 0 none,.request 0 none]

end Tabulated

set_option maxRecDepth 2048 in
/-- The second blob of a request is not recorded when its client is told to call back, and when
it does, with the pending job finished, it is told so again. -/
theorem pending_pair_not_scheduled :
    let t := Tabulated.run Tabulated.localConfig Tabulated.submitPair
    let u := Tabulated.run Tabulated.localConfig Tabulated.submitPairAgain
    Reaches (State.step Tabulated.dependencies) Free (.initial Tabulated.localConfig) t ∧
      Reaches (State.step Tabulated.dependencies) Free (.initial Tabulated.localConfig) u ∧
      t.served[0]? = some (Tabulated.pairRequest,.ok none) ∧ u.served[1]? = some (Tabulated.pairRequest,.ok none) ∧
      ¬ Scheduled Tabulated.dependencies t Tabulated.pairRequest
        [⟨List.replicate 29 0,[1,2,3],0,[],none,none⟩,Tabulated.zeroBlob] := by
  refine ⟨Tabulated.run_reaches _ _ (by decide +kernel),Tabulated.run_reaches _ _ (by decide +kernel),?_⟩
  rw [Tabulated.run_eq,Tabulated.run_eq]
  refine ⟨rfl,rfl,?_⟩
  intro scheduled
  have second := scheduled.recorded Tabulated.zeroBlob (by simp)
  exact second.elim (by decide +kernel) (by decide +kernel)

end PdaProxy
