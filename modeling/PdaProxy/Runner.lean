import PdaProxy.Dependencies
import Mathlib.Data.List.AList

/-! The job runner. `get_verifiable_encryption` and `prove` run on a multi-threaded
runtime, so each is cut at its database and channel operations: a step takes the call
from one operation to the next. The outcome of an operation that can fail, and what a
prover answers, are inputs of the step. -/
namespace PdaProxy
open PdaProxy.Semantics.Serialization

/-- A tree of the database, as the process that has it open sees it. -/
abbrev SledTree (Encoded : Type) := AList (fun _ : Bytes => Encoded)

structure Config where
  encryptionKey : Block KEY_LEN
  chachaElf : Bytes
  sp1Prover : Option String
  sp1FulfillmentStrategy : Option String
deriving DecidableEq

/-- The state that all calls and tasks share: the two trees and the messages sent on the
job channel that the worker has not received. sled keeps writes in memory and puts them on
disk, in their order, at a time of its own; `unflushed` has what the trees held before each
write since the last `flush`, the latest first. -/
structure PdaRunner (Encoded : Type) where
  queueDb : SledTree Encoded
  finishedDb : SledTree Encoded
  unflushed : List (SledTree Encoded × SledTree Encoded)
  channel : List (Option Job)

inductive Progress (Point Result : Type)
  | next (point : Point)
  | returned (result : Result)
  | panicked

abbrev Fault := Option String

variable {Proof Encoded Body : Type} (deps : Dependencies Proof Encoded Body)

namespace PdaRunner

def empty : PdaRunner Encoded := ⟨∅,∅,[],[]⟩

/-- What the next process can find in the trees when this one is killed: what they hold, or
what they held before some of the writes that are not on disk. -/
def contents (runner : PdaRunner Encoded) : List (SledTree Encoded × SledTree Encoded) :=
  (runner.queueDb,runner.finishedDb) :: runner.unflushed

/-- The transaction of finalize_job. -/
def moveToFinished (runner : PdaRunner Encoded) (jobKey : Bytes) (jobStatus : JobStatus Proof) :
    PdaRunner Encoded :=
  { runner with
    queueDb := runner.queueDb.erase jobKey
    finishedDb := runner.finishedDb.insert jobKey (deps.statusCodec.serialize jobStatus)
    unflushed := runner.contents }

/-- The transaction of send_job_with_new_status. -/
def moveToQueue (runner : PdaRunner Encoded) (jobKey : Bytes) (updateStatus : JobStatus Proof) :
    PdaRunner Encoded :=
  { runner with
    finishedDb := runner.finishedDb.erase jobKey
    queueDb := runner.queueDb.insert jobKey (deps.statusCodec.serialize updateStatus)
    unflushed := runner.contents }

def insertQueue (runner : PdaRunner Encoded) (jobKey : Bytes) (initialStatus : JobStatus Proof) :
    PdaRunner Encoded :=
  { runner with
    queueDb := runner.queueDb.insert jobKey (deps.statusCodec.serialize initialStatus)
    unflushed := runner.contents }

def send (runner : PdaRunner Encoded) (message : Option Job) : PdaRunner Encoded :=
  { runner with channel := runner.channel ++ [message] }

end PdaRunner

inductive Call (Proof : Type)
  | readFinished
  | retryTransaction (error : PdaRunnerError) (retryStatus : JobStatus Proof)
  | retrySend (error : PdaRunnerError)
  | readQueue
  | insert (initialStatus : JobStatus Proof)
  | send

abbrev CallResult (Proof : Type) := Except PdaRunnerError (Option Proof)

def retryFailed (e : PdaRunnerError) : CallResult Proof :=
  .error (.internalError ("PLEASE REPORT! Internal error, cannot retry: " ++ e.debug))

def initialStatus (config : Config) : Progress (JobStatus Proof) PdaRunnerError :=
  match config.sp1Prover with
  | none => .panicked
  | some "network" => .next .remoteZkProofRequesting
  | some "cuda" | some "cpu" | some "mock" => .next .localZkProofPending
  | some unknown => .returned (.internalError ("SP1_PROVER is unkown: " ++ unknown))

def getVerifiableEncryption (config : Config) (job : Job) (fault : Fault) (runner : PdaRunner Encoded) :
    Call Proof → PdaRunner Encoded × Progress (Call Proof) (CallResult Proof)
  | .readFinished =>
    match fault with
    | some e => (runner,.returned (.error (.internalError e)))
    | none =>
      match runner.finishedDb.lookup (deps.jobKey job) with
      | none => (runner,.next .readQueue)
      | some proofData =>
        match deps.statusCodec.deserialize proofData with
        | .error e => (runner,.returned (.error (.internalError e)))
        | .ok (.zkProofFinished proof) => (runner,.returned (.ok (some proof)))
        | .ok (.failed error none) => (runner,.returned (.error (.internalError error.debug)))
        | .ok (.failed error (some retryStatus)) => (runner,.next (.retryTransaction error retryStatus))
        | .ok _ => (runner,.returned (.error (.internalError "PLEASE REPORT! Finished DB is in invalid state")))
  | .retryTransaction error retryStatus =>
    match fault with
    | some e => (runner,.returned (retryFailed (.internalError e)))
    | none => (runner.moveToQueue deps (deps.jobKey job) retryStatus,.next (.retrySend error))
  | .retrySend error =>
    match fault with
    | some e => (runner,.returned (retryFailed (.internalError e)))
    | none => (runner.send (some job),
        .returned (.error (.internalError ("Retrying! Previous error: " ++ error.debug))))
  | .readQueue =>
    match fault with
    | some e => (runner,.returned (.error (.internalError e)))
    | none =>
      match runner.queueDb.lookup (deps.jobKey job) with
      | some queueData =>
        match deps.statusCodec.deserialize queueData with
        | .error e => (runner,.returned (.error (.internalError e)))
        | .ok .localZkProofPending | .ok .remoteZkProofRequesting | .ok (.remoteZkProofPending _) =>
          (runner,.returned (.ok none))
        | .ok _ => (runner,.returned (.error (.internalError
            ("0x" ++ bytesToHex (deps.jobKey job) ++ " - Job queue is in invalid state"))))
      | none =>
        match initialStatus config with
        | .panicked => (runner,.panicked)
        | .returned e => (runner,.returned (.error e))
        | .next status => (runner,.next (.insert status))
  | .insert status =>
    match fault with
    | some e => (runner,.returned (.error (.internalError e)))
    | none => (runner.insertQueue deps (deps.jobKey job) status,.next .send)
  | .send =>
    match fault with
    | some e => (runner,.returned (.error (.internalError e)))
    | none => (runner.send (some job),.returned (.ok none))

inductive Stage (Proof : Type)
  | readQueue
  | remoteRequesting
  | remotePending (requestId : SuccNetJobId)
  | localPending
  | finalize (jobStatus : JobStatus Proof)
  | updateStatus (jobStatus : JobStatus Proof)
  | sendBack

/-- What a step of a task is answered from outside: the outcome of a storage or channel
operation, of the proof setup, or of a call to a prover with the nonce that was drawn.
Building a client, and a prover itself, can also panic. -/
inductive Answer (Proof : Type)
  | storage (fault : Fault)
  | setupFailed (error : PdaRunnerError)
  | proved (nonce : Block NONCE_LEN) (result : Except ProverError Proof)
  | requested (nonce : Block NONCE_LEN) (result : Except ProverError SuccNetJobId)
  | waited (result : Except ProverError Proof)
  | panics

def proverStdin (config : Config) (nonce : Block NONCE_LEN) (job : Job) : List Bytes :=
  [config.encryptionKey.toList,nonce.toList,job.input.data]

/-- The error and the status to finalize with that `handle_zk_client_error` makes of a
client error. -/
def handleZkClientError (zkClientError : SP1NetworkError) (job : Job) : PdaRunnerError × JobStatus Proof :=
  let occurred := deps.displayNetworkError zkClientError ++ " occurred for " ++ job.debug
  match zkClientError with
  | .simulationFailed | .requestUnexecutable _ =>
    let e := PdaRunnerError.zkClientError ("ZKP program critical failure: " ++ occurred ++ " PLEASE REPORT!")
    (e,.failed e none)
  | .requestUnfulfillable _ =>
    let e := PdaRunnerError.zkClientError ("ZKP network failure: " ++ occurred ++ " PLEASE REPORT!")
    (e,.failed e none)
  | .requestTimedOut _ =>
    let e := PdaRunnerError.zkClientError ("ZKP network: " ++ occurred ++ " - callback to start the job over")
    (e,.failed e (some .remoteZkProofRequesting))
  | .rpcError _ | .other _ =>
    let e := PdaRunnerError.zkClientError ("ZKP network failure: " ++ occurred ++ " PLEASE REPORT!")
    (e,.failed e (some .remoteZkProofRequesting))

/-- The `map_err` on a prover's answer: an SP1NetworkError finalizes the job, any other
error is only returned. -/
def proverFailed (job : Job) : ProverError → Progress (Stage Proof) PdaRunnerError
  | .network error => .next (.finalize (handleZkClientError deps error job).2)
  | .unhandled message => .returned (.zkClientError ("Unhandled Error: " ++ message ++ " PLEASE REPORT"))

/-- The three proving functions return an error or go on to what `prove` does with
their success. -/
def zkProofLocal (job : Job) : Answer Proof → Option (Progress (Stage Proof) PdaRunnerError)
  | .panics => some .panicked
  | .setupFailed error => some (.returned error)
  | .proved _ (.error error) => some (proverFailed deps job error)
  | .proved _ (.ok proof) => some (.next (.finalize (.zkProofFinished proof)))
  | _ => none

/-- The proof setup comes before the fulfillment strategy is read from the environment,
and that before the prover is called. -/
def zkProofRemote (config : Config) (job : Job) : Answer Proof → Option (Progress (Stage Proof) PdaRunnerError)
  | .panics => some .panicked
  | .setupFailed error => some (.returned error)
  | .requested _ result =>
    match config.sp1FulfillmentStrategy with
    | none => some .panicked
    | some name =>
      if deps.isStrategyName name then
        match result with
        | .error error => some (proverFailed deps job error)
        | .ok requestId => some (.next (.updateStatus (.remoteZkProofPending requestId)))
      else some (.returned (.internalError "SP1_FULFILLMENT_STRATEGY env var malformed"))
  | _ => none

def waitForZkProof (job : Job) : Answer Proof → Option (Progress (Stage Proof) PdaRunnerError)
  | .panics => some .panicked
  | .waited (.error error) => some (proverFailed deps job error)
  | .waited (.ok proof) => some (.next (.finalize (.zkProofFinished proof)))
  | _ => none

abbrev ProveResult := Except PdaRunnerError Unit

/-- The match of `prove` on the status found in the queue. A status that no branch
handles is logged and the task ends. -/
def startingStage : JobStatus Proof → Progress (Stage Proof) ProveResult
  | .remoteZkProofRequesting => .next .remoteRequesting
  | .remoteZkProofPending requestId => .next (.remotePending requestId)
  | .localZkProofPending => .next .localPending
  | _ => .returned (.ok ())

/-- `prove` logs the error of a proving function and ends without one of its own. -/
def logError : Progress (Stage Proof) PdaRunnerError → Progress (Stage Proof) ProveResult
  | .next stage => .next stage
  | .returned _ => .returned (.ok ())
  | .panicked => .panicked

/-- A finalization that fails is the error of `prove` when it was to store a proof; the
one of a failure is made inside a proving function, whose error is only logged. -/
def finalizeFailed (e : String) : JobStatus Proof → ProveResult
  | .zkProofFinished _ => .error (.internalError e)
  | _ => .ok ()

def prove (config : Config) (job : Job) (answer : Answer Proof) (runner : PdaRunner Encoded) :
    Stage Proof → Option (PdaRunner Encoded × Progress (Stage Proof) ProveResult)
  | .readQueue =>
    match answer with
    | .storage (some e) => some (runner,.returned (.error (.internalError e)))
    | .storage none =>
      match runner.queueDb.lookup (deps.jobKey job) with
      | none => some (runner,.returned (.ok ()))
      | some queueData =>
        match deps.statusCodec.deserialize queueData with
        | .error e => some (runner,.returned (.error (.internalError e)))
        | .ok jobStatus => some (runner,startingStage jobStatus)
    | _ => none
  | .remoteRequesting => (zkProofRemote deps config job answer).map (runner,logError ·)
  | .remotePending _ => (waitForZkProof deps job answer).map (runner,logError ·)
  | .localPending => (zkProofLocal deps job answer).map (runner,logError ·)
  | .finalize jobStatus =>
    match answer with
    | .storage (some e) => some (runner,.returned (finalizeFailed e jobStatus))
    | .storage none => some (runner.moveToFinished deps (deps.jobKey job) jobStatus,.returned (.ok ()))
    | _ => none
  | .updateStatus jobStatus =>
    match answer with
    | .storage (some e) => some (runner,.returned (.error (.internalError e)))
    | .storage none => some (runner.moveToQueue deps (deps.jobKey job) jobStatus,.next .sendBack)
    | _ => none
  | .sendBack =>
    match answer with
    | .storage (some e) => some (runner,.returned (.error (.internalError e)))
    | .storage none => some (runner.send (some job),.returned (.ok ()))
    | _ => none

end PdaProxy
