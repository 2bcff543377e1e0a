import PdaProxy.Semantics.Serialization

/-! Jobs, their statuses and the runner's errors, with the texts that the derived and
hand-written formatting of the source produces. -/
namespace PdaProxy
open PdaProxy.Semantics.Serialization

abbrev SuccNetJobId := Block 32

structure Input where
  data : Bytes
deriving DecidableEq

structure Anchor where
  data : Bytes
deriving DecidableEq

structure Job where
  anchor : Anchor
  input : Input
deriving DecidableEq

inductive PdaRunnerError
  | internalError (message : String)
  | zkClientError (message : String)
  | daClientError (message : String)
  | invalidParameter (message : String)
deriving DecidableEq

/-- The job state machine. A failure carries the status to retry with, if there is one. -/
inductive JobStatus (Proof : Type)
  | localZkProofPending
  | remoteZkProofRequesting
  | remoteZkProofPending (requestId : SuccNetJobId)
  | zkProofFinished (proof : Proof)
  | failed (error : PdaRunnerError) (retryStatus : Option (JobStatus Proof))

inductive SP1NetworkError
  | simulationFailed
  | requestUnexecutable (requestId : Bytes)
  | requestUnfulfillable (requestId : Bytes)
  | requestTimedOut (requestId : Bytes)
  | rpcError (status : String)
  | other (error : String)
deriving DecidableEq

/-- What a prover call can fail with: an error that downcasts to `SP1NetworkError`,
or any other error with its text. -/
inductive ProverError
  | network (error : SP1NetworkError)
  | unhandled (message : String)
deriving DecidableEq

def PdaRunnerError.display : PdaRunnerError → String
  | .internalError s => "Service: " ++ s
  | .zkClientError s => "ZK Prover: " ++ s
  | .daClientError s => "Data Availability Node: " ++ s
  | .invalidParameter s => "Invalid parameter: " ++ s

def PdaRunnerError.debug : PdaRunnerError → String
  | .internalError s => "InternalError(" ++ s ++ ")"
  | .zkClientError s => "ZkClientError(" ++ s ++ ")"
  | .daClientError s => "DaClientError(" ++ s ++ ")"
  | .invalidParameter s => "InvalidParameter(" ++ s ++ ")"

def hexDigit (n : Nat) : Char := if n < 10 then Char.ofNat (48 + n) else Char.ofNat (87 + n)

def bytesToHex (bytes : Bytes) : String :=
  String.ofList (bytes.flatMap fun b => [hexDigit (b.toNat / 16),hexDigit (b.toNat % 16)])

def Anchor.debug (anchor : Anchor) : String :=
  "Anchor \x7b data (hex): \"" ++ bytesToHex anchor.data ++ "\" \x7d"

def Input.debug (input : Input) : String :=
  "Input \x7b data: [" ++ ", ".intercalate (input.data.map fun b => toString b.toNat) ++ "] \x7d"

def Job.debug (job : Job) : String :=
  "Job \x7b anchor: " ++ job.anchor.debug ++ ", input: " ++ job.input.debug ++ " \x7d"

example : (Job.mk ⟨[10,255]⟩ ⟨[1,2]⟩).debug =
    "Job \x7b anchor: Anchor \x7b data (hex): \"0aff\" \x7d, input: Input \x7b data: [1, 2] \x7d \x7d" := by decide

end PdaProxy
