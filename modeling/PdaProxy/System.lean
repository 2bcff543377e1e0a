import PdaProxy.Handler
import PdaProxy.Semantics.Transition
import Mathlib.Data.List.Sort

/-! The running service: any number of requests inside `inbound_handler`, the worker and
its `prove` tasks over one `PdaRunner`, the prover network beside them, and the ends and
starts of the process. One action is one step of one of them, so every interleaving of
their database and channel operations is a run. -/
namespace PdaProxy
open PdaProxy.Semantics.Serialization PdaProxy.Semantics.Transition

/-- The worker's loop runs, has ended, or there is no process. -/
inductive Process
  | running
  | stopping
  | stopped
deriving DecidableEq

structure RequestThread (Proof Body : Type) where
  submission : Submission Body
  call : Call Proof

structure ProveTask (Proof : Type) where
  job : Job
  stage : Stage Proof

structure ProofRequest where
  requestId : SuccNetJobId
  elf : Bytes
  stdin : List Bytes
deriving DecidableEq

/-- What the prover network was given to read, and what it promised to prove. -/
structure Network where
  received : List (List Bytes)
  accepted : List ProofRequest

structure Answered (Proof : Type) where
  config : Config
  job : Job
  result : CallResult Proof
deriving DecidableEq

/-- `answered` and `served` record what the calls and the handler have returned so far. -/
structure State (Proof Encoded Body : Type) where
  config : Config
  process : Process
  runner : PdaRunner Encoded
  requests : List (RequestThread Proof Body)
  tasks : List (ProveTask Proof)
  network : Network
  answered : List (Answered Proof)
  served : List (IncomingRequest Body × InboundResult Body)

inductive Action (Proof Body : Type)
  | receive (req : IncomingRequest Body)
  | request (i : Nat) (fault : Fault)
  | recv
  | task (i : Nat) (answer : Answer Proof)
  | shutdown
  | exit
  | crash (lost : Nat)
  | restart (config : Config)

variable {Proof Encoded Body : Type} (deps : Dependencies Proof Encoded Body)

/-- What a task's step shows the network: a remote request with a usable strategy hands it
the guest's input, and an answer with an ID is its promise. -/
def Network.observe (network : Network) (config : Config) (job : Job) :
    Stage Proof → Answer Proof → Network
  | .remoteRequesting, .requested nonce result =>
    let stdin := proverStdin config nonce job
    if (config.sp1FulfillmentStrategy.map deps.isStrategyName).getD false then
      { received := network.received ++ [stdin]
        accepted := match result with
          | .ok requestId => network.accepted ++ [⟨requestId,config.chachaElf,stdin⟩]
          | .error _ => network.accepted }
    else network
  | _, _ => network

/-- One turn of the startup loop over `queue_db`: a key that is no job panics, and only
two of the statuses are sent on. -/
def restartEntry (entry : Bytes × Encoded) : Except String (List Job) :=
  match deps.deserializeJob entry.1 with
  | .error e => .error e
  | .ok job =>
    match deps.statusCodec.deserialize entry.2 with
    | .ok .localZkProofPending | .ok (.remoteZkProofPending _) => .ok [job]
    | _ => .ok []

def restartUnfinishedJobs : List (Bytes × Encoded) → Except String (List Job)
  | [] => .ok []
  | entry :: rest => do
    let sent ← restartEntry deps entry
    let others ← restartUnfinishedJobs rest
    return sent ++ others

/-- The entries of a tree in the order of their keys. -/
def SledTree.iter (tree : SledTree Encoded) : List (Bytes × Encoded) :=
  (tree.entries.map fun entry => (entry.1,entry.2)).insertionSort fun first second => first.1 ≤ second.1

namespace State

def initial (config : Config) : State Proof Encoded Body :=
  ⟨config,.running,.empty,[],[],⟨[],[]⟩,[],[]⟩

/-- `inbound_handler` has come to a call or to its end. -/
def deliver (s : State Proof Encoded Body) (origin : IncomingRequest Body) :
    Inbound Body → State Proof Encoded Body
  | .done result => { s with served := s.served ++ [(origin,result)] }
  | .encrypt submission => { s with requests := s.requests ++ [⟨submission,.readFinished⟩] }

/-- The end of the process: the trees are left as they can be found on disk, and everything in
memory is gone. -/
def stop (s : State Proof Encoded Body) (found : SledTree Encoded × SledTree Encoded) : State Proof Encoded Body :=
  { s with process := .stopped, runner := ⟨found.1,found.2,[],[]⟩, requests := [], tasks := [] }

def requestStep (s : State Proof Encoded Body) (i : Nat) (thread : RequestThread Proof Body)
    (fault : Fault) : State Proof Encoded Body :=
  let job := thread.submission.job deps
  let (runner,progress) := getVerifiableEncryption deps s.config job fault s.runner thread.call
  match progress with
  | .next call => { s with runner, requests := s.requests.set i { thread with call } }
  | .panicked => { s with runner, requests := s.requests.eraseIdx i }
  | .returned result =>
    deliver { s with
      runner
      requests := s.requests.eraseIdx i
      answered := s.answered ++ [⟨s.config,job,result⟩] }
      thread.submission.origin (thread.submission.resume deps result)

def taskStep (s : State Proof Encoded Body) (i : Nat) (task : ProveTask Proof) (answer : Answer Proof) :
    Option (State Proof Encoded Body) :=
  match prove deps s.config task.job answer s.runner task.stage with
  | none => none
  | some (runner,progress) =>
    let network := s.network.observe deps s.config task.job task.stage answer
    match progress with
    | .next stage => some { s with runner, network, tasks := s.tasks.set i { task with stage } }
    | .returned _ | .panicked => some { s with runner, network, tasks := s.tasks.eraseIdx i }

def workerStep (s : State Proof Encoded Body) : Option (State Proof Encoded Body) :=
  match s.process,s.runner.channel with
  | .running,some job :: rest =>
    some { s with runner := { s.runner with channel := rest }, tasks := s.tasks ++ [⟨job,.readQueue⟩] }
  | .running,none :: rest => some { s with process := .stopping, runner := { s.runner with channel := rest } }
  | _,_ => none

/-- `main` up to its accept loop. A panic there ends the process before it serves anything. -/
def restartStep (s : State Proof Encoded Body) (config : Config) : State Proof Encoded Body :=
  match restartUnfinishedJobs deps s.runner.queueDb.iter with
  | .error _ => s
  | .ok jobs => { s with config, process := .running, runner := { s.runner with channel := jobs.map some } }

/-- The worker flushes both trees before it exits; a crash loses the latest writes of those
that are not on disk, none of them or any number. -/
def step (s : State Proof Encoded Body) : Action Proof Body → Option (State Proof Encoded Body)
  | .receive req => if s.process = .stopped then none else some (s.deliver req (inboundHandler deps req))
  | .request i fault => s.requests[i]?.map (s.requestStep deps i · fault)
  | .recv => s.workerStep
  | .task i answer => s.tasks[i]?.bind (s.taskStep deps i · answer)
  | .shutdown => if s.process = .stopped then none else some { s with runner := s.runner.send none }
  | .exit => if s.process = .stopping then some (s.stop (s.runner.queueDb,s.runner.finishedDb)) else none
  | .crash lost => if s.process = .stopped then none else s.runner.contents[lost]?.map s.stop
  | .restart config => if s.process = .stopped then some (s.restartStep deps config) else none

end State

namespace Tabulated

def localConfig : Config := ⟨zeroKey,[0],some "cpu",none⟩

def networkConfig : Config := ⟨zeroKey,[0],some "network",some "RESERVED"⟩

def post (bodyJson : Json) : IncomingRequest Json := ⟨⟨"POST","/",[]⟩,.ok bodyJson⟩

def plainKey : Bytes := dependencies.jobKey (dependencies.jobOf [1,2,3])

def run (config : Config) (actions : List (Action Bytes Json)) : State Bytes (JobStatus Bytes) Json :=
  final (State.step dependencies) (.initial config) actions

theorem run_eq (config : Config) (actions : List (Action Bytes Json)) :
    run config actions = final (State.step quick) (.initial config) actions := by
  rw [run,dependencies_eq]

theorem run_reaches {guard : State Bytes (JobStatus Bytes) Json → Action Bytes Json → Prop} (config : Config)
    (actions : List (Action Bytes Json)) (executes : Executes (State.step quick) guard (.initial config) actions) :
    Reaches (State.step dependencies) guard (.initial config) (run config actions) := by
  rw [← dependencies_eq] at executes
  exact final_reaches _ actions executes

def plainProof (key : Block KEY_LEN) (nonce : Block NONCE_LEN) : Bytes :=
  (guestMain sha256 dependencies.cipher [key.toList,nonce.toList,[1,2,3]]).toOption.getD []

def plainRequest : IncomingRequest Json := post (call "blob.Submit" [plainBlob])

def receivePlain : Action Bytes Json := .receive plainRequest

/-- One client's submission up to where its job is sent. -/
def submitPlain (i : Nat) : List (Action Bytes Json) :=
  [receivePlain,.request i none,.request i none,.request i none,
    .request i none]

/-- The worker takes the plaintext blob's job and stores its proof. -/
def provePlain (key : Block KEY_LEN) (nonce : Block NONCE_LEN) : List (Action Bytes Json) :=
  [.recv,.task 0 (.storage none),.task 0 (.proved nonce (.ok (plainProof key nonce))),.task 0 (.storage none)]

/-- A client comes back for its blob after the proof is made, and the proof is forwarded. -/
def returnPlain : List (Action Bytes Json) :=
  submitPlain 0 ++ provePlain zeroKey zeroNonce ++ [receivePlain,.request 0 none]

def forwardedPlain : Request Json :=
  forward dependencies plainRequest
    (call "blob.Submit" [blobToValue ⟨List.replicate 29 0,plainProof zeroKey zeroNonce,0,[],none,none⟩])

set_option maxRecDepth 2048 in
theorem returnPlain_served : (plainRequest,.ok (some forwardedPlain)) ∈ (run localConfig returnPlain).served := by
  rw [run_eq]
  exact List.mem_of_getElem? (i := 1) rfl

end Tabulated

end PdaProxy
