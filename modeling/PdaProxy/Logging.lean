import PdaProxy.System

/-! What the job machinery logs, at every level. A message belongs to the step after whose
operation, or on whose way to it, it is written; a failure of a proving function is logged by
`prove` once it is finalized. -/
namespace PdaProxy
open PdaProxy.Semantics.Serialization

inductive Level
  | error
  | warn
  | info
  | debug
deriving DecidableEq

structure LogMessage where
  level : Level
  text : String
deriving DecidableEq

def JobStatus.debug {Proof : Type} : JobStatus Proof → String
  | .localZkProofPending => "LocalZkProofPending"
  | .remoteZkProofRequesting => "RemoteZkProofRequesting"
  | .remoteZkProofPending _ => "RemoteZkProofPending"
  | .zkProofFinished _ => "ZkProofFinished"
  | .failed _ _ => "Failed"

/-- What a step reports that is not about its job: what is logged while the clients, the
program ID and the proof setup are made, once for all jobs; whether a prover that panics had
been started; and the `Debug` form of an error that is no `SP1NetworkError`. -/
structure Reports where
  prepared : List LogMessage
  started : Bool
  unhandled : String
deriving DecidableEq

variable {Proof Encoded Body : Type} (deps : Dependencies Proof Encoded Body)

def keyed (job : Job) (text : String) : String := "0x" ++ bytesToHex (deps.jobKey job) ++ " - " ++ text

def sendingBack (job : Job) (updateStatus : JobStatus Proof) : LogMessage :=
  ⟨.debug,"Sending job 0x" ++ bytesToHex (deps.jobKey job) ++ " back with updated status: " ++ updateStatus.debug⟩

def unknownProver {Proof : Type} (config : Config) : List LogMessage :=
  match (initialStatus config : Progress (JobStatus Proof) PdaRunnerError) with
  | .returned (.internalError e) => [⟨.error,e⟩]
  | _ => []

def getVerifiableEncryptionLog (config : Config) (job : Job) (fault : Fault) (runner : PdaRunner Encoded) :
    Call Proof → List LogMessage
  | .readFinished =>
    ⟨.info,keyed deps job "Received request"⟩ ::
    match fault with
    | some _ => []
    | none =>
      match runner.finishedDb.lookup (deps.jobKey job) with
      | none => []
      | some proofData =>
        match deps.statusCodec.deserialize proofData with
        | .error _ => []
        | .ok (.zkProofFinished _) => [⟨.debug,"Job finished, returning proof from DB"⟩]
        | .ok (.failed _ none) => [⟨.warn,"Job is PERMANENT FAILURE, returning status"⟩]
        | .ok (.failed _ (some _)) => [⟨.warn,"Job is Retry-able Failure, returning status & retrying"⟩]
        | .ok _ => [⟨.error,"PLEASE REPORT! Finished DB is in invalid state"⟩]
  | .retryTransaction _ retryStatus => [sendingBack deps job retryStatus]
  | .readQueue =>
    match fault with
    | some _ => []
    | none =>
      match runner.queueDb.lookup (deps.jobKey job) with
      | none => ⟨.info,keyed deps job "New job sending to worker and adding to queue"⟩ ::
          @unknownProver Proof config
      | some queueData =>
        ⟨.debug,"Job in pending queue"⟩ ::
        match deps.statusCodec.deserialize queueData with
        | .error _ | .ok .localZkProofPending | .ok .remoteZkProofRequesting | .ok (.remoteZkProofPending _) => []
        | .ok _ => [⟨.error,keyed deps job "Job queue is in invalid state"⟩]
  | .retrySend _ | .insert _ | .send => []

/-- The error of a proving function, as the arm of `prove` that called it logs it, and the
last message of that arm. -/
def failed (job : Job) (e : PdaRunnerError) : Stage Proof → List LogMessage
  | .remoteRequesting =>
    [⟨.error,job.debug ++ " failed to request a proof: " ++ e.display⟩,⟨.debug,"ZK proof request sent"⟩]
  | .remotePending _ =>
    [⟨.error,job.debug ++ " failed progressing RemoteZkProofPending: " ++ e.display⟩,
      ⟨.debug,"Remote ZK request fulfilled, result stored in DB"⟩]
  | _ =>
    [⟨.error,job.debug ++ " - Failed progressing LocalZkProofPending: " ++ e.display⟩,
      ⟨.debug,keyed deps job "ZKP stored in finalized DB"⟩]

def failedCall (job : Job) (arm : Stage Proof) : Option (Progress (Stage Proof) PdaRunnerError) → List LogMessage
  | some (.returned e) => failed deps job e arm
  | _ => []

def clientError (error : SP1NetworkError) : LogMessage :=
  ⟨.error,"SP1 Client error: " ++ deps.displayNetworkError error⟩

def zkProofLocalLog (job : Job) (answer : Answer Proof) (reports : Reports) : List LogMessage :=
  let starting : LogMessage := ⟨.debug,keyed deps job "Starting proof"⟩
  ⟨.debug,"Preparing local SP1 proving"⟩ :: reports.prepared ++
  (match answer with
  | .panics => if reports.started then [starting] else []
  | .proved _ (.error (.network error)) => [starting,clientError deps error]
  | .proved _ (.error (.unhandled _)) => [starting,⟨.error,"Unhandled Error: " ++ reports.unhandled⟩]
  | .proved _ (.ok _) =>
    [starting,⟨.debug,keyed deps job "Proof complete"⟩,⟨.info,keyed deps job "🎉 Finished!"⟩]
  | _ => []) ++
  failedCall deps job .localPending (zkProofLocal deps job answer)

def zkProofRemoteLog (config : Config) (job : Job) (answer : Answer Proof) (reports : Reports) : List LogMessage :=
  let starting : LogMessage := ⟨.debug,keyed deps job "Starting proof"⟩
  ⟨.debug,"Preparing local SP1 proving"⟩ :: reports.prepared ++
  (match answer with
  | .panics => if reports.started then [starting] else []
  | .requested _ result =>
    if (config.sp1FulfillmentStrategy.map deps.isStrategyName).getD false then
      match result with
      | .error (.network error) => [starting,clientError deps error]
      | .error (.unhandled _) => [starting]
      | .ok requestId => [starting,
          ⟨.debug,"0x" ++ bytesToHex requestId.toList ++ " - Proof submitted to prover network (Request ID)"⟩]
    else []
  | _ => []) ++
  failedCall deps job .remoteRequesting (zkProofRemote deps config job answer)

def waitForZkProofLog (timeout : Nat) (requestId : SuccNetJobId) (job : Job) (answer : Answer Proof)
    (reports : Reports) : List LogMessage :=
  [⟨.debug,"ZK request waiting"⟩,
    ⟨.debug,"Waiting for proof from prover network with timeout: " ++ toString timeout ++ " seconds"⟩,
    ⟨.debug,"Waiting for proof from prover network"⟩] ++ reports.prepared ++
  (match answer with
  | .waited (.error (.network error)) => [clientError deps error]
  | .waited (.error (.unhandled _)) => [⟨.error,"UNHANDLED ZK client error: " ++ reports.unhandled⟩]
  | .waited (.ok _) => [⟨.info,"🎉 " ++ job.debug ++ " Finished!"⟩]
  | _ => []) ++
  failedCall deps job (.remotePending requestId) (waitForZkProof deps job answer)

/-- What follows the finalization: of a failure, the error that the proving function then
returns, which is that of the finalization where it fails; of a proof, the end of the arm. -/
def finalizeLog (job : Job) (arm : Stage Proof) (fault : Fault) : JobStatus Proof → List LogMessage
  | .failed error _ => failed deps job (match fault with | some e => .internalError e | none => error) arm
  | _ =>
    match fault,arm with
    | none,.remotePending _ => [⟨.debug,"Remote ZK request fulfilled, result stored in DB"⟩]
    | none,_ => [⟨.debug,keyed deps job "ZKP stored in finalized DB"⟩]
    | some _,_ => []

/-- `arm` is the arm of `prove`'s match that the task is in, once it has read its status. -/
def proveLog (config : Config) (timeout : Nat) (job : Job) (arm : Stage Proof) (answer : Answer Proof)
    (reports : Reports) (runner : PdaRunner Encoded) : Stage Proof → List LogMessage
  | .readQueue =>
    ⟨.debug,"Worker received job"⟩ ::
    match answer,runner.queueDb.lookup (deps.jobKey job) with
    | .storage none,some queueData =>
      match deps.statusCodec.deserialize queueData with
      | .error _ => []
      | .ok jobStatus =>
        ⟨.debug,"Job worker processing with starting status: " ++ jobStatus.debug⟩ ::
        match startingStage jobStatus with
        | .next _ => []
        | _ => [⟨.error,"Queue has INVALID status! Finished jobs stuck in queue!"⟩]
    | _,_ => []
  | .localPending => zkProofLocalLog deps job answer reports
  | .remoteRequesting => zkProofRemoteLog deps config job answer reports
  | .remotePending requestId => waitForZkProofLog deps timeout requestId job answer reports
  | .finalize jobStatus =>
    match answer with
    | .storage fault => finalizeLog deps job arm fault jobStatus
    | _ => []
  | .updateStatus jobStatus => [sendingBack deps job jobStatus]
  | .sendBack =>
    match answer with
    | .storage none => [⟨.debug,"ZK proof request sent"⟩]
    | _ => []

def restartEntryLog (entry : Bytes × Encoded) : List LogMessage :=
  match deps.deserializeJob entry.1 with
  | .error _ => []
  | .ok job =>
    ⟨.debug,"Sending " ++ job.debug⟩ ::
    match deps.statusCodec.deserialize entry.2 with
    | .error _ | .ok .localZkProofPending | .ok (.remoteZkProofPending _) => []
    | .ok _ => [⟨.error,"Unexpected job in queue! DB is in invalid state!"⟩]

/-- The startup loop logs up to the entry that it panics on. -/
def restartLog : List (Bytes × Encoded) → List LogMessage
  | [] => []
  | entry :: rest =>
    restartEntryLog deps entry ++
    match restartEntry deps entry with
    | .error _ => []
    | .ok _ => restartLog rest

variable {deps}

section
variable {C : Type} {digit : C → Prop}

/-- Two texts that begin with digits and go on with something else begin with the same digits. -/
theorem digits_cancel {digits others : List C} {mark otherMark : C} {rest otherRest : List C}
    (all : ∀ c ∈ digits, digit c) (allOthers : ∀ c ∈ others, digit c) (ended : ¬ digit mark)
    (otherEnded : ¬ digit otherMark) (same : digits ++ mark :: rest = others ++ otherMark :: otherRest) :
    digits = others ∧ mark :: rest = otherMark :: otherRest := by
  induction digits generalizing others with
  | nil =>
    cases others with
    | nil => exact ⟨rfl,same⟩
    | cons c others =>
      obtain ⟨rfl,_⟩ := List.cons.inj same
      exact absurd (allOthers _ List.mem_cons_self) ended
  | cons c digits ih =>
    cases others with
    | nil =>
      obtain ⟨rfl,_⟩ := List.cons.inj same
      exact absurd (all _ List.mem_cons_self) otherEnded
    | cons d others =>
      obtain ⟨rfl,later⟩ := List.cons.inj same
      obtain ⟨rfl,ends⟩ := ih (fun x member => all x (List.mem_cons_of_mem _ member))
        (fun x member => allOthers x (List.mem_cons_of_mem _ member)) later
      exact ⟨rfl,ends⟩

end

def decimal (b : UInt8) : List Char := Nat.toDigits 10 b.toNat

theorem decimal_digits (b : UInt8) : ∀ c ∈ decimal b, c.isDigit = true :=
  fun _ member => Nat.isDigit_of_mem_toDigits (by decide) (by decide) member

theorem decimal_injective {a b : UInt8} (same : decimal a = decimal b) : a = b := by
  apply UInt8.toNat_inj.mp
  rw [← @Nat.ofDigitChars_ten_toDigits a.toNat,← @Nat.ofDigitChars_ten_toDigits b.toNat]
  exact congrArg (Nat.ofDigitChars 10 · 0) same

/-- The text of an input's bytes from the closing bracket or a comma on. -/
def afterByte (bytes : Bytes) (rest : List Char) : Char × List Char :=
  match bytes with
  | [] => (']',rest)
  | next :: others => (',',' ' :: ([',',' '].intercalate ((next :: others).map decimal) ++ ']' :: rest))

theorem afterByte_mark (bytes : Bytes) (rest : List Char) : ¬ (afterByte bytes rest).1.isDigit = true := by
  cases bytes <;> simp [afterByte]

theorem bytes_cons (b : UInt8) (bytes : Bytes) (rest : List Char) :
    [',',' '].intercalate ((b :: bytes).map decimal) ++ ']' :: rest =
      decimal b ++ (afterByte bytes rest).1 :: (afterByte bytes rest).2 := by
  cases bytes with
  | nil => simp [afterByte]
  | cons next others => simp [afterByte,List.intercalate_cons_cons]

theorem bytes_cancel (data other : Bytes) (rest otherRest : List Char)
    (same : [',',' '].intercalate (data.map decimal) ++ ']' :: rest =
      [',',' '].intercalate (other.map decimal) ++ ']' :: otherRest) : data = other := by
  induction data generalizing other with
  | nil =>
    cases other with
    | nil => rfl
    | cons c others =>
      rw [bytes_cons] at same
      have shifted : [] ++ ']' :: rest = decimal c ++ _ := same
      have digits := (digits_cancel (by simp) (decimal_digits c) (by decide) (afterByte_mark others otherRest) shifted).1
      exact absurd digits.symm Nat.toDigits_ne_nil
  | cons b bytes ih =>
    cases other with
    | nil =>
      rw [bytes_cons] at same
      have shifted : decimal b ++ _ = [] ++ ']' :: otherRest := same
      have digits := (digits_cancel (decimal_digits b) (by simp) (afterByte_mark bytes rest) (by decide) shifted).1
      exact absurd digits Nat.toDigits_ne_nil
    | cons c others =>
      rw [bytes_cons,bytes_cons] at same
      obtain ⟨digits,later⟩ := digits_cancel (decimal_digits b) (decimal_digits c) (afterByte_mark bytes rest)
        (afterByte_mark others otherRest) same
      obtain rfl := decimal_injective digits
      cases bytes with
      | nil =>
        cases others with
        | nil => rfl
        | cons d others => simp [afterByte] at later
      | cons a bytes =>
        cases others with
        | nil => simp [afterByte] at later
        | cons d others =>
          obtain ⟨_,ends⟩ := List.cons.inj later
          rw [ih (d :: others) (List.cons.inj ends).2]

theorem toList_append₃ (first second third : String) :
    (first ++ second ++ third).toList = first.toList ++ (second.toList ++ third.toList) := by
  rw [String.toList_append,String.toList_append,List.append_assoc]

theorem Input.debug_toList (input : Input) : input.debug.toList =
    "Input \x7b data: [".toList ++ ([',',' '].intercalate (input.data.map decimal) ++ ']' :: " \x7d".toList) := by
  have bytes : (", ".intercalate (input.data.map fun b => toString b.toNat)).toList =
      [',',' '].intercalate (input.data.map decimal) := by
    rw [String.toList_intercalate,List.map_map]
    exact congrArg _ (List.map_congr_left fun b _ => Nat.toList_repr)
  rw [← bytes]
  exact toList_append₃ _ _ _

theorem Job.debug_toList (job : Job) : job.debug.toList =
    ("Job \x7b anchor: " ++ job.anchor.debug ++ ", input: ").toList ++ (job.input.debug.toList ++ " \x7d".toList) :=
  toList_append₃ _ _ _

/-- Two jobs of one anchor have the same text, whatever follows, only where they are the same. -/
theorem Job.debug_cancel {job other : Job} (anchor : job.anchor = other.anchor) {rest otherRest : String}
    (same : job.debug ++ rest = other.debug ++ otherRest) : job = other := by
  have texts := congrArg String.toList same
  rw [String.toList_append,String.toList_append,Job.debug_toList,Job.debug_toList,anchor,Input.debug_toList,
    Input.debug_toList] at texts
  generalize ("Job \x7b anchor: " ++ other.anchor.debug ++ ", input: ").toList = start at texts
  generalize "Input \x7b data: [".toList = bracket at texts
  simp only [List.append_assoc,List.append_cancel_left_eq,List.cons_append] at texts
  obtain ⟨_,⟨data⟩⟩ := job
  obtain ⟨_,⟨otherData⟩⟩ := other
  cases anchor
  rw [bytes_cancel data otherData _ _ texts]

end PdaProxy
