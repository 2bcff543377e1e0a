import PdaProxy.Orphans

/-! What the calls would have to find in the trees when they write, where the code relies on
what it read before. Each condition below is one of the ledger's disciplines, and a call
that breaks one acts on a read that another call or a task has made stale. -/
namespace PdaProxy
open PdaProxy.Semantics PdaProxy.Semantics.Serialization PdaProxy.Semantics.Transition

variable {Proof Encoded Body : Type}

def JobStatus.IsTerminal : JobStatus Proof → Prop
  | .zkProofFinished _ | .failed _ none => True
  | .localZkProofPending | .remoteZkProofRequesting | .remoteZkProofPending _ | .failed _ (some _) => False

def statusAt (deps : Dependencies Proof Encoded Body) (tree : SledTree Encoded) (key : Bytes) :
    Option (JobStatus Proof) :=
  (tree.lookup key).bind fun data => (deps.statusCodec.deserialize data).toOption

def JobStatus.isRetryable : JobStatus Proof → Bool
  | .failed _ (some _) => true
  | .zkProofFinished _ | .failed _ none | .localZkProofPending | .remoteZkProofRequesting
  | .remoteZkProofPending _ => false

/-- An operation of a call that fails does nothing, and is always allowed. -/
def Action.Calls (s : State Proof Encoded Body) (allowed : RequestThread Proof Body → Prop) :
    Action Proof Body → Prop
  | .request i none => ∀ thread ∈ s.requests[i]?, allowed thread
  | .request _ (some _) | .receive _ | .recv | .task _ _ | .shutdown | .exit | .crash _ | .restart _ => True

instance (s : State Proof Encoded Body) (allowed : RequestThread Proof Body → Prop) [DecidablePred allowed] :
    ∀ action : Action Proof Body, Decidable (action.Calls s allowed)
  | .request i none => inferInstanceAs (Decidable (∀ thread ∈ s.requests[i]?, allowed thread))
  | .request _ (some _) | .receive _ | .recv | .task _ _ | .shutdown | .exit | .crash _ | .restart _ =>
    inferInstanceAs (Decidable True)

section
variable (deps : Dependencies Proof Encoded Body) (s : State Proof Encoded Body)

/-- A call that writes its key to the queue does not find it there. -/
def Reserving (thread : RequestThread Proof Body) : Prop :=
  match thread.call with
  | .insert _ | .retryTransaction _ _ => thread.key deps ∉ s.runner.queueDb
  | .readFinished | .retrySend _ | .readQueue | .send => True

/-- A call that has found no result still finds none when it goes on. -/
def Unfinished (thread : RequestThread Proof Body) : Prop :=
  match thread.call with
  | .readQueue | .insert _ => thread.key deps ∉ s.runner.finishedDb
  | .readFinished | .retryTransaction _ _ | .retrySend _ | .send => True

/-- A call inserts only an unknown key, and retries only a failure that is still stored. -/
def Current (thread : RequestThread Proof Body) : Prop :=
  match thread.call with
  | .insert _ => thread.key deps ∉ s.runner.queueDb ∧ thread.key deps ∉ s.runner.finishedDb
  | .retryTransaction _ _ =>
    ((statusAt deps s.runner.finishedDb (thread.key deps)).map JobStatus.isRetryable).getD false = true
  | .readFinished | .retrySend _ | .readQueue | .send => True

instance : DecidablePred (Reserving deps s) := fun thread =>
  match h : thread.call with
  | .insert _ | .retryTransaction _ _ => decidable_of_iff (thread.key deps ∉ s.runner.queueDb) (by rw [Reserving,h])
  | .readFinished | .retrySend _ | .readQueue | .send => isTrue (by rw [Reserving,h]; trivial)

instance : DecidablePred (Unfinished deps s) := fun thread =>
  match h : thread.call with
  | .readQueue | .insert _ => decidable_of_iff (thread.key deps ∉ s.runner.finishedDb) (by rw [Unfinished,h])
  | .readFinished | .retryTransaction _ _ | .retrySend _ | .send => isTrue (by rw [Unfinished,h]; trivial)

instance : DecidablePred (Current deps s) := fun thread =>
  match h : thread.call with
  | .insert _ => decidable_of_iff (thread.key deps ∉ s.runner.queueDb ∧ thread.key deps ∉ s.runner.finishedDb)
      (by rw [Current,h])
  | .retryTransaction _ _ => decidable_of_iff
      (((statusAt deps s.runner.finishedDb (thread.key deps)).map JobStatus.isRetryable).getD false = true)
      (by rw [Current,h])
  | .readFinished | .retrySend _ | .readQueue | .send => isTrue (by rw [Current,h]; trivial)

def workCount (key : Bytes) : Nat :=
  s.runner.channel.countP (fun message => decide (message.map deps.jobKey = some key)) +
    s.tasks.countP (fun task => decide (task.key deps = key))

end

variable {deps : Dependencies Proof Encoded Body} {s : State Proof Encoded Body}

theorem workCount_le (key : Bytes) : workCount deps s key ≤ (s.ledger deps).items.count key := by
  have sent : s.runner.channel.countP (fun message => decide (message.map deps.jobKey = some key)) =
      Multiset.count key (s.runner.channel.filterMap (·.map deps.jobKey) : List Bytes) := by
    rw [Multiset.count,Multiset.coe_countP,List.countP_filterMap]
    refine List.countP_congr fun message _ => ?_
    cases message <;> simp [eq_comm]
  have running : s.tasks.countP (fun task => decide (task.key deps = key)) =
      Multiset.count key (s.tasks.map (ProveTask.key deps) : List Bytes) := by
    rw [Multiset.count,Multiset.coe_countP,List.countP_map]
    exact List.countP_congr fun task _ => by simp [eq_comm]
  simp only [workCount,sent,running,State.ledger,workItems,Multiset.count_add]
  exact Nat.le_add_right _ _

theorem claims_of_performs {action : Action Proof Body} {operation : Ledger.Operation Bytes Encoded}
    (allowed : action.Calls s (Reserving deps s)) (performed : Performs deps s action operation) :
    (s.ledger deps).Claims operation := by
  cases performed with
  | start i thread status found inserts =>
    have reserved := allowed thread found
    rwa [Reserving,inserts] at reserved
  | retry i thread error status found retries =>
    have reserved := allowed thread found
    rwa [Reserving,retries] at reserved
  | unsent | progress | finish | lost | unqueued | exited | crashed | restarted => trivial

theorem fresh_of_performs {action : Action Proof Body} {operation : Ledger.Operation Bytes Encoded}
    (allowed : action.Calls s (Unfinished deps s)) (performed : Performs deps s action operation) :
    (s.ledger deps).Fresh operation := by
  cases performed with
  | start i thread status found inserts =>
    have unfinished := allowed thread found
    rw [Unfinished,inserts] at unfinished
    exact AList.lookup_eq_none.mpr unfinished
  | retry | unsent | progress | finish | lost | unqueued | exited | crashed | restarted => trivial

def Terminal (deps : Dependencies Proof Encoded Body) (data : Encoded) : Prop :=
  ∃ status, deps.statusCodec.deserialize data = .ok status ∧ status.IsTerminal

theorem disciplined_of_performs {action : Action Proof Body} {operation : Ledger.Operation Bytes Encoded}
    (allowed : action.Calls s (Current deps s)) (performed : Performs deps s action operation) :
    (s.ledger deps).Disciplined (Terminal deps) operation := by
  cases performed with
  | start i thread status found inserts =>
    have current := allowed thread found
    rw [Current,inserts] at current
    exact ⟨current.1,AList.lookup_eq_none.mpr current.2⟩
  | retry i thread error status found retries =>
    have current := allowed thread found
    rw [Current,retries] at current
    cases stored : s.runner.finishedDb.lookup (thread.key deps) with
    | none => simp [statusAt,stored] at current
    | some data =>
      refine ⟨data,stored,?_⟩
      intro final
      obtain ⟨status,read,terminal⟩ := final
      simp only [statusAt,stored,Option.bind_some,read,Except.toOption,Option.map_some,Option.getD_some] at current
      unfold JobStatus.isRetryable at current
      split at current
      next => exact terminal
      all_goals cases current
  | unsent | progress | finish | lost | unqueued | exited | crashed | restarted => trivial

/-- Where no call queues a key that is queued already, no key ever has two jobs or tasks. -/
theorem single_flight (config : Config) (s : State Proof Encoded Body)
    (run : Reaches (State.step deps) (fun u action => action.Calls u (Reserving deps u)) (State.initial config) s)
    (key : Bytes) : workCount deps s key ≤ 1 := by
  have single : (s.ledger deps).SingleFlight := by
    apply ledger_invariant Ledger.Claims run _ _ Ledger.singleFlight_empty
    · intro u action operation allowed performed
      exact claims_of_performs allowed performed
    · intro before operation after single claimed moved
      exact Ledger.singleFlight_step single claimed moved
  exact (workCount_le key).trans (Multiset.nodup_iff_count_le_one.mp single.unique key)

theorem single_flight_pending :
    let s := Tabulated.run Tabulated.localConfig (Tabulated.submitPlain 0 ++
      [Tabulated.receivePlain,.request 0 none,.request 0 none])
    workCount Tabulated.dependencies s Tabulated.plainKey ≤ 1 :=
  single_flight Tabulated.localConfig _ (Tabulated.run_reaches _ _ (by decide +kernel)) _

/-- Two requests that both read before either has inserted send the job twice. -/
theorem concurrent_requests_duplicate :
    let s := Tabulated.run Tabulated.localConfig
      [Tabulated.receivePlain,
        Tabulated.receivePlain,
        .request 0 none,.request 1 none,.request 0 none,.request 1 none,.request 0 none,.request 1 none,
        .request 0 none,.request 0 none]
    Reaches (State.step Tabulated.dependencies) Free (.initial Tabulated.localConfig) s ∧
      ¬ workCount Tabulated.dependencies s Tabulated.plainKey ≤ 1 :=
  ⟨Tabulated.run_reaches _ _ (by decide +kernel),by decide +kernel⟩

/-- Where no call relies on a finished read that has become stale, no key is in both trees,
and a call never goes on to insert a key that one of them holds. -/
theorem exclusive_trees (config : Config) (s : State Proof Encoded Body)
    (run : Reaches (State.step deps) (fun u action => action.Calls u (Unfinished deps u)) (State.initial config) s) :
    (∀ key, ¬ (key ∈ s.runner.queueDb ∧ key ∈ s.runner.finishedDb)) ∧
    ∀ thread ∈ s.requests, Unfinished deps s thread → s.runner.Records (thread.key deps) →
      ∀ fault status, (getVerifiableEncryption deps s.config (thread.submission.job deps) fault s.runner
        thread.call).2 ≠ .next (.insert status) := by
  have exclusive : (s.ledger deps).Exclusive := by
    apply ledger_invariant Ledger.Fresh run _ _ Ledger.exclusive_empty
    · intro u action operation allowed performed
      exact fresh_of_performs allowed performed
    · intro before operation after exclusive fresh moved
      exact Ledger.exclusive_step exclusive fresh moved
  refine ⟨fun key both => AList.lookup_eq_none.mp (exclusive.unfinished both.1) both.2,?_⟩
  intro thread _ unfinished recorded fault status inserts
  have moved := getVerifiableEncryption_step deps s.config (thread.submission.job deps) fault s.runner thread.call
  rw [inserts] at moved
  obtain ⟨submission,call⟩ := thread
  generalize getVerifiableEncryption deps s.config (submission.job deps) fault s.runner call = outcome at moved
  obtain ⟨runner,progress⟩ := outcome
  cases moved with
  | unqueued status absent chosen =>
    rcases recorded with queued | finished
    · exact AList.lookup_eq_none.mp absent queued
    · exact unfinished finished

theorem exclusive_trees_proved :
    let s := Tabulated.run Tabulated.localConfig Tabulated.returnPlain
    Tabulated.plainKey ∈ s.runner.finishedDb ∧ ∀ key, ¬ (key ∈ s.runner.queueDb ∧ key ∈ s.runner.finishedDb) :=
  ⟨by rw [Tabulated.run_eq]; decide +kernel,(exclusive_trees Tabulated.localConfig _
    (Tabulated.run_reaches _ _ (by decide +kernel))).1⟩

/-- A second request whose two reads stand on either side of the finalization queues a
proved job again. -/
theorem stale_read_requeues :
    let s := Tabulated.run Tabulated.localConfig (Tabulated.submitPlain 0 ++
      [Tabulated.receivePlain,.request 0 none] ++
      Tabulated.provePlain Tabulated.zeroKey Tabulated.zeroNonce ++ [.request 0 none,.request 0 none])
    Reaches (State.step Tabulated.dependencies) Free (.initial Tabulated.localConfig) s ∧
      Tabulated.plainKey ∈ s.runner.queueDb ∧ Tabulated.plainKey ∈ s.runner.finishedDb :=
  ⟨Tabulated.run_reaches _ _ (by decide +kernel),by rw [Tabulated.run_eq]; decide +kernel,
    by rw [Tabulated.run_eq]; decide +kernel⟩

/-- From orderly trees on, calls that act on what the trees hold keep a terminal result, until a
crash loses writes. -/
theorem terminal_kept {started : State Proof Encoded Body → Action Proof Body → Prop} {config : Config}
    {t : State Proof Encoded Body} (start : Reaches (State.step deps) started (State.initial config) s)
    (orderly : (s.ledger deps).Orderly)
    (later : Reaches (State.step deps) (fun u action => action.Calls u (Current deps u) ∧ action.Lossless) s t)
    {key : Bytes} {data : Encoded} (stored : s.runner.finishedDb.lookup key = some data) (final : Terminal deps data) :
    t.runner.finishedDb.lookup key = some data := by
  have moves := ledger_reaches (fun ledger operation => ledger.Disciplined (Terminal deps) operation ∧ operation.Lasting)
    start later fun u action operation allowed performed =>
      ⟨disciplined_of_performs allowed.1 performed,performed.lasting allowed.2⟩
  exact (Ledger.settled_reaches moves ⟨orderly,stored⟩ final).stored

/-- Where calls insert only unknown keys and retry only stored failures, a proof or a
permanent failure is what its key maps to from then on, until a crash loses writes. -/
theorem terminal_results_stable (config : Config) (s t : State Proof Encoded Body)
    (start : Reaches (State.step deps) (fun u action => action.Calls u (Current deps u)) (State.initial config) s)
    (later : Reaches (State.step deps) (fun u action => action.Calls u (Current deps u) ∧ action.Lossless) s t)
    (key : Bytes) (data : Encoded) (status : JobStatus Proof)
    (stored : s.runner.finishedDb.lookup key = some data) (read : deps.statusCodec.deserialize data = .ok status)
    (terminal : status.IsTerminal) : t.runner.finishedDb.lookup key = some data := by
  have orderly : (s.ledger deps).Orderly := by
    apply ledger_invariant (Ledger.Disciplined (Terminal deps)) start _ _ Ledger.orderly_empty
    · intro u action operation allowed performed
      exact disciplined_of_performs allowed performed
    · intro before operation after orderly disciplined moved
      exact Ledger.orderly_step orderly disciplined moved
  exact terminal_kept start orderly later stored ⟨status,read,terminal⟩

theorem terminal_results_stable_restarted :
    let s := Tabulated.run Tabulated.localConfig (Tabulated.submitPlain 0 ++
      Tabulated.provePlain Tabulated.zeroKey Tabulated.zeroNonce)
    let t := final (State.step Tabulated.dependencies) s ([.shutdown,.recv,.exit,.restart Tabulated.localConfig] ++
      [Tabulated.receivePlain,.request 0 none])
    s.runner.finishedDb.lookup Tabulated.plainKey =
        some (.zkProofFinished (Tabulated.plainProof Tabulated.zeroKey Tabulated.zeroNonce)) ∧
      t.runner.finishedDb.lookup Tabulated.plainKey =
        some (.zkProofFinished (Tabulated.plainProof Tabulated.zeroKey Tabulated.zeroNonce)) :=
  ⟨rfl,terminal_results_stable Tabulated.localConfig _ _
    (Tabulated.run_reaches _ _ (by decide +kernel))
    (final_reaches _ _ (by decide +kernel)) _ _ _ rfl rfl trivial⟩

/-- The request that queued a proved job again has it proved again: its proof is replaced. -/
theorem stale_insert_replaces_proof :
    let s := Tabulated.run Tabulated.localConfig (Tabulated.submitPlain 0 ++
      [Tabulated.receivePlain,.request 0 none] ++
      Tabulated.provePlain Tabulated.zeroKey Tabulated.zeroNonce)
    let t := final (State.step Tabulated.dependencies) s ([.request 0 none,.request 0 none,.request 0 none] ++
      Tabulated.provePlain Tabulated.zeroKey Tabulated.oneNonce)
    Reaches (State.step Tabulated.dependencies) Free (.initial Tabulated.localConfig) s ∧
      Reaches (State.step Tabulated.dependencies) Free s t ∧
      s.runner.finishedDb.lookup Tabulated.plainKey =
        some (.zkProofFinished (Tabulated.plainProof Tabulated.zeroKey Tabulated.zeroNonce)) ∧
      t.runner.finishedDb.lookup Tabulated.plainKey =
        some (.zkProofFinished (Tabulated.plainProof Tabulated.zeroKey Tabulated.oneNonce)) ∧
      Tabulated.plainProof Tabulated.zeroKey Tabulated.zeroNonce ≠
        Tabulated.plainProof Tabulated.zeroKey Tabulated.oneNonce :=
  ⟨Tabulated.run_reaches _ _ (by decide +kernel),final_reaches _ _ (by decide +kernel),rfl,rfl,
    by decide +kernel⟩

end PdaProxy
