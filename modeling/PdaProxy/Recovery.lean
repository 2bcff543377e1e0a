import PdaProxy.StoreInvariant

/-! The startup loop over what earlier lifetimes left in the queue. The queue's keys are
written as anchors and read back as jobs, so what the loop does with a queue is decided by
the form of the keys that any run can leave there. -/
namespace PdaProxy
open PdaProxy.Semantics.Serialization PdaProxy.Semantics.Transition

variable {Proof Encoded Body : Type} {deps : Dependencies Proof Encoded Body}

def Dependencies.HashKey (deps : Dependencies Proof Encoded Body) (key : Bytes) : Prop :=
  ∃ data, key = deps.jobKey (deps.jobOf data)

def Dependencies.Anchored (deps : Dependencies Proof Encoded Body) (job : Job) : Prop :=
  ∃ data, job = deps.jobOf data

theorem Dependencies.Anchored.key {job : Job} (anchored : deps.Anchored job) : deps.HashKey (deps.jobKey job) := by
  obtain ⟨data,rfl⟩ := anchored
  exact ⟨data,rfl⟩

/-- The input of a job is not part of its key. -/
theorem deserializeJob_hashKey {key : Bytes} (hashed : deps.HashKey key) :
    ∃ error, deps.deserializeJob key = .error error := by
  obtain ⟨data,rfl⟩ := hashed
  obtain ⟨error,ended⟩ := deps.bytesFormat.read_empty
  refine ⟨error,?_⟩
  have anchor := deps.bytesFormat.read_exact (deps.sha256 data).toList (sha256_bound data)
  rw [Dependencies.deserializeJob,Dependencies.jobKey,Dependencies.serializeAnchor,Dependencies.jobOf,anchor]
  simp only [ended]

theorem restart_panics {entry : Bytes × Encoded} (rest : List (Bytes × Encoded)) (hashed : deps.HashKey entry.1) :
    ∃ error, restartUnfinishedJobs deps (entry :: rest) = .error error := by
  obtain ⟨error,failed⟩ := deserializeJob_hashKey hashed
  refine ⟨error,?_⟩
  simp only [restartUnfinishedJobs,restartEntry,failed]
  rfl

theorem SledTree.iter_mem {tree : SledTree Encoded} {entry : Bytes × Encoded} (listed : entry ∈ tree.iter) :
    entry.1 ∈ tree := by
  obtain ⟨stored,member,rfl⟩ := List.mem_map.mp ((List.mem_insertionSort _).mp listed)
  exact AList.mem_keys.mpr (List.mem_map_of_mem member)

theorem SledTree.mem_iter {tree : SledTree Encoded} {key : Bytes} {data : Encoded}
    (found : tree.lookup key = some data) : (key,data) ∈ tree.iter :=
  (List.mem_insertionSort _).mpr (List.mem_map.mpr ⟨⟨key,data⟩,AList.mem_lookup_iff.mp found,rfl⟩)

theorem SledTree.iter_eq_nil {tree : SledTree Encoded} : tree.iter = [] ↔ tree = ∅ := by
  have sorted := List.length_insertionSort (fun first second : Bytes × Encoded => first.1 ≤ second.1)
    (tree.entries.map fun entry => (entry.1,entry.2))
  rw [← List.length_eq_zero_iff,SledTree.iter,sorted,List.length_map,List.length_eq_zero_iff]
  exact ⟨fun empty => AList.ext empty,fun empty => by rw [empty]; rfl⟩

theorem restart_ok {tree : SledTree Encoded} {jobs : List Job} (hashed : ∀ key ∈ tree, deps.HashKey key)
    (recovered : restartUnfinishedJobs deps tree.iter = .ok jobs) : tree = ∅ ∧ jobs = [] := by
  cases listed : tree.iter with
  | nil =>
    rw [listed] at recovered
    exact ⟨SledTree.iter_eq_nil.mp listed,(Except.ok.inj recovered).symm⟩
  | cons entry rest =>
    have key := hashed entry.1 (SledTree.iter_mem (by simp [listed]))
    obtain ⟨error,panicked⟩ := restart_panics rest key
    rw [listed,panicked] at recovered
    cases recovered

/-- Everything that moves through the service carries the hash of its own input. -/
def hashKeys (deps : Dependencies Proof Encoded Body) : Assertions Proof Encoded Body where
  shared _ queueDb _ := ∀ key ∈ queueDb, deps.HashKey key
  request _ _ _ := True
  task _ job _ := deps.Anchored job
  message _ job := deps.Anchored job
  served _ _ _ := True

theorem hashKey_insert {tree : SledTree Encoded} {written : Bytes} (data : Encoded)
    (hashed : ∀ key ∈ tree, deps.HashKey key) (new : deps.HashKey written) :
    ∀ key ∈ tree.insert written data, deps.HashKey key := by
  intro key member
  rcases AList.mem_insert _ |>.mp member with rfl | old
  · exact new
  · exact hashed key old

theorem CallStep.hashKeys {config : Config} {job : Job} {fault : Fault} {runner after : PdaRunner Encoded}
    {call : Call Proof} {progress : Progress (Call Proof) (CallResult Proof)} (anchored : deps.Anchored job)
    (moved : CallStep deps config job fault runner call after progress)
    (hashed : ∀ key ∈ runner.queueDb, deps.HashKey key) : ∀ key ∈ after.queueDb, deps.HashKey key := by
  cases moved with
  | retried error retryStatus => exact hashKey_insert _ hashed anchored.key
  | inserted status => exact hashKey_insert _ hashed anchored.key
  | _ => exact hashed

theorem TaskStep.hashKeys {config : Config} {job : Job} {runner after : PdaRunner Encoded}
    {stage : Stage Proof} {answer : Answer Proof} {progress : Progress (Stage Proof) ProveResult}
    (anchored : deps.Anchored job) (moved : TaskStep deps config job runner stage answer after progress)
    (hashed : ∀ key ∈ runner.queueDb, deps.HashKey key) : ∀ key ∈ after.queueDb, deps.HashKey key := by
  cases moved with
  | finalized status => exact fun key member => hashed key (AList.mem_erase.mp member).2
  | updated status => exact hashKey_insert _ hashed anchored.key
  | _ => exact hashed

theorem hashKeys_stable : (hashKeys deps).Stable deps (fun _ _ => True) (fun _ => True) where
  shared_grows _ _ hashed _ := hashed
  request_grows _ _ _ := trivial
  task_grows _ _ anchored := anchored
  message_grows _ _ anchored := anchored
  served_grows _ _ := trivial
  request_message {_ submission _} _ := ⟨submission.blob.data,rfl⟩
  task_message anchored := anchored
  message_task anchored := anchored
  receive _ _ _ := ⟨fun _ _ => trivial,fun _ _ => trivial⟩
  call _ holds _ _ _ moved := ⟨moved.hashKeys ⟨_,rfl⟩ holds.shared,trivial⟩
  answer _ holds _ _ _ moved := ⟨moved.hashKeys ⟨_,rfl⟩ holds.shared,fun _ _ => trivial,fun _ _ => trivial⟩
  work _ holds _ _ anchored moved := ⟨moved.hashKeys anchored holds.shared,fun _ _ => anchored⟩
  restart _ holds _ _ recovered := by
    refine ⟨holds.shared,?_⟩
    rw [(restart_ok holds.shared recovered).2]
    intro job member
    cases member

theorem hashKeys_reaches {guard : State Proof Encoded Body → Action Proof Body → Prop} {config : Config}
    {s : State Proof Encoded Body} (run : Reaches (State.step deps) guard (State.initial config) s) :
    (hashKeys deps).Holds s :=
  Assertions.holds_reaches hashKeys_stable (run.weaken fun _ _ _ => trivial) (fun _ _ => trivial)
    (fun key member => absurd member (AList.notMem_empty key))

/-- The startup loop finds its job in every entry of the queue. -/
def Recovers (deps : Dependencies Proof Encoded Body) (s : State Proof Encoded Body) : Prop :=
  ∃ jobs, restartUnfinishedJobs deps s.runner.queueDb.iter = .ok jobs ∧
    List.Forall₂ (fun entry job => deps.jobKey job = entry.1 ∧
      job.anchor.data = (deps.sha256 job.input.data).toList) s.runner.queueDb.iter jobs

/-- Wherever the process stops, the next one recovers the queue exactly when there is
nothing in it to recover. -/
theorem recovers_iff_empty (config : Config) (s : State Proof Encoded Body)
    (run : Reaches (State.step deps) Free (State.initial config) s) :
    Recovers deps s ↔ s.runner.queueDb = ∅ := by
  constructor
  · intro recovers
    obtain ⟨jobs,recovered,_⟩ := recovers
    exact (restart_ok (hashKeys_reaches run).shared recovered).1
  · intro empty
    refine ⟨[],?_,?_⟩ <;> rw [SledTree.iter_eq_nil.mpr empty]
    · rfl
    · exact .nil

theorem recovers_iff_empty_queued :
    let s := Tabulated.run Tabulated.localConfig (Tabulated.submitPlain 0 ++ [.shutdown,.recv,.recv,.exit])
    (Recovers Tabulated.dependencies s ↔ s.runner.queueDb = ∅) ∧ Tabulated.plainKey ∈ s.runner.queueDb :=
  ⟨recovers_iff_empty Tabulated.localConfig _ (Tabulated.run_reaches _ _ (by decide +kernel)),by decide +kernel⟩

/-- The next process panics on its key and starts no job. -/
theorem startup_panics :
    let s := Tabulated.run Tabulated.localConfig (Tabulated.submitPlain 0 ++ [.shutdown,.recv,.recv,.exit])
    Reaches (State.step Tabulated.dependencies) Free (.initial Tabulated.localConfig) s ∧
      ¬ Recovers Tabulated.dependencies s := by
  refine ⟨Tabulated.run_reaches _ _ (by decide +kernel),?_⟩
  intro recovers
  obtain ⟨jobs,recovered,_⟩ := recovers
  have panicked : restartUnfinishedJobs Tabulated.dependencies
      (Tabulated.run Tabulated.localConfig (Tabulated.submitPlain 0 ++ [.shutdown,.recv,.recv,.exit])).runner.queueDb.iter =
      .error "unexpected end of file" := by rfl
  rw [panicked] at recovered
  cases recovered

/-- Once the process has stopped with a job in its queue nothing ever happens again: every
later process panics in its startup loop and leaves the queue as it is. -/
theorem stopped_for_good_iff (deps : Dependencies Proof Encoded Body) (config : Config) (s : State Proof Encoded Body)
    (run : Reaches (State.step deps) Free (State.initial config) s) (down : s.process = .stopped) :
    (∀ t, Reaches (State.step deps) Free s t → t = s) ↔ s.runner.queueDb ≠ ∅ := by
  have holds := hashKeys_reaches run
  obtain ⟨noRequests,noTasks⟩ := holds.idle down
  constructor
  · intro stuck empty
    have recovered : restartUnfinishedJobs deps s.runner.queueDb.iter = .ok [] := by
      rw [SledTree.iter_eq_nil.mpr empty]
      rfl
    have restarted : s.step deps (.restart config) = some (s.restartStep deps config) := if_pos down
    simp only [State.restartStep,recovered] at restarted
    have same := congrArg State.process (stuck _ (.single ⟨.restart config,trivial,restarted⟩))
    rw [down] at same
    cases same
  · intro queued t later
    refine @Reaches.invariant _ _ _ _ (fun u => u = s) _ _ later (fun u action v here _ moved => ?_) rfl
    subst here
    cases step_cases moved with
    | receive _ up | shutdown up | crash _ _ up => exact absurd down up
    | callNext _ _ _ _ _ _ _ found | callReturned _ _ _ _ _ _ _ found | callPanicked _ _ _ _ _ found =>
      simp [noRequests] at found
    | taskNext _ _ _ _ _ _ _ found | taskEnded _ _ _ _ _ _ _ found => simp [noTasks] at found
    | received _ _ up | stopReceived _ up => simp [down] at up
    | exit ending => simp [down] at ending
    | restarted _ _ _ recovered => exact absurd (restart_ok holds.shared recovered).1 queued
    | restartPanicked => rfl

theorem stopped_for_good_iff_queued :
    let s := Tabulated.run Tabulated.localConfig (Tabulated.submitPlain 0 ++ [.shutdown,.recv,.recv,.exit])
    (∀ t, Reaches (State.step Tabulated.dependencies) Free s t → t = s) ↔ s.runner.queueDb ≠ ∅ :=
  stopped_for_good_iff Tabulated.dependencies Tabulated.localConfig _ (Tabulated.run_reaches _ _ (by decide +kernel)) (by rfl)

end PdaProxy
