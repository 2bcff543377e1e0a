import PdaProxy.Machine
import PdaProxy.Recovery
import PdaProxy.Semantics.Restriction

/-! The service seen at some of its jobs. Calls and tasks share two trees, a channel and the
process, but each reads and writes the trees at the key of its own job only, so what becomes of
these jobs could have become of them had nobody asked for any other. -/
namespace PdaProxy
open PdaProxy.Semantics.Serialization PdaProxy.Semantics.Transition PdaProxy.Semantics.Pool PdaProxy.Semantics.Restriction

variable {Proof Encoded Body : Type}

section
variable (deps : Dependencies Proof Encoded Body) (kept : Bytes → Bool)

/-- Calls come in for the jobs with these keys only. -/
def CallsOnly (_ : Machine Proof Encoded) : MachineAction Proof → Prop
  | .call job => kept (deps.jobKey job) = true
  | _ => True

def keepsMessage : Option Job → Bool
  | none => true
  | some job => kept (deps.jobKey job)

structure PdaRunner.Shows (runner seen : PdaRunner Encoded) : Prop where
  queueDb : Restricts kept runner.queueDb seen.queueDb
  finishedDb : Restricts kept runner.finishedDb seen.finishedDb
  unflushed : ∀ content ∈ runner.unflushed, ∃ part ∈ seen.contents,
    Restricts kept content.1 part.1 ∧ Restricts kept content.2 part.2
  channel : seen.channel = runner.channel.filter (keepsMessage deps kept)

/-- The machine has the service's process, with the entries, messages, calls, tasks and results
of these jobs and nothing of any other. -/
structure Machine.Sees (m : Machine Proof Encoded) (s : State Proof Encoded Body) : Prop where
  config : m.config = s.config
  process : m.process = s.process
  runner : s.runner.Shows deps kept m.runner
  calls : m.calls = (s.requests.map (RequestThread.jobCall deps)).filter fun thread => kept (deps.jobKey thread.job)
  tasks : m.tasks.map ArmedTask.proveTask = s.tasks.filter fun task => kept (deps.jobKey task.job)
  returned : m.returned = (s.answered.filter fun answer => kept (deps.jobKey answer.job)).map Answered.result

end

variable {deps : Dependencies Proof Encoded Body} {kept : Bytes → Bool}

section
variable {config : Config} {job : Job} {runner seen after : PdaRunner Encoded}

theorem PdaRunner.Shows.contents (shows : runner.Shows deps kept seen) : ∀ content ∈ runner.contents,
    ∃ part ∈ seen.contents, Restricts kept content.1 part.1 ∧ Restricts kept content.2 part.2 :=
  List.forall_mem_cons.mpr ⟨⟨_,List.mem_cons_self,shows.queueDb,shows.finishedDb⟩,shows.unflushed⟩

/-- What can be found after a crash still can when both have written. -/
theorem PdaRunner.Shows.written (shows : runner.Shows deps kept seen) (now : SledTree Encoded × SledTree Encoded) :
    ∀ content ∈ runner.contents, ∃ part ∈ now :: seen.contents,
      Restricts kept content.1 part.1 ∧ Restricts kept content.2 part.2 := by
  intro content member
  obtain ⟨part,left,restricts⟩ := shows.contents content member
  exact ⟨part,List.mem_cons_of_mem _ left,restricts⟩

theorem PdaRunner.Shows.send (shows : runner.Shows deps kept seen) (inside : kept (deps.jobKey job) = true) :
    (runner.send (some job)).Shows deps kept (seen.send (some job)) := by
  refine ⟨shows.queueDb,shows.finishedDb,shows.unflushed,?_⟩
  simp [PdaRunner.send,shows.channel,keepsMessage,inside]

theorem PdaRunner.Shows.moveToQueue (shows : runner.Shows deps kept seen) {key : Bytes} (inside : kept key = true)
    (status : JobStatus Proof) : (runner.moveToQueue deps key status).Shows deps kept (seen.moveToQueue deps key status) :=
  ⟨shows.queueDb.insert_inside inside _,shows.finishedDb.erase,shows.written _,shows.channel⟩

theorem PdaRunner.Shows.moveToFinished (shows : runner.Shows deps kept seen) {key : Bytes} (inside : kept key = true)
    (status : JobStatus Proof) :
    (runner.moveToFinished deps key status).Shows deps kept (seen.moveToFinished deps key status) :=
  ⟨shows.queueDb.erase,shows.finishedDb.insert_inside inside _,shows.written _,shows.channel⟩

theorem PdaRunner.Shows.insertQueue (shows : runner.Shows deps kept seen) {key : Bytes} (inside : kept key = true)
    (status : JobStatus Proof) : (runner.insertQueue deps key status).Shows deps kept (seen.insertQueue deps key status) :=
  ⟨shows.queueDb.insert_inside inside _,shows.finishedDb,shows.written _,shows.channel⟩

theorem PdaRunner.Shows.send_other (shows : runner.Shows deps kept seen) (outside : kept (deps.jobKey job) = false) :
    (runner.send (some job)).Shows deps kept seen := by
  refine ⟨shows.queueDb,shows.finishedDb,shows.unflushed,?_⟩
  simp [PdaRunner.send,shows.channel,keepsMessage,outside]

theorem PdaRunner.Shows.moveToQueue_other (shows : runner.Shows deps kept seen) {key : Bytes} (outside : kept key = false)
    (status : JobStatus Proof) : (runner.moveToQueue deps key status).Shows deps kept seen :=
  ⟨shows.queueDb.insert_outside outside _,shows.finishedDb.erase_outside outside,shows.contents,shows.channel⟩

theorem PdaRunner.Shows.moveToFinished_other (shows : runner.Shows deps kept seen) {key : Bytes} (outside : kept key = false)
    (status : JobStatus Proof) : (runner.moveToFinished deps key status).Shows deps kept seen :=
  ⟨shows.queueDb.erase_outside outside,shows.finishedDb.insert_outside outside _,shows.contents,shows.channel⟩

theorem PdaRunner.Shows.insertQueue_other (shows : runner.Shows deps kept seen) {key : Bytes} (outside : kept key = false)
    (status : JobStatus Proof) : (runner.insertQueue deps key status).Shows deps kept seen :=
  ⟨shows.queueDb.insert_outside outside _,shows.finishedDb,shows.contents,shows.channel⟩

theorem CallStep.unseen {fault : Fault} {call : Call Proof} {progress : Progress (Call Proof) (CallResult Proof)}
    (shows : runner.Shows deps kept seen) (outside : kept (deps.jobKey job) = false)
    (moved : CallStep deps config job fault runner call after progress) : after.Shows deps kept seen := by
  cases moved with
  | retried error retryStatus => exact shows.moveToQueue_other outside _
  | resent | sent => exact shows.send_other outside
  | inserted status => exact shows.insertQueue_other outside _
  | _ => exact shows

theorem TaskStep.unseen {stage : Stage Proof} {answer : Answer Proof} {progress : Progress (Stage Proof) ProveResult}
    (shows : runner.Shows deps kept seen) (outside : kept (deps.jobKey job) = false)
    (moved : TaskStep deps config job runner stage answer after progress) : after.Shows deps kept seen := by
  cases moved with
  | finalized status => exact shows.moveToFinished_other outside _
  | updated status => exact shows.moveToQueue_other outside _
  | sentBack => exact shows.send_other outside
  | _ => exact shows

/-- A call reads nothing but the entries at the key of its job. -/
theorem getVerifiableEncryption_seen (shows : runner.Shows deps kept seen) (inside : kept (deps.jobKey job) = true)
    {fault : Fault} {call : Call Proof} {progress : Progress (Call Proof) (CallResult Proof)}
    (made : getVerifiableEncryption deps config job fault runner call = (after,progress)) :
    ∃ other, getVerifiableEncryption deps config job fault seen call = (other,progress) ∧ after.Shows deps kept other := by
  obtain rfl : (getVerifiableEncryption deps config job fault runner call).1 = after := congrArg Prod.fst made
  obtain rfl : (getVerifiableEncryption deps config job fault runner call).2 = progress := congrArg Prod.snd made
  clear made
  cases fault with
  | some e => cases call <;> exact ⟨seen,rfl,shows⟩
  | none =>
    cases call with
    | readFinished =>
      simp only [getVerifiableEncryption,shows.finishedDb.lookup inside]
      split
      next => exact ⟨seen,rfl,shows⟩
      next => split <;> exact ⟨seen,rfl,shows⟩
    | readQueue =>
      simp only [getVerifiableEncryption,shows.queueDb.lookup inside]
      split
      next => split <;> exact ⟨seen,rfl,shows⟩
      next => split <;> exact ⟨seen,rfl,shows⟩
    | retryTransaction error retryStatus => exact ⟨_,rfl,shows.moveToQueue inside retryStatus⟩
    | retrySend error => exact ⟨_,rfl,shows.send inside⟩
    | insert status => exact ⟨_,rfl,shows.insertQueue inside status⟩
    | send => exact ⟨_,rfl,shows.send inside⟩

theorem prove_seen (shows : runner.Shows deps kept seen) (inside : kept (deps.jobKey job) = true) {answer : Answer Proof}
    {stage : Stage Proof} {progress : Progress (Stage Proof) ProveResult}
    (made : prove deps config job answer runner stage = some (after,progress)) :
    ∃ other, prove deps config job answer seen stage = some (other,progress) ∧ after.Shows deps kept other := by
  -- A prover is asked with the shared state left as it is.
  have asked {call : Option (Progress (Stage Proof) PdaRunnerError)}
      (answered : call.map (runner,logError ·) = some (after,progress)) :
      ∃ other, call.map (seen,logError ·) = some (other,progress) ∧ after.Shows deps kept other := by
    obtain ⟨result,rfl,same⟩ := Option.map_eq_some_iff.mp answered
    cases same
    exact ⟨seen,rfl,shows⟩
  cases stage with
  | remoteRequesting | remotePending | localPending => exact asked made
  | readQueue =>
    simp only [prove,shows.queueDb.lookup inside] at made ⊢
    split at made
    next => cases made; exact ⟨seen,rfl,shows⟩
    next =>
      split at made
      next => cases made; exact ⟨seen,rfl,shows⟩
      next =>
        split at made
        next => cases made; exact ⟨seen,rfl,shows⟩
        next => cases made; exact ⟨seen,rfl,shows⟩
    next => cases made
  | finalize status =>
    simp only [prove] at made ⊢
    split at made
    next => cases made; exact ⟨seen,rfl,shows⟩
    next => cases made; exact ⟨_,rfl,shows.moveToFinished inside status⟩
    next => cases made
  | updateStatus status =>
    simp only [prove] at made ⊢
    split at made
    next => cases made; exact ⟨seen,rfl,shows⟩
    next => cases made; exact ⟨_,rfl,shows.moveToQueue inside status⟩
    next => cases made
  | sendBack =>
    simp only [prove] at made ⊢
    split at made
    next => cases made; exact ⟨seen,rfl,shows⟩
    next => cases made; exact ⟨_,rfl,shows.send inside⟩
    next => cases made

end

section
variable {m : Machine Proof Encoded} {s t : State Proof Encoded Body}

theorem Machine.Sees.deliver (sees : m.Sees deps kept s) (up : s.process ≠ .stopped) (origin : IncomingRequest Body)
    (inbound : Inbound Body) :
    ∃ n, Reaches (Machine.step deps) (CallsOnly deps kept) m n ∧ n.Sees deps kept (s.deliver origin inbound) := by
  cases inbound with
  | done result => exact ⟨m,.refl,sees.config,sees.process,sees.runner,sees.calls,sees.tasks,sees.returned⟩
  | encrypt submission =>
    cases inside : kept (deps.jobKey (submission.job deps)) with
    | false =>
      refine ⟨m,.refl,sees.config,sees.process,sees.runner,?_,sees.tasks,sees.returned⟩
      simp [State.deliver,sees.calls,RequestThread.jobCall,inside]
    | true =>
      have running : m.process ≠ .stopped := sees.process ▸ up
      refine ⟨_,.single ⟨.call (submission.job deps),inside,if_neg running⟩,sees.config,sees.process,sees.runner,?_,sees.tasks,
        sees.returned⟩
      simp [State.deliver,sees.calls,RequestThread.jobCall,inside]

theorem Machine.Sees.request_other (sees : m.Sees deps kept s) (up : s.process ≠ .stopped) {i : Nat} (fault : Fault)
    {thread : RequestThread Proof Body} (found : s.requests[i]? = some thread)
    (outside : kept (deps.jobKey (thread.submission.job deps)) = false) :
    ∃ n, Reaches (Machine.step deps) (CallsOnly deps kept) m n ∧ n.Sees deps kept (s.requestStep deps i thread fault) := by
  obtain ⟨before,after,pool,replaced,removed⟩ := split_at found
  have unseen := (getVerifiableEncryption_step deps s.config (thread.submission.job deps) fault s.runner thread.call).unseen
    sees.runner outside
  have calls := sees.calls
  simp only [pool,List.map_append,List.map_cons,List.filter_append] at calls
  rw [List.filter_cons_of_neg (by simp [RequestThread.jobCall,outside])] at calls
  simp only [State.requestStep]
  cases ended : getVerifiableEncryption deps s.config (thread.submission.job deps) fault s.runner thread.call with
  | mk runner progress =>
    rw [ended] at unseen
    cases progress with
    | next call =>
      refine ⟨m,.refl,sees.config,sees.process,unseen,?_,sees.tasks,sees.returned⟩
      simp only [replaced,List.map_append,List.map_cons,List.filter_append]
      rw [List.filter_cons_of_neg (by simp [RequestThread.jobCall,outside])]
      exact calls
    | panicked =>
      refine ⟨m,.refl,sees.config,sees.process,unseen,?_,sees.tasks,sees.returned⟩
      simp only [removed,List.map_append,List.filter_append]
      exact calls
    | returned result =>
      have answered : m.Sees deps kept { s with
          runner
          requests := s.requests.eraseIdx i
          answered := s.answered ++ [⟨s.config,thread.submission.job deps,result⟩] } := by
        refine ⟨sees.config,sees.process,unseen,?_,sees.tasks,?_⟩
        · simp only [removed,List.map_append,List.filter_append]
          exact calls
        · simp [sees.returned,outside]
      exact answered.deliver up thread.submission.origin (thread.submission.resume deps result)

theorem Machine.Sees.request (sees : m.Sees deps kept s) (up : s.process ≠ .stopped) {i : Nat} (fault : Fault)
    {thread : RequestThread Proof Body} (found : s.requests[i]? = some thread)
    (inside : kept (deps.jobKey (thread.submission.job deps)) = true) :
    ∃ n, Reaches (Machine.step deps) (CallsOnly deps kept) m n ∧ n.Sees deps kept (s.requestStep deps i thread fault) := by
  obtain ⟨before,after,pool,replaced,removed⟩ := split_at found
  let earlier := (before.map (RequestThread.jobCall deps)).filter fun thread => kept (deps.jobKey thread.job)
  let later := (after.map (RequestThread.jobCall deps)).filter fun thread => kept (deps.jobKey thread.job)
  have filtered (other : RequestThread Proof Body) (same : other.submission = thread.submission) :
      ((before ++ other :: after).map (RequestThread.jobCall deps)).filter (fun thread => kept (deps.jobKey thread.job)) =
        earlier ++ other.jobCall deps :: later := by
    simp only [List.map_append,List.map_cons,List.filter_append]
    rw [List.filter_cons_of_pos (by simp [RequestThread.jobCall,same,inside])]
  have calls : m.calls = earlier ++ thread.jobCall deps :: later := by rw [sees.calls,pool,filtered thread rfl]
  have moved : m.step deps (.operation earlier.length fault) =
      some (m.callStep deps earlier.length (thread.jobCall deps) fault) := by
    simp [Machine.step,calls]
  have advanced : Reaches (Machine.step deps) (CallsOnly deps kept) m
      (m.callStep deps earlier.length (thread.jobCall deps) fault) :=
    .single ⟨.operation earlier.length fault,trivial,moved⟩
  simp only [State.requestStep]
  cases ended : getVerifiableEncryption deps s.config (thread.submission.job deps) fault s.runner thread.call with
  | mk shared progress =>
    rw [← sees.config] at ended
    obtain ⟨runner,outcome,shows⟩ := getVerifiableEncryption_seen sees.runner inside ended
    have here : getVerifiableEncryption deps m.config (thread.jobCall deps).job fault m.runner (thread.jobCall deps).call =
        (runner,progress) := outcome
    cases progress with
    | next call =>
      simp only [Machine.callStep,here] at advanced
      refine ⟨_,advanced,sees.config,sees.process,shows,?_,sees.tasks,sees.returned⟩
      simp only [replaced,filtered { thread with call } rfl,calls]
      exact (at_split earlier later _ _).2.1
    | panicked =>
      simp only [Machine.callStep,here] at advanced
      refine ⟨_,advanced,sees.config,sees.process,shows,?_,sees.tasks,sees.returned⟩
      simp only [removed,List.map_append,List.filter_append,calls]
      exact (at_split earlier later _ (thread.jobCall deps)).2.2
    | returned result =>
      simp only [Machine.callStep,here] at advanced
      have answered : Machine.Sees deps kept { m with
          runner
          log := m.log ++ getVerifiableEncryptionLog deps m.config (thread.jobCall deps).job fault m.runner
            (thread.jobCall deps).call
          calls := m.calls.eraseIdx earlier.length
          returned := m.returned ++ [result] } { s with
          runner := shared
          requests := s.requests.eraseIdx i
          answered := s.answered ++ [⟨s.config,thread.submission.job deps,result⟩] } := by
        refine ⟨sees.config,sees.process,shows,?_,sees.tasks,?_⟩
        · simp only [removed,List.map_append,List.filter_append,calls]
          exact (at_split earlier later _ (thread.jobCall deps)).2.2
        · simp [sees.returned,inside]
      obtain ⟨n,on,seen⟩ := answered.deliver up thread.submission.origin (thread.submission.resume deps result)
      exact ⟨n,advanced.trans on,seen⟩

theorem Machine.Sees.task_other (sees : m.Sees deps kept s) {i : Nat} {answer : Answer Proof} {task : ProveTask Proof}
    (found : s.tasks[i]? = some task) (outside : kept (deps.jobKey task.job) = false)
    (moved : s.taskStep deps i task answer = some t) : m.Sees deps kept t := by
  obtain ⟨before,after,pool,replaced,removed⟩ := split_at found
  have tasks := sees.tasks
  simp only [pool,List.filter_append] at tasks
  rw [List.filter_cons_of_neg (by simp [outside])] at tasks
  unfold State.taskStep at moved
  split at moved
  next => cases moved
  next runner progress made =>
    have unseen := (prove_step made).unseen sees.runner outside
    cases progress with
    | next stage =>
      cases moved
      refine ⟨sees.config,sees.process,unseen,sees.calls,?_,sees.returned⟩
      simp only [replaced,List.filter_append]
      rw [List.filter_cons_of_neg (by simp [outside])]
      exact tasks
    | returned | panicked =>
      cases moved
      refine ⟨sees.config,sees.process,unseen,sees.calls,?_,sees.returned⟩
      simp only [removed,List.filter_append]
      exact tasks

theorem Machine.Sees.task (sees : m.Sees deps kept s) {i : Nat} {answer : Answer Proof} {task : ProveTask Proof}
    (found : s.tasks[i]? = some task) (inside : kept (deps.jobKey task.job) = true)
    (moved : s.taskStep deps i task answer = some t) :
    ∃ n, Reaches (Machine.step deps) (CallsOnly deps kept) m n ∧ n.Sees deps kept t := by
  obtain ⟨before,after,pool,replaced,removed⟩ := split_at found
  have tasks := sees.tasks
  simp only [pool,List.filter_append] at tasks
  rw [List.filter_cons_of_pos (by simp [inside])] at tasks
  obtain ⟨earlier,others,split,first,rest⟩ := List.map_eq_append_iff.mp tasks
  obtain ⟨armed,later,rfl,rfl,last⟩ := List.map_eq_cons_iff.mp rest
  let reports : Reports := ⟨[],false,""⟩
  have stepped : m.step deps (.task earlier.length answer reports) = m.taskStep deps earlier.length armed answer reports := by
    simp [Machine.step,split]
  have advanced (n : Machine Proof Encoded) (same : m.taskStep deps earlier.length armed answer reports = some n) :
      Reaches (Machine.step deps) (CallsOnly deps kept) m n :=
    .single ⟨.task earlier.length answer reports,trivial,stepped.trans same⟩
  unfold State.taskStep at moved
  split at moved
  next => cases moved
  next runner progress made =>
    rw [← sees.config] at made
    obtain ⟨shown,proved,shows⟩ := prove_seen sees.runner inside made
    have here : prove deps m.config armed.job answer m.runner armed.stage = some (shown,progress) := proved
    simp only [Machine.taskStep,here,Option.map_some] at advanced
    cases progress with
    | next stage =>
      cases moved
      refine ⟨_,advanced _ rfl,sees.config,sees.process,shows,sees.calls,?_,sees.returned⟩
      simp only [split,replaced,(at_split earlier later _ _).2.1,List.filter_append,List.map_append,List.map_cons,
        ArmedTask.goTo_proveTask]
      rw [List.filter_cons_of_pos (by simp [inside]),first,last]
    | returned | panicked =>
      cases moved
      refine ⟨_,advanced _ rfl,sees.config,sees.process,shows,sees.calls,?_,sees.returned⟩
      simp only [split,removed,(at_split earlier later armed armed).2.2,List.filter_append,List.map_append]
      rw [first,last]

theorem Machine.Sees.stop (sees : m.Sees deps kept s) {found part : SledTree Encoded × SledTree Encoded}
    (queueDb : Restricts kept found.1 part.1) (finishedDb : Restricts kept found.2 part.2) :
    (m.stop part).Sees deps kept (s.stop found) :=
  ⟨sees.config,rfl,⟨queueDb,finishedDb,fun _ member => (by cases member),rfl⟩,rfl,rfl,sees.returned⟩

theorem Machine.Sees.recv (sees : m.Sees deps kept s) (moved : Step deps s .recv t) :
    ∃ n, Reaches (Machine.step deps) (CallsOnly deps kept) m n ∧ n.Sees deps kept t := by
  have advanced (n : Machine Proof Encoded) (same : m.workerStep = some n) :
      Reaches (Machine.step deps) (CallsOnly deps kept) m n := .single ⟨.recv,trivial,same⟩
  have channel := sees.runner.channel
  cases moved with
  | received job rest up sent =>
    rw [sent] at channel
    cases inside : kept (deps.jobKey job) with
    | false =>
      rw [List.filter_cons_of_neg (by simp [keepsMessage,inside])] at channel
      refine ⟨m,.refl,sees.config,sees.process,⟨sees.runner.queueDb,sees.runner.finishedDb,
        sees.runner.unflushed,channel⟩,sees.calls,?_,sees.returned⟩
      simp [sees.tasks,inside]
    | true =>
      rw [List.filter_cons_of_pos (by simp [keepsMessage,inside])] at channel
      have running : m.process = .running := sees.process.trans up
      simp only [Machine.workerStep,running,channel] at advanced
      refine ⟨_,advanced _ rfl,sees.config,up.symm,⟨sees.runner.queueDb,sees.runner.finishedDb,sees.runner.unflushed,
        rfl⟩,sees.calls,?_,sees.returned⟩
      simp [sees.tasks,inside,ArmedTask.proveTask]
  | stopReceived rest up sent =>
    rw [sent,List.filter_cons_of_pos (by simp [keepsMessage])] at channel
    have running : m.process = .running := sees.process.trans up
    simp only [Machine.workerStep,running,channel] at advanced
    exact ⟨_,advanced _ rfl,sees.config,rfl,⟨sees.runner.queueDb,sees.runner.finishedDb,sees.runner.unflushed,rfl⟩,
      sees.calls,sees.tasks,sees.returned⟩

/-- The startup loop is the one place that takes the entries of all jobs together, and it only
gets past them when there are none. -/
theorem Machine.Sees.restart (sees : m.Sees deps kept s) (hashed : ∀ key ∈ s.runner.queueDb, deps.HashKey key)
    (down : s.process = .stopped) (config : Config) (moved : Step deps s (.restart config) t) :
    ∃ n, Reaches (Machine.step deps) (CallsOnly deps kept) m n ∧ n.Sees deps kept t := by
  cases moved with
  | restartPanicked => exact ⟨m,.refl,sees⟩
  | restarted _ jobs _ recovered =>
    obtain ⟨empty,rfl⟩ := restart_ok hashed recovered
    have none : m.runner.queueDb = ∅ := (empty ▸ sees.runner.queueDb).eq_empty
    have stepped : m.step deps (.restart config m.timeout) = some (m.restartStep deps config m.timeout) :=
      if_pos (sees.process.trans down)
    have listed : restartUnfinishedJobs deps m.runner.queueDb.iter = .ok [] := by
      rw [SledTree.iter_eq_nil.mpr none]
      rfl
    simp only [Machine.restartStep,listed] at stepped
    exact ⟨_,.single ⟨.restart config m.timeout,trivial,stepped⟩,rfl,rfl,
      ⟨sees.runner.queueDb,sees.runner.finishedDb,sees.runner.unflushed,rfl⟩,sees.calls,sees.tasks,sees.returned⟩

theorem Machine.Sees.step (sees : m.Sees deps kept s) (holds : (hashKeys deps).Holds s) {action : Action Proof Body}
    (moved : s.step deps action = some t) :
    ∃ n, Reaches (Machine.step deps) (CallsOnly deps kept) m n ∧ n.Sees deps kept t := by
  cases action with
  | receive req =>
    obtain ⟨up,same⟩ := Option.ite_none_left_eq_some.mp moved
    cases same
    exact sees.deliver up req _
  | request i fault =>
    obtain ⟨thread,found,rfl⟩ := Option.map_eq_some_iff.mp moved
    have up : s.process ≠ .stopped := holds.up_of_request (List.mem_of_getElem? found)
    cases inside : kept (deps.jobKey (thread.submission.job deps)) with
    | false => exact sees.request_other up fault found inside
    | true => exact sees.request up fault found inside
  | task i answer =>
    obtain ⟨task,found,stepped⟩ := Option.bind_eq_some_iff.mp moved
    cases inside : kept (deps.jobKey task.job) with
    | false => exact ⟨m,.refl,sees.task_other found inside stepped⟩
    | true => exact sees.task found inside stepped
  | recv => exact sees.recv (step_cases moved)
  | shutdown =>
    obtain ⟨up,same⟩ := Option.ite_none_left_eq_some.mp moved
    cases same
    refine ⟨_,.single ⟨.shutdown,trivial,if_neg (sees.process ▸ up)⟩,sees.config,sees.process,
      ⟨sees.runner.queueDb,sees.runner.finishedDb,sees.runner.unflushed,?_⟩,sees.calls,sees.tasks,sees.returned⟩
    simp only [PdaRunner.send,sees.runner.channel,List.filter_append]
    rfl
  | exit =>
    obtain ⟨ending,same⟩ := Option.ite_none_right_eq_some.mp moved
    cases same
    exact ⟨_,.single ⟨.exit,trivial,if_pos (sees.process.trans ending)⟩,
      sees.stop sees.runner.queueDb sees.runner.finishedDb⟩
  | crash lost =>
    obtain ⟨up,made⟩ := Option.ite_none_left_eq_some.mp moved
    obtain ⟨found,left,rfl⟩ := Option.map_eq_some_iff.mp made
    -- The machine has made fewer writes, so it loses another number of them.
    obtain ⟨part,member,queueDb,finishedDb⟩ := sees.runner.contents found (List.mem_of_getElem? left)
    obtain ⟨other,here⟩ := List.getElem?_of_mem member
    have crashed : m.step deps (.crash other) = some (m.stop part) := by
      rw [Machine.step,if_neg (sees.process ▸ up),here,Option.map_some]
    exact ⟨_,.single ⟨.crash other,trivial,crashed⟩,sees.stop queueDb finishedDb⟩
  | restart config =>
    obtain ⟨down,_⟩ := Option.ite_none_right_eq_some.mp moved
    exact sees.restart holds.shared down config (step_cases moved)

end

/-- What any run of the service does with the jobs of some keys, a run of the job machinery does
in which these are the only jobs asked for. -/
theorem jobs_isolated (deps : Dependencies Proof Encoded Body) (kept : Bytes → Bool) (config : Config) (timeout : Nat)
    (s : State Proof Encoded Body) (run : Reaches (State.step deps) Free (State.initial config) s) :
    ∃ m, Reaches (Machine.step deps) (CallsOnly deps kept) (.initial config timeout) m ∧ m.Sees deps kept s := by
  induction run with
  | refl => exact ⟨_,.refl,rfl,rfl,⟨restricts_empty,restricts_empty,fun _ member => (by cases member),rfl⟩,rfl,rfl,rfl⟩
  | tail before last ih =>
    obtain ⟨m,reached,sees⟩ := ih
    obtain ⟨_,_,moved⟩ := last
    obtain ⟨n,later,seen⟩ := sees.step (hashKeys_reaches before) moved
    exact ⟨n,reached.trans later,seen⟩

namespace Tabulated

/-- Two clients whose calls and tasks take turns: the blob of one is proved, the other's fails. -/
def besideRun : List (Action Bytes Json) :=
  [receivePlain,.receive (post (call "blob.Submit" [blobToValue ⟨List.replicate 29 0,zeroKey.toList,0,[],none,none⟩])),
    .request 1 none,.request 0 none,.request 0 none,.request 1 none,.request 1 none,.request 0 none,.request 1 none,
    .request 0 none,.recv,.recv,.task 1 (.storage none),.task 0 (.storage none),
    .task 1 (.proved zeroNonce (.ok (plainProof zeroKey zeroNonce))),
    .task 0 (.proved zeroNonce (.error (.network .simulationFailed))),.task 1 (.storage none),.task 0 (.storage none)]

end Tabulated

set_option maxRecDepth 2048 in
theorem jobs_isolated_beside :
    let s := Tabulated.run Tabulated.localConfig Tabulated.besideRun
    ∃ m, Reaches (Machine.step Tabulated.dependencies) (CallsOnly Tabulated.dependencies (· == Tabulated.plainKey))
        (.initial Tabulated.localConfig 0) m ∧ m.Sees Tabulated.dependencies (· == Tabulated.plainKey) s :=
  jobs_isolated Tabulated.dependencies _ _ _ _ (Tabulated.run_reaches _ _ (by decide +kernel))

end PdaProxy
