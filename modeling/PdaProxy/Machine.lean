import PdaProxy.Logging
import PdaProxy.StoreInvariant

/-! The job machinery with its log: the calls and tasks of the runner, on jobs that come from
anywhere. The service is a run of it on the jobs of its requests. -/
namespace PdaProxy
open PdaProxy.Semantics.Serialization PdaProxy.Semantics.Transition PdaProxy.Semantics.Pool

variable {Proof Encoded Body : Type}

structure JobCall (Proof : Type) where
  job : Job
  call : Call Proof

/-- A task of the worker, and the arm of `prove`'s match that it is in. -/
structure ArmedTask (Proof : Type) where
  job : Job
  arm : Stage Proof
  stage : Stage Proof

/-- The runner with its calls and tasks, on jobs that come from anywhere. `timeout` is the
runner's own configuration, in seconds. -/
structure Machine (Proof Encoded : Type) where
  config : Config
  timeout : Nat
  process : Process
  runner : PdaRunner Encoded
  calls : List (JobCall Proof)
  tasks : List (ArmedTask Proof)
  returned : List (CallResult Proof)
  log : List LogMessage

inductive MachineAction (Proof : Type)
  | call (job : Job)
  | operation (i : Nat) (fault : Fault)
  | recv
  | task (i : Nat) (answer : Answer Proof) (reports : Reports)
  | shutdown
  | exit
  | crash (lost : Nat)
  | restart (config : Config) (timeout : Nat)

/-- Reading the queue chooses the arm. -/
def ArmedTask.goTo (task : ArmedTask Proof) (stage : Stage Proof) : ArmedTask Proof :=
  match task.stage with
  | .readQueue => { task with stage, arm := stage }
  | _ => { task with stage }

namespace Machine

def initial (config : Config) (timeout : Nat) : Machine Proof Encoded :=
  ⟨config,timeout,.running,.empty,[],[],[],[]⟩

def stop (m : Machine Proof Encoded) (found : SledTree Encoded × SledTree Encoded) : Machine Proof Encoded :=
  { m with process := .stopped, runner := ⟨found.1,found.2,[],[]⟩, calls := [], tasks := [] }

section
variable (deps : Dependencies Proof Encoded Body)

def callStep (m : Machine Proof Encoded) (i : Nat) (thread : JobCall Proof) (fault : Fault) : Machine Proof Encoded :=
  let log := m.log ++ getVerifiableEncryptionLog deps m.config thread.job fault m.runner thread.call
  let (runner,progress) := getVerifiableEncryption deps m.config thread.job fault m.runner thread.call
  match progress with
  | .next call => { m with runner, log, calls := m.calls.set i { thread with call } }
  | .panicked => { m with runner, log, calls := m.calls.eraseIdx i }
  | .returned result => { m with runner, log, calls := m.calls.eraseIdx i, returned := m.returned ++ [result] }

def taskStep (m : Machine Proof Encoded) (i : Nat) (task : ArmedTask Proof) (answer : Answer Proof)
    (reports : Reports) : Option (Machine Proof Encoded) :=
  (prove deps m.config task.job answer m.runner task.stage).map fun (runner,progress) =>
    let log := m.log ++ proveLog deps m.config m.timeout task.job task.arm answer reports m.runner task.stage
    match progress with
    | .next stage => { m with runner, log, tasks := m.tasks.set i (task.goTo stage) }
    | .returned _ | .panicked => { m with runner, log, tasks := m.tasks.eraseIdx i }

def workerStep (m : Machine Proof Encoded) : Option (Machine Proof Encoded) :=
  match m.process,m.runner.channel with
  | .running,some job :: rest =>
    some { m with runner := { m.runner with channel := rest }, tasks := m.tasks ++ [⟨job,.readQueue,.readQueue⟩] }
  | .running,none :: rest => some { m with
      process := .stopping
      runner := { m.runner with channel := rest }
      log := m.log ++ [⟨.info,"Shutting down"⟩,⟨.info,"Cleanup complete"⟩] }
  | _,_ => none

def restartStep (m : Machine Proof Encoded) (config : Config) (timeout : Nat) : Machine Proof Encoded :=
  let log := m.log ++ ⟨.debug,"Restarting unfinished jobs"⟩ :: restartLog deps m.runner.queueDb.iter
  match restartUnfinishedJobs deps m.runner.queueDb.iter with
  | .error _ => { m with log }
  | .ok jobs => { m with
    config, timeout, log
    process := .running
    runner := { m.runner with channel := jobs.map some } }

def step (m : Machine Proof Encoded) : MachineAction Proof → Option (Machine Proof Encoded)
  | .call job => if m.process = .stopped then none else some { m with calls := m.calls ++ [⟨job,.readFinished⟩] }
  | .operation i fault => m.calls[i]?.map (m.callStep deps i · fault)
  | .recv => m.workerStep
  | .task i answer reports => m.tasks[i]?.bind (m.taskStep deps i · answer reports)
  | .shutdown => if m.process = .stopped then none else some { m with
      runner := m.runner.send none
      log := m.log ++ [⟨.info,"Terminating worker,finishing preexisting jobs"⟩] }
  | .exit => if m.process = .stopping then some (m.stop (m.runner.queueDb,m.runner.finishedDb)) else none
  | .crash lost => if m.process = .stopped then none else m.runner.contents[lost]?.map m.stop
  | .restart config timeout => if m.process = .stopped then some (m.restartStep deps config timeout) else none

end

end Machine

variable {deps : Dependencies Proof Encoded Body}

section
variable {m after : Machine Proof Encoded}

inductive MachineStep (deps : Dependencies Proof Encoded Body) (m : Machine Proof Encoded) :
    MachineAction Proof → Machine Proof Encoded → Prop
  | call (job) : MachineStep deps m (.call job) { m with calls := m.calls ++ [⟨job,.readFinished⟩] }
  | operation (i fault thread) (found : m.calls[i]? = some thread) :
      MachineStep deps m (.operation i fault) (m.callStep deps i thread fault)
  | received (job rest) (sent : m.runner.channel = some job :: rest) : MachineStep deps m .recv { m with
      runner := { m.runner with channel := rest }
      tasks := m.tasks ++ [⟨job,.readQueue,.readQueue⟩] }
  | stopReceived (rest) (sent : m.runner.channel = none :: rest) : MachineStep deps m .recv { m with
      process := .stopping
      runner := { m.runner with channel := rest }
      log := m.log ++ [⟨.info,"Shutting down"⟩,⟨.info,"Cleanup complete"⟩] }
  | task (i answer reports task after) (found : m.tasks[i]? = some task)
      (moved : m.taskStep deps i task answer reports = some after) : MachineStep deps m (.task i answer reports) after
  | shutdown : MachineStep deps m .shutdown { m with
      runner := m.runner.send none
      log := m.log ++ [⟨.info,"Terminating worker,finishing preexisting jobs"⟩] }
  | exit : MachineStep deps m .exit (m.stop (m.runner.queueDb,m.runner.finishedDb))
  | crash (lost found) (left : m.runner.contents[lost]? = some found) : MachineStep deps m (.crash lost) (m.stop found)
  | restart (config timeout) : MachineStep deps m (.restart config timeout) (m.restartStep deps config timeout)

theorem machineStep_cases {action : MachineAction Proof} (moved : m.step deps action = some after) :
    MachineStep deps m action after := by
  cases action with
  | call job =>
    obtain ⟨_,same⟩ := Option.ite_none_left_eq_some.mp moved
    cases same
    exact .call job
  | operation i fault =>
    obtain ⟨thread,found,rfl⟩ := Option.map_eq_some_iff.mp moved
    exact .operation i fault thread found
  | recv =>
    simp only [Machine.step,Machine.workerStep] at moved
    split at moved
    next job rest _ sent =>
      cases moved
      exact .received job rest sent
    next rest _ sent =>
      cases moved
      exact .stopReceived rest sent
    next => cases moved
  | task i answer reports =>
    obtain ⟨task,found,stepped⟩ := Option.bind_eq_some_iff.mp moved
    exact .task i answer reports task after found stepped
  | shutdown =>
    obtain ⟨_,same⟩ := Option.ite_none_left_eq_some.mp moved
    cases same
    exact .shutdown
  | exit =>
    obtain ⟨_,same⟩ := Option.ite_none_right_eq_some.mp moved
    cases same
    exact .exit
  | crash lost =>
    obtain ⟨_,made⟩ := Option.ite_none_left_eq_some.mp moved
    obtain ⟨found,left,rfl⟩ := Option.map_eq_some_iff.mp made
    exact .crash lost found left
  | restart config timeout =>
    obtain ⟨_,same⟩ := Option.ite_none_right_eq_some.mp moved
    cases same
    exact .restart config timeout

end

def RequestThread.jobCall (deps : Dependencies Proof Encoded Body) (thread : RequestThread Proof Body) : JobCall Proof :=
  ⟨thread.submission.job deps,thread.call⟩

def ArmedTask.proveTask (task : ArmedTask Proof) : ProveTask Proof := ⟨task.job,task.stage⟩

@[simp] theorem ArmedTask.goTo_proveTask (task : ArmedTask Proof) (stage : Stage Proof) :
    (task.goTo stage).proveTask = { task.proveTask with stage } := by
  unfold ArmedTask.goTo
  split <;> rfl

structure Machine.Carries (deps : Dependencies Proof Encoded Body) (m : Machine Proof Encoded)
    (s : State Proof Encoded Body) : Prop where
  config : m.config = s.config
  process : m.process = s.process
  runner : m.runner = s.runner
  calls : m.calls = s.requests.map (RequestThread.jobCall deps)
  tasks : m.tasks.map ArmedTask.proveTask = s.tasks
  returned : m.returned = s.answered.map Answered.result

section
variable {m : Machine Proof Encoded} {s t : State Proof Encoded Body}

theorem Machine.Carries.deliver (carries : m.Carries deps s) (up : s.process ≠ .stopped) (origin : IncomingRequest Body)
    (inbound : Inbound Body) :
    ∃ n, Reaches (Machine.step deps) Free m n ∧ n.Carries deps (s.deliver origin inbound) := by
  cases inbound with
  | done result => exact ⟨m,.refl,carries.config,carries.process,carries.runner,carries.calls,carries.tasks,carries.returned⟩
  | encrypt submission =>
    have running : m.process ≠ .stopped := carries.process ▸ up
    refine ⟨_,.single ⟨.call (submission.job deps),trivial,if_neg running⟩,carries.config,carries.process,carries.runner,
      ?_,carries.tasks,carries.returned⟩
    simp [State.deliver,carries.calls,RequestThread.jobCall]

theorem Machine.Carries.request (carries : m.Carries deps s) (up : s.process ≠ .stopped) {i : Nat} (fault : Fault)
    {thread : RequestThread Proof Body} (found : s.requests[i]? = some thread) :
    ∃ n, Reaches (Machine.step deps) Free m n ∧ n.Carries deps (s.requestStep deps i thread fault) := by
  have located : m.calls[i]? = some (thread.jobCall deps) := by simp [carries.calls,found]
  have moved : m.step deps (.operation i fault) = some (m.callStep deps i (thread.jobCall deps) fault) := by
    simp [Machine.step,located]
  have outcome : getVerifiableEncryption deps m.config (thread.jobCall deps).job fault m.runner (thread.jobCall deps).call =
      getVerifiableEncryption deps s.config (thread.submission.job deps) fault s.runner thread.call := by
    rw [carries.config,carries.runner]
    rfl
  have advanced : Reaches (Machine.step deps) Free m (m.callStep deps i (thread.jobCall deps) fault) :=
    .single ⟨_,trivial,moved⟩
  simp only [Machine.callStep,outcome] at advanced
  simp only [State.requestStep]
  cases ended : getVerifiableEncryption deps s.config (thread.submission.job deps) fault s.runner thread.call with
  | mk runner progress =>
    simp only [ended] at advanced
    cases progress with
    | next call =>
      refine ⟨_,advanced,carries.config,carries.process,rfl,?_,carries.tasks,carries.returned⟩
      simp [carries.calls,List.map_set,RequestThread.jobCall]
    | panicked =>
      refine ⟨_,advanced,carries.config,carries.process,rfl,?_,carries.tasks,carries.returned⟩
      simp [carries.calls,List.eraseIdx_map]
    | returned result =>
      have answered : Machine.Carries deps { m with
          runner
          log := m.log ++ getVerifiableEncryptionLog deps m.config (thread.jobCall deps).job fault m.runner
            (thread.jobCall deps).call
          calls := m.calls.eraseIdx i
          returned := m.returned ++ [result] } { s with
          runner
          requests := s.requests.eraseIdx i
          answered := s.answered ++ [⟨s.config,thread.submission.job deps,result⟩] } := by
        refine ⟨carries.config,carries.process,rfl,?_,carries.tasks,?_⟩
        · simp [carries.calls,List.eraseIdx_map]
        · simp [carries.returned]
      obtain ⟨n,later,carried⟩ := answered.deliver up thread.submission.origin (thread.submission.resume deps result)
      exact ⟨n,advanced.trans later,carried⟩

theorem Machine.Carries.task (carries : m.Carries deps s) {i : Nat} {answer : Answer Proof} {task : ProveTask Proof}
    (found : s.tasks[i]? = some task) (moved : s.taskStep deps i task answer = some t) :
    ∃ n, Reaches (Machine.step deps) Free m n ∧ n.Carries deps t := by
  have located := found
  rw [← carries.tasks,List.getElem?_map] at located
  obtain ⟨armed,running,rfl⟩ := Option.map_eq_some_iff.mp located
  let reports : Reports := ⟨[],false,""⟩
  have stepped : m.step deps (.task i answer reports) = m.taskStep deps i armed answer reports := by
    simp [Machine.step,running]
  unfold State.taskStep at moved
  split at moved
  next => cases moved
  next runner progress made =>
    have proved : prove deps m.config armed.job answer m.runner armed.stage = some (runner,progress) := by
      rw [carries.config,carries.runner]
      exact made
    have advanced (n : Machine Proof Encoded) (same : m.taskStep deps i armed answer reports = some n) :
        Reaches (Machine.step deps) Free m n := .single ⟨_,trivial,stepped.trans same⟩
    simp only [Machine.taskStep,proved,Option.map_some] at advanced
    cases progress with
    | next stage =>
      cases moved
      refine ⟨_,advanced _ rfl,carries.config,carries.process,rfl,carries.calls,?_,carries.returned⟩
      simp [List.map_set,carries.tasks]
    | returned | panicked =>
      cases moved
      refine ⟨_,advanced _ rfl,carries.config,carries.process,rfl,carries.calls,?_,carries.returned⟩
      simp [← List.eraseIdx_map,carries.tasks]

theorem Machine.Carries.stop (carries : m.Carries deps s) (found : SledTree Encoded × SledTree Encoded) :
    (m.stop found).Carries deps (s.stop found) :=
  ⟨carries.config,rfl,rfl,rfl,rfl,carries.returned⟩

theorem Machine.Carries.restart (carries : m.Carries deps s) (config : Config) (timeout : Nat) :
    (m.restartStep deps config timeout).Carries deps (s.restartStep deps config) := by
  unfold Machine.restartStep State.restartStep
  rw [carries.runner]
  cases restartUnfinishedJobs deps s.runner.queueDb.iter with
  | error _ => exact ⟨carries.config,carries.process,rfl,carries.calls,carries.tasks,carries.returned⟩
  | ok jobs => exact ⟨rfl,rfl,rfl,carries.calls,carries.tasks,carries.returned⟩

theorem Machine.Carries.recv (carries : m.Carries deps s) (moved : Step deps s .recv t) :
    ∃ n, Reaches (Machine.step deps) Free m n ∧ n.Carries deps t := by
  have advanced (n : Machine Proof Encoded) (same : m.workerStep = some n) : Reaches (Machine.step deps) Free m n :=
    .single ⟨.recv,trivial,same⟩
  cases moved with
  | received job rest up sent =>
    have running : m.process = .running := carries.process.trans up
    have channel : m.runner.channel = some job :: rest := carries.runner ▸ sent
    simp only [Machine.workerStep,running,channel] at advanced
    refine ⟨_,advanced _ rfl,carries.config,up.symm,?_,carries.calls,?_,carries.returned⟩
    · simp only [carries.runner]
    · simp [carries.tasks,ArmedTask.proveTask]
  | stopReceived rest up sent =>
    have running : m.process = .running := carries.process.trans up
    have channel : m.runner.channel = none :: rest := carries.runner ▸ sent
    simp only [Machine.workerStep,running,channel] at advanced
    refine ⟨_,advanced _ rfl,carries.config,rfl,?_,carries.calls,carries.tasks,carries.returned⟩
    simp only [carries.runner]

theorem Machine.Carries.step (carries : m.Carries deps s) (idle : s.process = .stopped → s.requests = [])
    {action : Action Proof Body} (moved : s.step deps action = some t) :
    ∃ n, Reaches (Machine.step deps) Free m n ∧ n.Carries deps t := by
  cases action with
  | receive req =>
    obtain ⟨up,same⟩ := Option.ite_none_left_eq_some.mp moved
    cases same
    exact carries.deliver up req _
  | request i fault =>
    obtain ⟨thread,found,rfl⟩ := Option.map_eq_some_iff.mp moved
    refine carries.request (fun stopped => ?_) fault found
    rw [idle stopped] at found
    cases found
  | task i answer =>
    obtain ⟨task,found,stepped⟩ := Option.bind_eq_some_iff.mp moved
    exact carries.task found stepped
  | recv => exact carries.recv (step_cases moved)
  | shutdown =>
    obtain ⟨up,same⟩ := Option.ite_none_left_eq_some.mp moved
    cases same
    refine ⟨_,.single ⟨.shutdown,trivial,if_neg (carries.process ▸ up)⟩,carries.config,carries.process,?_,carries.calls,
      carries.tasks,carries.returned⟩
    simp only [carries.runner]
  | exit =>
    obtain ⟨ending,same⟩ := Option.ite_none_right_eq_some.mp moved
    cases same
    rw [← carries.runner]
    exact ⟨_,.single ⟨.exit,trivial,if_pos (carries.process.trans ending)⟩,carries.stop _⟩
  | crash lost =>
    obtain ⟨up,made⟩ := Option.ite_none_left_eq_some.mp moved
    obtain ⟨found,left,rfl⟩ := Option.map_eq_some_iff.mp made
    rw [← carries.runner] at left
    have crashed : m.step deps (.crash lost) = some (m.stop found) := by
      rw [Machine.step,if_neg (carries.process ▸ up),left,Option.map_some]
    exact ⟨_,.single ⟨.crash lost,trivial,crashed⟩,carries.stop found⟩
  | restart config =>
    obtain ⟨down,same⟩ := Option.ite_none_right_eq_some.mp moved
    cases same
    exact ⟨_,.single ⟨.restart config m.timeout,trivial,if_pos (carries.process.trans down)⟩,carries.restart config _⟩

/-- Every run of the service is a run of the machine, with the same trees and the same results
of calls. -/
theorem service_carried {config : Config} (run : Reaches (State.step deps) Free (State.initial config) s) (timeout : Nat) :
    ∃ m, Reaches (Machine.step deps) Free (.initial config timeout) m ∧ m.Carries deps s := by
  induction run with
  | refl => exact ⟨_,.refl,rfl,rfl,rfl,rfl,rfl,rfl⟩
  | tail before last ih =>
    obtain ⟨m,reached,carries⟩ := ih
    obtain ⟨_,_,moved⟩ := last
    have holds := validStatuses_reaches before
    obtain ⟨n,later,carried⟩ := carries.step (fun down => (holds.idle down).1) moved
    exact ⟨n,reached.trans later,carried⟩

end

end PdaProxy
