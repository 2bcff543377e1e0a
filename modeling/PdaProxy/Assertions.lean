import PdaProxy.SystemSteps

/-! Thread-modular invariants. What is shared, each call, each task, each message and each
served request has its own assertion; an assertion that every operation keeps for itself,
and that the growing histories keep for all others, holds in every state of a run. -/
namespace PdaProxy
open PdaProxy.Semantics.Serialization PdaProxy.Semantics.Transition PdaProxy.Semantics.Pool

/-- What assertions may speak about besides the trees: it only grows within a lifetime. -/
structure History (Proof : Type) where
  config : Config
  network : Network
  answered : List (Answered Proof)

structure History.Grows {Proof : Type} (old new : History Proof) : Prop where
  accepted : old.network.accepted ⊆ new.network.accepted
  answered : old.answered ⊆ new.answered

structure Assertions (Proof Encoded Body : Type) where
  shared : History Proof → SledTree Encoded → SledTree Encoded → Prop
  request : History Proof → Submission Body → Call Proof → Prop
  task : History Proof → Job → Stage Proof → Prop
  message : History Proof → Job → Prop
  served : History Proof → IncomingRequest Body → InboundResult Body → Prop

variable {Proof Encoded Body : Type}

def State.history (s : State Proof Encoded Body) : History Proof := ⟨s.config,s.network,s.answered⟩

structure Assertions.Holds (assert : Assertions Proof Encoded Body) (s : State Proof Encoded Body) : Prop where
  contents : ∀ content ∈ s.runner.contents, assert.shared s.history content.1 content.2
  request : ∀ thread ∈ s.requests, assert.request s.history thread.submission thread.call
  task : ∀ task ∈ s.tasks, assert.task s.history task.job task.stage
  message : ∀ job, some job ∈ s.runner.channel → assert.message s.history job
  served : ∀ entry ∈ s.served, assert.served s.history entry.1 entry.2
  idle : s.process = .stopped → s.requests = [] ∧ s.tasks = []
  flushed : s.process = .stopped → s.runner.unflushed = []

theorem Assertions.Holds.shared {assert : Assertions Proof Encoded Body} {s : State Proof Encoded Body}
    (holds : assert.Holds s) : assert.shared s.history s.runner.queueDb s.runner.finishedDb :=
  holds.contents _ List.mem_cons_self

/-- What has to be shown of assertions, one obligation for each kind of step. `known` is
an invariant established before. -/
structure Assertions.Stable (deps : Dependencies Proof Encoded Body)
    (guard : State Proof Encoded Body → Action Proof Body → Prop)
    (known : State Proof Encoded Body → Prop) (assert : Assertions Proof Encoded Body) : Prop where
  /-- What was shared before a write can be again after a crash. -/
  shared_grows : ∀ {old new queueDb finishedDb laterQueue laterFinished}, old.Grows new → new.config = old.config →
    assert.shared old queueDb finishedDb → assert.shared new laterQueue laterFinished →
    assert.shared new queueDb finishedDb
  request_grows : ∀ {old new submission call}, old.Grows new → new.config = old.config →
    assert.request old submission call → assert.request new submission call
  task_grows : ∀ {old new job stage}, old.Grows new → new.config = old.config →
    assert.task old job stage → assert.task new job stage
  message_grows : ∀ {old new job}, old.Grows new → new.config = old.config →
    assert.message old job → assert.message new job
  served_grows : ∀ {old new req result}, old.Grows new → assert.served old req result → assert.served new req result
  request_message : ∀ {history submission call}, assert.request history submission call →
    assert.message history (submission.job deps)
  task_message : ∀ {history job stage}, assert.task history job stage → assert.message history job
  message_task : ∀ {history job}, assert.message history job → assert.task history job .readQueue
  receive : ∀ {s req}, known s → assert.Holds s → guard s (.receive req) →
    (∀ submission, inboundHandler deps req = .encrypt submission →
      assert.request s.history submission .readFinished) ∧
    (∀ result, inboundHandler deps req = .done result → assert.served s.history req result)
  call : ∀ {s i fault thread runner call}, known s → assert.Holds s → guard s (.request i fault) →
    s.requests[i]? = some thread → assert.request s.history thread.submission thread.call →
    CallStep deps s.config (thread.submission.job deps) fault s.runner thread.call runner (.next call) →
    assert.shared s.history runner.queueDb runner.finishedDb ∧ assert.request s.history thread.submission call
  answer : ∀ {s i fault thread runner result}, known s → assert.Holds s → guard s (.request i fault) →
    s.requests[i]? = some thread → assert.request s.history thread.submission thread.call →
    CallStep deps s.config (thread.submission.job deps) fault s.runner thread.call runner (.returned result) →
    let history : History Proof :=
      { s.history with answered := s.answered ++ [⟨s.config,thread.submission.job deps,result⟩] }
    assert.shared history runner.queueDb runner.finishedDb ∧
    (∀ submission, thread.submission.resume deps result = .encrypt submission →
      assert.request history submission .readFinished) ∧
    (∀ response, thread.submission.resume deps result = .done response →
      assert.served history thread.submission.origin response)
  work : ∀ {s i answer task runner progress}, known s → assert.Holds s → guard s (.task i answer) →
    s.tasks[i]? = some task → assert.task s.history task.job task.stage →
    TaskStep deps s.config task.job s.runner task.stage answer runner progress →
    let history : History Proof :=
      { s.history with network := s.network.observe deps s.config task.job task.stage answer }
    assert.shared history runner.queueDb runner.finishedDb ∧
    (∀ stage, progress = .next stage → assert.task history task.job stage)
  restart : ∀ {s config jobs}, known s → assert.Holds s → guard s (.restart config) → s.process = .stopped →
    restartUnfinishedJobs deps s.runner.queueDb.iter = .ok jobs →
    assert.shared { s.history with config } s.runner.queueDb s.runner.finishedDb ∧
    (∀ job ∈ jobs, assert.message { s.history with config } job)

variable {deps : Dependencies Proof Encoded Body}

theorem Network.observe_accepted (network : Network) (config : Config) (job : Job) (stage : Stage Proof)
    (answer : Answer Proof) : network.accepted ⊆ (network.observe deps config job stage answer).accepted := by
  unfold Network.observe
  split
  next nonce result =>
    dsimp only
    split
    next usable =>
      cases result with
      | ok requestId => exact fun _ member => List.mem_append_left _ member
      | error _ => exact fun _ member => member
    next => exact fun _ member => member
  next => exact fun _ member => member

theorem mem_channel_send {runner : PdaRunner Encoded} {message : Option Job} {job : Job}
    (sent : some job ∈ (runner.send message).channel) : some job ∈ runner.channel ∨ message = some job := by
  rcases List.mem_append.mp sent with old | new
  · exact .inl old
  · exact .inr (List.mem_singleton.mp new).symm

theorem CallStep.channel {config : Config} {job other : Job} {fault : Fault} {runner after : PdaRunner Encoded}
    {call : Call Proof} {progress : Progress (Call Proof) (CallResult Proof)}
    (moved : CallStep deps config job fault runner call after progress) (sent : some other ∈ after.channel) :
    some other ∈ runner.channel ∨ other = job := by
  cases moved with
  | resent | sent => exact (mem_channel_send sent).imp_right fun same => (Option.some.inj same).symm
  | _ => exact .inl sent

theorem TaskStep.channel {config : Config} {job other : Job} {runner after : PdaRunner Encoded}
    {stage : Stage Proof} {answer : Answer Proof} {progress : Progress (Stage Proof) ProveResult}
    (moved : TaskStep deps config job runner stage answer after progress) (sent : some other ∈ after.channel) :
    some other ∈ runner.channel ∨ other = job := by
  cases moved with
  | sentBack => exact (mem_channel_send sent).imp_right fun same => (Option.some.inj same).symm
  | _ => exact .inl sent

namespace Assertions

variable {guard : State Proof Encoded Body → Action Proof Body → Prop} {known : State Proof Encoded Body → Prop}
  {assert : Assertions Proof Encoded Body}

theorem Holds.grows (stable : assert.Stable deps guard known) {s : State Proof Encoded Body}
    (holds : assert.Holds s) {history : History Proof} (grows : s.history.Grows history)
    (same : history.config = s.config) :
    (∀ thread ∈ s.requests, assert.request history thread.submission thread.call) ∧
    (∀ task ∈ s.tasks, assert.task history task.job task.stage) ∧
    (∀ job, some job ∈ s.runner.channel → assert.message history job) ∧
    (∀ entry ∈ s.served, assert.served history entry.1 entry.2) :=
  ⟨fun thread member => stable.request_grows grows same (holds.request thread member),
    fun task member => stable.task_grows grows same (holds.task task member),
    fun job member => stable.message_grows grows same (holds.message job member),
    fun entry member => stable.served_grows grows (holds.served entry member)⟩

theorem Holds.left (stable : assert.Stable deps guard known) {s : State Proof Encoded Body} (holds : assert.Holds s)
    {history : History Proof} (grows : s.history.Grows history) (same : history.config = s.config)
    {runner : PdaRunner Encoded} (shared : assert.shared history runner.queueDb runner.finishedDb)
    (written : ∀ content ∈ runner.unflushed, content ∈ s.runner.contents) :
    ∀ content ∈ runner.contents, assert.shared history content.1 content.2 :=
  List.forall_mem_cons.mpr ⟨shared,fun content member =>
    stable.shared_grows grows same (holds.contents content (written content member)) shared⟩

theorem Holds.up_of_request {s : State Proof Encoded Body} (holds : assert.Holds s)
    {thread : RequestThread Proof Body} (member : thread ∈ s.requests) : s.process ≠ .stopped := by
  intro down
  rw [(holds.idle down).1] at member
  cases member

theorem Holds.up_of_task {s : State Proof Encoded Body} (holds : assert.Holds s)
    {task : ProveTask Proof} (member : task ∈ s.tasks) : s.process ≠ .stopped := by
  intro down
  rw [(holds.idle down).2] at member
  cases member

theorem Holds.deliver {s : State Proof Encoded Body} (holds : assert.Holds s) (up : s.process ≠ .stopped)
    (origin : IncomingRequest Body) (outcome : Inbound Body)
    (waits : ∀ submission, outcome = .encrypt submission → assert.request s.history submission .readFinished)
    (ends : ∀ result, outcome = .done result → assert.served s.history origin result) :
    assert.Holds (s.deliver origin outcome) := by
  cases outcome with
  | done result =>
    exact ⟨holds.contents,holds.request,holds.task,holds.message,forall_concat holds.served (ends result rfl),
      holds.idle,holds.flushed⟩
  | encrypt submission =>
    exact ⟨holds.contents,forall_concat holds.request (waits submission rfl),holds.task,holds.message,holds.served,
      fun down => absurd down up,holds.flushed⟩

theorem Holds.answered (stable : assert.Stable deps guard known) {s : State Proof Encoded Body}
    (holds : assert.Holds s) (ready : known s) {i : Nat} {fault : Fault} (allowed : guard s (.request i fault))
    {before after : List (RequestThread Proof Body)} {thread : RequestThread Proof Body}
    {runner : PdaRunner Encoded} {result : CallResult Proof} (found : s.requests[i]? = some thread)
    (pool : s.requests = before ++ thread :: after)
    (moved : CallStep deps s.config (thread.submission.job deps) fault s.runner thread.call runner (.returned result)) :
    assert.Holds (State.deliver { s with
        runner
        requests := before ++ after
        answered := s.answered ++ [⟨s.config,thread.submission.job deps,result⟩] }
      thread.submission.origin (thread.submission.resume deps result)) := by
  have member : thread ∈ s.requests := List.mem_of_getElem? found
  obtain ⟨shared,waits,ends⟩ := stable.answer ready holds allowed found (holds.request thread member) moved
  have grows : s.history.Grows
      { s.history with answered := s.answered ++ [⟨s.config,thread.submission.job deps,result⟩] } :=
    ⟨fun _ present => present,fun _ present => List.mem_append_left _ present⟩
  obtain ⟨requests,tasks,messages,served⟩ := holds.grows stable grows rfl
  have up : s.process ≠ .stopped := holds.up_of_request member
  have settled : assert.Holds { s with
      runner
      requests := before ++ after
      answered := s.answered ++ [⟨s.config,thread.submission.job deps,result⟩] } := by
    refine ⟨holds.left stable grows rfl shared moved.unflushed,?_,tasks,?_,served,fun down => absurd down up,
      fun down => absurd down up⟩
    · intro other inside
      apply requests
      rw [pool]
      simp only [List.mem_append,List.mem_cons] at inside ⊢
      tauto
    · intro job sent
      rcases moved.channel sent with old | rfl
      · exact messages job old
      · exact stable.request_message (requests thread member)
  exact settled.deliver up _ _ waits ends

theorem Holds.worked (stable : assert.Stable deps guard known) {s : State Proof Encoded Body}
    (holds : assert.Holds s) (ready : known s) {i : Nat} {answer : Answer Proof} (allowed : guard s (.task i answer))
    {before after rest : List (ProveTask Proof)} {task : ProveTask Proof} {runner : PdaRunner Encoded}
    {progress : Progress (Stage Proof) ProveResult} (found : s.tasks[i]? = some task)
    (pool : s.tasks = before ++ task :: after)
    (moved : TaskStep deps s.config task.job s.runner task.stage answer runner progress)
    (left : ∀ other ∈ rest, other ∈ before ++ after ∨ ∃ stage, progress = .next stage ∧ other = { task with stage }) :
    assert.Holds { s with
      runner
      network := s.network.observe deps s.config task.job task.stage answer
      tasks := rest } := by
  have member : task ∈ s.tasks := List.mem_of_getElem? found
  obtain ⟨shared,advanced⟩ := stable.work ready holds allowed found (holds.task task member) moved
  have grows : s.history.Grows
      { s.history with network := s.network.observe deps s.config task.job task.stage answer } :=
    ⟨s.network.observe_accepted _ _ _ _,fun _ present => present⟩
  obtain ⟨requests,tasks,messages,served⟩ := holds.grows stable grows rfl
  have up := holds.up_of_task member
  refine ⟨holds.left stable grows rfl shared moved.unflushed,requests,?_,?_,served,fun down => absurd down up,
    fun down => absurd down up⟩
  · intro other inside
    rcases left other inside with old | ⟨stage,same,rfl⟩
    · apply tasks
      rw [pool]
      simp only [List.mem_append,List.mem_cons] at old ⊢
      tauto
    · exact advanced stage same
  · intro job sent
    rcases moved.channel sent with old | rfl
    · exact messages job old
    · exact stable.task_message (tasks task member)

/-- What the process leaves on disk is one of the contents, and nothing else is left. -/
theorem Holds.stop {s : State Proof Encoded Body} (holds : assert.Holds s)
    {found : SledTree Encoded × SledTree Encoded} (left : found ∈ s.runner.contents) : assert.Holds (s.stop found) :=
  ⟨List.forall_mem_singleton.mpr (holds.contents found left),by simp [State.stop],by simp [State.stop],
    by simp [State.stop],holds.served,by simp [State.stop],by simp [State.stop]⟩

theorem holds_step (stable : assert.Stable deps guard known) {s t : State Proof Encoded Body}
    {action : Action Proof Body} (ready : known s) (holds : assert.Holds s) (allowed : guard s action)
    (stepped : s.step deps action = some t) : assert.Holds t := by
  cases step_cases stepped with
  | receive req up =>
    obtain ⟨waits,ends⟩ := stable.receive ready holds allowed
    exact holds.deliver up req _ waits ends
  | callNext i fault before thread after runner call found pool moved =>
    have member : thread ∈ s.requests := List.mem_of_getElem? found
    obtain ⟨shared,advanced⟩ := stable.call ready holds allowed found (holds.request thread member) moved
    have up := holds.up_of_request member
    have grows : s.history.Grows s.history := ⟨fun _ present => present,fun _ present => present⟩
    refine ⟨holds.left stable grows rfl shared moved.unflushed,?_,holds.task,?_,holds.served,fun down => absurd down up,
      fun down => absurd down up⟩
    · intro other inside
      rcases List.mem_append.mp inside with old | new
      · exact holds.request other (by simp [pool,old])
      · rcases List.mem_cons.mp new with rfl | old
        · exact advanced
        · exact holds.request other (by simp [pool,old])
    · intro job sent
      rcases moved.channel sent with old | rfl
      · exact holds.message job old
      · exact stable.request_message (holds.request thread member)
  | callPanicked i fault before thread after found pool reading =>
    have up := holds.up_of_request (List.mem_of_getElem? found)
    refine ⟨holds.contents,?_,holds.task,holds.message,holds.served,fun down => absurd down up,holds.flushed⟩
    intro other inside
    apply holds.request
    rw [pool]
    simp only [List.mem_append,List.mem_cons] at inside ⊢
    tauto
  | callReturned i fault before thread after runner result found pool moved =>
    exact holds.answered stable ready allowed found pool moved
  | taskNext i answer before task after runner stage found pool moved =>
    refine holds.worked stable ready allowed found pool moved ?_
    intro other inside
    simp only [List.mem_append,List.mem_cons] at inside ⊢
    rcases inside with old | rfl | old
    · exact .inl (.inl old)
    · exact .inr ⟨stage,rfl,rfl⟩
    · exact .inl (.inr old)
  | taskEnded i answer before task after runner progress found pool ended moved =>
    exact holds.worked stable ready allowed found pool moved fun other inside => .inl inside
  | received job rest up sent =>
    have queued : assert.message s.history job := holds.message job (by simp [sent])
    exact ⟨holds.contents,holds.request,forall_concat holds.task (stable.message_task queued),
      fun other later => holds.message other (by simp [sent,later]),holds.served,by simp [up],holds.flushed⟩
  | stopReceived rest up sent =>
    exact ⟨holds.contents,holds.request,holds.task,fun other later => holds.message other (by simp [sent,later]),
      holds.served,by simp,by simp⟩
  | shutdown up =>
    refine ⟨holds.contents,holds.request,holds.task,?_,holds.served,holds.idle,holds.flushed⟩
    intro job sent
    rcases mem_channel_send sent with old | none
    · exact holds.message job old
    · cases none
  | exit => exact holds.stop List.mem_cons_self
  | crash lost found up left => exact holds.stop (List.mem_of_getElem? left)
  | restarted config jobs down recovered =>
    obtain ⟨noRequests,noTasks⟩ := holds.idle down
    obtain ⟨shared,messages⟩ := stable.restart ready holds allowed down recovered
    refine ⟨?_,by simp [noRequests],by simp [noTasks],?_,?_,by simp,by simp⟩
    · exact List.forall_mem_cons.mpr ⟨shared,fun content member => by simp [holds.flushed down] at member⟩
    · intro job sent
      obtain ⟨listed,member,same⟩ := List.mem_map.mp sent
      cases same
      exact messages job member
    · have grows : s.history.Grows { s.history with config } := ⟨fun _ member => member,fun _ member => member⟩
      exact fun entry member => stable.served_grows grows (holds.served entry member)
  | restartPanicked => exact holds

/-- Assertions that hold of an empty database hold in every state of a run from it. -/
theorem holds_reaches (stable : assert.Stable deps guard known) {config : Config} {s : State Proof Encoded Body}
    (run : Reaches (State.step deps) guard (State.initial config) s)
    (established : ∀ u, Reaches (State.step deps) guard (State.initial config) u → known u)
    (start : assert.shared ⟨config,⟨[],[]⟩,[]⟩ ∅ ∅) : assert.Holds s :=
  run.invariant_with established
    (fun _ _ _ ready holds allowed stepped => holds_step stable ready holds allowed stepped)
    ⟨List.forall_mem_singleton.mpr start,by simp [State.initial],
      by simp [State.initial],by simp [State.initial,PdaRunner.empty],by simp [State.initial],by simp [State.initial],
      by simp [State.initial]⟩

end Assertions

end PdaProxy
