import PdaProxy.JobLedger

/-! Who works on a queued job. The comments of `prove` say that every failure finalizes its
job; it does where the failure is an `SP1NetworkError`, and then a queued job always has a
message, a task or a sender. -/
namespace PdaProxy
open PdaProxy.Semantics PdaProxy.Semantics.Serialization PdaProxy.Semantics.Transition

variable {Proof Encoded Body : Type}

/-- Somebody is going to drive the job of a key: it waits on the channel, a task runs for
it, or a request has written it to the queue and is about to send it. -/
inductive Attended (deps : Dependencies Proof Encoded Body) (s : State Proof Encoded Body) (key : Bytes) : Prop
  | waiting (job) (sent : some job ∈ s.runner.channel) (same : deps.jobKey job = key)
  | running (task) (member : task ∈ s.tasks) (same : task.key deps = key)
  | sending (thread) (member : thread ∈ s.requests) (sends : thread.call.sends = true) (same : thread.key deps = key)

/-- Storage and channel work, and the process neither stops nor starts. -/
def Undisturbed : Action Proof Body → Prop
  | .request _ fault | .task _ (.storage fault) => fault = none
  | .receive _ | .recv | .task _ _ => True
  | .shutdown | .exit | .crash _ | .restart _ => False

theorem Undisturbed.lossless {action : Action Proof Body} (undisturbed : Undisturbed action) : action.Lossless := by
  cases action with
  | crash => cases undisturbed
  | _ => trivial

def Finalizes (deps : Dependencies Proof Encoded Body) (s : State Proof Encoded Body) : Action Proof Body → Prop
  | .task _ answer => answer.Handled deps s.config
  | .receive _ | .request _ _ | .recv | .shutdown | .exit | .crash _ | .restart _ => True

instance : ∀ action : Action Proof Body, Decidable (Undisturbed action)
  | .request _ fault | .task _ (.storage fault) => inferInstanceAs (Decidable (fault = none))
  | .receive _ | .recv | .task _ (.setupFailed _) | .task _ (.proved _ _) | .task _ (.requested _ _)
  | .task _ (.waited _) | .task _ .panics => inferInstanceAs (Decidable True)
  | .shutdown | .exit | .crash _ | .restart _ => inferInstanceAs (Decidable False)

instance (deps : Dependencies Proof Encoded Body) (s : State Proof Encoded Body) :
    ∀ action : Action Proof Body, Decidable (Finalizes deps s action)
  | .task _ answer => inferInstanceAs (Decidable (answer.Handled deps s.config))
  | .receive _ | .request _ _ | .recv | .shutdown | .exit | .crash _ | .restart _ => inferInstanceAs (Decidable True)

variable {deps : Dependencies Proof Encoded Body} {s : State Proof Encoded Body}

theorem attended_iff {key : Bytes} : Attended deps s key ↔ key ∈ (s.ledger deps).items := by
  simp only [State.ledger,workItems,Multiset.mem_add,Multiset.mem_coe,List.mem_filterMap,List.mem_map,
    List.mem_filter]
  constructor
  · intro attended
    cases attended with
    | waiting job sent same => exact .inl (.inl ⟨some job,sent,congrArg some same⟩)
    | running task member same => exact .inl (.inr ⟨task,member,same⟩)
    | sending thread member sends same => exact .inr ⟨thread,⟨member,sends⟩,same⟩
  · intro item
    rcases item with (⟨message,sent,mapped⟩ | ⟨task,member,same⟩) | ⟨thread,⟨member,sends⟩,same⟩
    · obtain ⟨job,rfl,same⟩ := Option.map_eq_some_iff.mp mapped
      exact .waiting job sent same
    · exact .running task member same
    · exact .sending thread member sends same

theorem keeps_of_performs {action : Action Proof Body} {operation : Ledger.Operation Bytes Encoded}
    (undisturbed : Undisturbed action) (finalized : Finalizes deps s action)
    (performed : Performs deps s action operation) : (s.ledger deps).Keeps operation := by
  cases performed with
  | unsent i fault thread found failed => exact absurd undisturbed failed
  | lost i answer task found unhandled => exact absurd finalized unhandled
  | unqueued i answer task found absent => exact AList.lookup_eq_none.mp absent
  | exited | crashed | restarted => exact undisturbed.elim
  | start | retry | progress | finish => trivial

theorem ledger_registered {guard : State Proof Encoded Body → Action Proof Body → Prop} {config : Config}
    (run : Reaches (State.step deps) guard (State.initial config) s) : (s.ledger deps).Registered := by
  apply ledger_invariant (fun _ _ => True) run (fun _ _ _ _ _ => trivial) _ Ledger.registered_empty
  intro before operation after registered _ moved
  exact Ledger.registered_step registered moved

theorem ledger_attended {config : Config}
    (run : Reaches (State.step deps) (fun u action => Undisturbed action ∧ Finalizes deps u action)
      (State.initial config) s) : (s.ledger deps).Attended := by
  apply ledger_invariant Ledger.Keeps run _ _ Ledger.attended_empty
  · intro u action operation allowed performed
    exact keeps_of_performs allowed.1 allowed.2 performed
  · intro before operation after attended kept moved
    exact Ledger.attended_step attended kept moved

/-- How a task ends: with an answer that nothing handles, by having found its job finalized, by
finalizing it, or by having sent it back. -/
inductive TaskEnd (deps : Dependencies Proof Encoded Body) (config : Config) (task : ProveTask Proof)
    (runner : PdaRunner Encoded) : Answer Proof → PdaRunner Encoded → Prop
  | lost (answer) (unhandled : ¬ answer.Handled deps config) : TaskEnd deps config task runner answer runner
  | found (reading : task.stage = .readQueue) (finished : task.key deps ∈ runner.finishedDb) :
      TaskEnd deps config task runner (.storage none) runner
  | finalized (status) (writing : task.stage = .finalize status) :
      TaskEnd deps config task runner (.storage none) (runner.moveToFinished deps (task.key deps) status)
  | sentBack (sending : task.stage = .sendBack) :
      TaskEnd deps config task runner (.storage none) (runner.send (some task.job))

theorem TaskStep.ends {answer : Answer Proof} {task : ProveTask Proof} {runner : PdaRunner Encoded}
    {progress : Progress (Stage Proof) ProveResult} (valid : (validStatuses deps).Holds s)
    (registered : (s.ledger deps).Registered) (running : task ∈ s.tasks)
    (moved : TaskStep deps s.config task.job s.runner task.stage answer runner progress)
    (final : ∀ next, progress ≠ .next next) : TaskEnd deps s.config task s.runner answer runner := by
  obtain ⟨job,current⟩ := task
  cases moved with
  | lost _ _ _ unhandled _ => exact .lost answer unhandled
  | unqueued absent =>
    have item : deps.jobKey job ∈ (s.ledger deps).items := attended_iff.mp (.running _ running rfl)
    rcases registered _ item with queued | finished
    · exact absurd queued (AList.lookup_eq_none.mp absent)
    · exact .found rfl (AList.lookup_isSome.mp (Option.isSome_iff_ne_none.mpr finished))
  | unreadable data error result stored read =>
    obtain ⟨status,readable,_⟩ := valid.shared.queue.readable stored
    cases readable.symm.trans read
  | started data status stored read =>
    obtain ⟨stage,starts⟩ := (valid.shared.queue.read stored read).starts
    exact absurd starts (final stage)
  | finalized status => exact .finalized status rfl
  | sentBack => exact .sentBack rfl
  | _ => exact absurd rfl (final _)

/-- A task that ends has finalized its job, has sent it back, or has found it finalized. -/
theorem task_ends {i : Nat} {answer : Answer Proof} {task : ProveTask Proof} {t : State Proof Encoded Body}
    (valid : (validStatuses deps).Holds s) (registered : (s.ledger deps).Registered)
    (found : s.tasks[i]? = some task) (handled : answer.Handled deps s.config)
    (stepped : s.step deps (.task i answer) = some t) (ended : t.tasks.length < s.tasks.length) :
    task.key deps ∈ t.runner.finishedDb ∨ ∃ job, some job ∈ t.runner.channel ∧ deps.jobKey job = task.key deps := by
  cases step_cases stepped with
  | taskNext _ _ before other after runner stage located pool moved => simp [pool] at ended
  | taskEnded _ _ before other after runner progress located pool final moved =>
    cases found.symm.trans located
    cases moved.ends valid registered (List.mem_of_getElem? found) final with
    | lost _ unhandled => exact absurd handled unhandled
    | found _ finished => exact .inl finished
    | finalized status => exact .inl (AList.mem_insert _ |>.mpr (.inl rfl))
    | sentBack => exact .inr ⟨task.job,by simp [PdaRunner.send],rfl⟩

theorem pending_attended {thread : RequestThread Proof Body} (attended : (s.ledger deps).Attended)
    (member : thread ∈ s.requests)
    (pending : (getVerifiableEncryption deps s.config (thread.submission.job deps) none s.runner thread.call).2 =
      .returned (.ok none)) : Attended deps s (thread.key deps) := by
  have moved := getVerifiableEncryption_step deps s.config (thread.submission.job deps) none s.runner thread.call
  rw [pending] at moved
  obtain ⟨submission,call⟩ := thread
  generalize getVerifiableEncryption deps s.config (submission.job deps) none s.runner call = outcome at moved
  obtain ⟨runner,progress⟩ := outcome
  cases moved with
  | pending data status stored read waiting =>
    have queued : deps.jobKey (submission.job deps) ∈ s.runner.queueDb :=
      AList.lookup_isSome.mp (by rw [stored]; rfl)
    exact attended_iff.mpr (attended _ queued)
  | sent => exact .sending _ member rfl rfl

/-- In every run without storage faults or stops whose failures are all finalized, a queued
job has a message, a task or a sender, a task that ends leaves a result or a message, and a
call that answers that there is no proof yet answers it of such a job. -/
theorem no_orphans (config : Config) (s : State Proof Encoded Body)
    (run : Reaches (State.step deps) (fun u action => Undisturbed action ∧ Finalizes deps u action)
      (State.initial config) s) :
    (∀ key ∈ s.runner.queueDb, Attended deps s key) ∧
    (∀ i answer task t, s.tasks[i]? = some task → answer.Handled deps s.config →
      s.step deps (.task i answer) = some t → t.tasks.length < s.tasks.length →
      task.key deps ∈ t.runner.finishedDb ∨
        ∃ job, some job ∈ t.runner.channel ∧ deps.jobKey job = task.key deps) ∧
    ∀ thread ∈ s.requests,
      (getVerifiableEncryption deps s.config (thread.submission.job deps) none s.runner thread.call).2 =
        .returned (.ok none) → Attended deps s (thread.key deps) :=
  ⟨fun key queued => attended_iff.mpr (ledger_attended run key queued),
    fun _ _ _ _ found handled stepped ended =>
      task_ends (validStatuses_reaches run) (ledger_registered run) found handled stepped ended,
    fun _ member pending => pending_attended (ledger_attended run) member pending⟩

theorem no_orphans_finalized :
    let s := Tabulated.run Tabulated.localConfig (Tabulated.submitPlain 0 ++ [.recv,.task 0 (.storage none),
      .task 0 (.proved Tabulated.zeroNonce (.error (.network (.rpcError "unavailable"))))])
    Tabulated.plainKey ∈ s.runner.queueDb ∧
      ∀ key ∈ s.runner.queueDb, Attended Tabulated.dependencies s key :=
  ⟨by decide +kernel,(no_orphans Tabulated.localConfig _
    (Tabulated.run_reaches _ _ (by decide +kernel))).1⟩

/-- The same prover fails with an error of another type, as a setup or a strategy may fail:
the task ends, and the job stays in the queue with nobody to drive it. -/
theorem unhandled_error_orphans :
    let s := Tabulated.run Tabulated.localConfig (Tabulated.submitPlain 0 ++ [.recv,.task 0 (.storage none),
      .task 0 (.proved Tabulated.zeroNonce (.error (.unhandled "out of memory")))])
    Reaches (State.step Tabulated.dependencies) (fun _ action => Undisturbed action)
        (.initial Tabulated.localConfig) s ∧
      Tabulated.plainKey ∈ s.runner.queueDb ∧ ¬ Attended Tabulated.dependencies s Tabulated.plainKey := by
  refine ⟨Tabulated.run_reaches _ _ (by decide +kernel),by decide +kernel,?_⟩
  rw [attended_iff]
  decide +kernel

end PdaProxy
