import PdaProxy.Recovery
import PdaProxy.Semantics.Ledger

/-! The service as the users of a ledger: its keys are job keys, its trees the two trees of
the database, and its items the jobs on the channel, the tasks, and the calls that have
written to the queue and not sent their job yet. Every step of the service is one
operation on the ledger or none. -/
namespace PdaProxy
open PdaProxy.Semantics PdaProxy.Semantics.Serialization PdaProxy.Semantics.Transition

variable {Proof Encoded Body : Type}

def Call.sends : Call Proof → Bool
  | .retrySend _ | .send => true
  | .readFinished | .retryTransaction _ _ | .readQueue | .insert _ => false

section
variable (deps : Dependencies Proof Encoded Body)

def RequestThread.key (thread : RequestThread Proof Body) : Bytes := deps.jobKey (thread.submission.job deps)

def ProveTask.key (task : ProveTask Proof) : Bytes := deps.jobKey task.job

def workItems (channel : List (Option Job)) (tasks : List (ProveTask Proof))
    (requests : List (RequestThread Proof Body)) : Multiset Bytes :=
  ((channel.filterMap (·.map deps.jobKey) : List Bytes) : Multiset Bytes) +
    ((tasks.map (ProveTask.key deps) : List Bytes) : Multiset Bytes) +
    (((requests.filter (·.call.sends)).map (RequestThread.key deps) : List Bytes) : Multiset Bytes)

def State.ledger (s : State Proof Encoded Body) : Ledger Bytes Encoded where
  queued := { key | key ∈ s.runner.queueDb }
  finished key := s.runner.finishedDb.lookup key
  items := workItems deps s.runner.channel s.tasks s.requests
  earlier := s.runner.unflushed.map fun content => ({ key | key ∈ content.1 },fun key => content.2.lookup key)

/-- Which step of the service is which operation on the ledger. -/
inductive Performs (s : State Proof Encoded Body) : Action Proof Body → Ledger.Operation Bytes Encoded → Prop
  | start (i thread status) (found : s.requests[i]? = some thread) (inserts : thread.call = .insert status) :
      Performs s (.request i none) (.start (thread.key deps))
  | retry (i thread error status) (found : s.requests[i]? = some thread)
      (retries : thread.call = .retryTransaction error status) :
      Performs s (.request i none) (.retry (thread.key deps))
  | unsent (i fault thread) (found : s.requests[i]? = some thread) (failed : fault ≠ none) :
      Performs s (.request i fault) (.abandon (thread.key deps))
  | progress (i answer task) (found : s.tasks[i]? = some task) :
      Performs s (.task i answer) (.progress (task.key deps))
  | finish (i answer task value) (found : s.tasks[i]? = some task) :
      Performs s (.task i answer) (.finish (task.key deps) value)
  | lost (i answer task) (found : s.tasks[i]? = some task) (unhandled : ¬ answer.Handled deps s.config) :
      Performs s (.task i answer) (.abandon (task.key deps))
  | unqueued (i answer task) (found : s.tasks[i]? = some task)
      (absent : s.runner.queueDb.lookup (task.key deps) = none) :
      Performs s (.task i answer) (.abandon (task.key deps))
  | exited : Performs s .exit .reset
  | crashed (lost) : Performs s (.crash lost) (.rollback lost)
  | restarted (config) : Performs s (.restart config) .reset

end

variable {deps : Dependencies Proof Encoded Body}

theorem Performs.lasting {s : State Proof Encoded Body} {action : Action Proof Body}
    {operation : Ledger.Operation Bytes Encoded} (performed : Performs deps s action operation)
    (lossless : action.Lossless) : operation.Lasting := by
  cases performed with
  | crashed lost => exact lossless
  | start | retry | unsent | progress | finish | lost | unqueued | exited | restarted => trivial

section
variable (channel : List (Option Job)) (tasks before after : List (ProveTask Proof))
  (requests first last : List (RequestThread Proof Body))

@[simp] theorem workItems_sent (job : Job) :
    workItems deps (channel ++ [some job]) tasks requests = deps.jobKey job ::ₘ workItems deps channel tasks requests := by
  have moved : (channel ++ [some job]).filterMap (·.map deps.jobKey) =
      channel.filterMap (·.map deps.jobKey) ++ deps.jobKey job :: [] := by simp
  rw [workItems,moved,Multiset.coe_eq_coe.mpr List.perm_middle]
  simp only [workItems,List.append_nil,← Multiset.cons_coe,Multiset.cons_add]

@[simp] theorem workItems_stop :
    workItems deps (channel ++ [none]) tasks requests = workItems deps channel tasks requests := by
  simp [workItems]

@[simp] theorem workItems_received (job : Job) :
    workItems deps (some job :: channel) tasks requests = deps.jobKey job ::ₘ workItems deps channel tasks requests := by
  simp [workItems,← Multiset.cons_coe]

@[simp] theorem workItems_stopReceived :
    workItems deps (none :: channel) tasks requests = workItems deps channel tasks requests := by
  simp [workItems]

@[simp] theorem workItems_task (task : ProveTask Proof) :
    workItems deps channel (before ++ task :: after) requests =
      task.key deps ::ₘ workItems deps channel (before ++ after) requests := by
  have moved : ((before ++ task :: after).map (ProveTask.key deps) : List Bytes) =
      before.map (ProveTask.key deps) ++ task.key deps :: after.map (ProveTask.key deps) := by simp
  rw [workItems,moved,Multiset.coe_eq_coe.mpr List.perm_middle]
  simp only [workItems,List.map_append,← Multiset.cons_coe,Multiset.add_cons,Multiset.cons_add]

theorem workItems_sending {thread : RequestThread Proof Body} (sends : thread.call.sends = true) :
    workItems deps channel tasks (first ++ thread :: last) =
      thread.key deps ::ₘ workItems deps channel tasks (first ++ last) := by
  have moved : (((first ++ thread :: last).filter (·.call.sends)).map (RequestThread.key deps) : List Bytes) =
      (first.filter (·.call.sends)).map (RequestThread.key deps) ++
        thread.key deps :: (last.filter (·.call.sends)).map (RequestThread.key deps) := by simp [sends]
  rw [workItems,moved,Multiset.coe_eq_coe.mpr List.perm_middle]
  simp only [workItems,List.filter_append,List.map_append,← Multiset.cons_coe,Multiset.add_cons]

theorem workItems_quiet {thread : RequestThread Proof Body} (quiet : thread.call.sends = false) :
    workItems deps channel tasks (first ++ thread :: last) = workItems deps channel tasks (first ++ last) := by
  simp [workItems,quiet]

end

section
variable (tree : SledTree Encoded) (key : Bytes) (data : Encoded)

theorem queued_insert : { other | other ∈ tree.insert key data } = insert key { other | other ∈ tree } := by
  ext other
  exact AList.mem_insert tree

theorem queued_erase : { other | other ∈ tree.erase key } = { other | other ∈ tree } \ {key} := by
  ext other
  rw [Set.mem_ofPred_eq,AList.mem_erase]
  exact and_comm

theorem finished_insert :
    (fun other => (tree.insert key data).lookup other) =
      Function.update (fun other => tree.lookup other) key (some data) := by
  funext other
  by_cases same : other = key
  · subst other
    simp
  · rw [AList.lookup_insert_ne same,Function.update_of_ne same]

theorem finished_erase :
    (fun other => (tree.erase key).lookup other) = Function.update (fun other => tree.lookup other) key none := by
  funext other
  by_cases same : other = key
  · subst other
    simp
  · rw [AList.lookup_erase_ne same,Function.update_of_ne same]

end

@[simp] theorem ledger_deliver (s : State Proof Encoded Body) (origin : IncomingRequest Body)
    (outcome : Inbound Body) : (s.deliver origin outcome).ledger deps = s.ledger deps := by
  cases outcome with
  | done result => rfl
  | encrypt submission => simp [State.deliver,State.ledger,workItems,Call.sends]

theorem ledger_contents (s : State Proof Encoded Body) : (s.ledger deps).contents =
    s.runner.contents.map fun content => ({ key | key ∈ content.1 },fun key => content.2.lookup key) :=
  rfl

/-- The ledger of the second state is reached by an operation that the action performs,
or is still that of the first. -/
def Simulated (deps : Dependencies Proof Encoded Body) (s : State Proof Encoded Body)
    (action : Action Proof Body) (t : State Proof Encoded Body) : Prop :=
  t.ledger deps = s.ledger deps ∨
    ∃ operation, Performs deps s action operation ∧ (s.ledger deps).step operation = some (t.ledger deps)

section
variable {s : State Proof Encoded Body} {i : Nat} {fault : Fault} {answer : Answer Proof}
  {runner : PdaRunner Encoded}

private theorem callNext_simulated {before after : List (RequestThread Proof Body)}
    {thread : RequestThread Proof Body} {call : Call Proof} (found : s.requests[i]? = some thread)
    (pool : s.requests = before ++ thread :: after)
    (moved : CallStep deps s.config (thread.submission.job deps) fault s.runner thread.call runner (.next call)) :
    Simulated deps s (.request i fault) { s with runner, requests := before ++ { thread with call } :: after } := by
  obtain ⟨submission,call⟩ := thread
  cases moved with
  | retryable | unfinished | unqueued =>
    left
    simp only [State.ledger,pool]
    rw [workItems_quiet _ _ _ _ rfl,workItems_quiet _ _ _ _ rfl]
  | retried error retryStatus made =>
    subst made
    refine .inr ⟨_,.retry i _ error retryStatus found rfl,?_⟩
    simp only [State.ledger,PdaRunner.moveToQueue,pool,queued_insert,finished_erase]
    rw [workItems_quiet _ _ _ _ rfl,workItems_sending _ _ _ _ rfl]
    rfl
  | inserted status made =>
    subst made
    refine .inr ⟨_,.start i _ status found rfl,?_⟩
    simp only [State.ledger,PdaRunner.insertQueue,pool,queued_insert]
    rw [workItems_quiet _ _ _ _ rfl,workItems_sending _ _ _ _ rfl]
    rfl

private theorem callReturned_simulated {before after : List (RequestThread Proof Body)}
    {thread : RequestThread Proof Body} {result : CallResult Proof} (answered : List (Answered Proof))
    (found : s.requests[i]? = some thread) (pool : s.requests = before ++ thread :: after)
    (moved : CallStep deps s.config (thread.submission.job deps) fault s.runner thread.call runner (.returned result)) :
    Simulated deps s (.request i fault) { s with runner, requests := before ++ after, answered } := by
  obtain ⟨submission,call⟩ := thread
  cases moved with
  | failed _ error refused =>
    cases sends : call.sends with
    | false =>
      left
      simp only [State.ledger,pool]
      rw [workItems_quiet _ _ _ _ sends]
    | true =>
      have failed : fault ≠ none := by
        intro none
        rcases refused none with rfl | rfl <;> cases sends
      refine .inr ⟨_,.unsent i fault _ found failed,?_⟩
      simp only [State.ledger,pool]
      rw [workItems_sending _ _ _ _ sends]
      simp [Ledger.step]
  | finished | pending =>
    left
    simp only [State.ledger,pool]
    rw [workItems_quiet _ _ _ _ rfl]
  | resent | sent =>
    left
    simp only [State.ledger,PdaRunner.send,pool,workItems_sent]
    rw [workItems_sending _ _ _ _ rfl]
    rfl

private theorem taskNext_simulated {before after : List (ProveTask Proof)} {task : ProveTask Proof}
    {stage : Stage Proof} {network : Network} (found : s.tasks[i]? = some task)
    (pool : s.tasks = before ++ task :: after)
    (moved : TaskStep deps s.config task.job s.runner task.stage answer runner (.next stage)) :
    Simulated deps s (.task i answer) { s with runner, network, tasks := before ++ { task with stage } :: after } := by
  obtain ⟨job,current⟩ := task
  have same : ProveTask.key deps ⟨job,stage⟩ = ProveTask.key deps ⟨job,current⟩ := rfl
  generalize progressed : Progress.next stage = progress at moved
  cases moved with
  | lost _ _ _ unhandled ended => exact absurd progressed.symm (ended stage)
  | updated status =>
    have present : deps.jobKey job ∈ (s.ledger deps).items := by simp [State.ledger,pool,ProveTask.key]
    refine .inr ⟨_,.progress i _ _ found,(if_pos present).trans ?_⟩
    simp only [State.ledger,PdaRunner.moveToQueue,pool,queued_insert,finished_erase,workItems_task,same]
    rfl
  | started | refusedLocal | refusedRemote | refusedWait | proved | requested | waited =>
    left
    simp only [State.ledger,pool,workItems_task,same]
  | unqueued | unreadable | finalized | sentBack => cases progressed

private theorem taskEnded_simulated {before after : List (ProveTask Proof)} {task : ProveTask Proof}
    {progress : Progress (Stage Proof) ProveResult} {network : Network}
    (queue : Stores deps s.runner.queueDb (fun _ => JobStatus.IsPending)) (found : s.tasks[i]? = some task)
    (pool : s.tasks = before ++ task :: after) (ended : ∀ next, progress ≠ .next next)
    (moved : TaskStep deps s.config task.job s.runner task.stage answer runner progress) :
    Simulated deps s (.task i answer) { s with runner, network, tasks := before ++ after } := by
  obtain ⟨job,current⟩ := task
  cases moved with
  | lost _ _ _ unhandled _ =>
    refine .inr ⟨_,.lost i answer _ found unhandled,?_⟩
    simp [State.ledger,Ledger.step,pool]
  | unqueued absent =>
    refine .inr ⟨_,.unqueued i _ _ found absent,?_⟩
    simp [State.ledger,Ledger.step,pool]
  | unreadable data error result stored read =>
    obtain ⟨status,readable,_⟩ := queue.readable stored
    rw [readable] at read
    cases read
  | started data status stored read =>
    obtain ⟨stage,starts⟩ := (queue.read stored read).starts
    exact absurd starts (ended stage)
  | finalized status =>
    have present : deps.jobKey job ∈ (s.ledger deps).items := by simp [State.ledger,pool,ProveTask.key]
    refine .inr ⟨_,.finish i _ _ (deps.statusCodec.serialize status) found,(if_pos present).trans ?_⟩
    simp only [State.ledger,PdaRunner.moveToFinished,pool,queued_erase,finished_insert,workItems_task,
      ProveTask.key,Multiset.erase_cons_head]
    rfl
  | sentBack =>
    left
    simp [State.ledger,PdaRunner.send,pool,ProveTask.key]
  | _ => exact absurd rfl (ended _)

/-- One step of the service is one operation on the ledger, or none. -/
theorem ledger_step {t : State Proof Encoded Body} {action : Action Proof Body}
    (valid : (validStatuses deps).Holds s) (hashed : (hashKeys deps).Holds s)
    (stepped : s.step deps action = some t) : Simulated deps s action t := by
  cases step_cases stepped with
  | receive => exact .inl (by simp)
  | callNext i fault before thread after runner call found pool moved => exact callNext_simulated found pool moved
  | callPanicked i fault before thread after found pool reading =>
    left
    simp only [State.ledger,pool]
    rw [workItems_quiet _ _ _ _ (by rw [reading]; rfl)]
  | callReturned i fault before thread after runner result found pool moved =>
    have simulated := callReturned_simulated (s.answered ++ [⟨s.config,thread.submission.job deps,result⟩])
      found pool moved
    simpa [Simulated] using simulated
  | taskNext i answer before task after runner stage found pool moved => exact taskNext_simulated found pool moved
  | taskEnded i answer before task after runner progress found pool ended moved =>
    exact taskEnded_simulated valid.shared.queue found pool ended moved
  | received job rest up sent =>
    left
    simp only [State.ledger,sent,workItems_received,workItems_task,List.append_nil]
    rfl
  | stopReceived rest up sent => exact .inl (by simp [State.ledger,sent])
  | shutdown => exact .inl (by simp [State.ledger,PdaRunner.send])
  | exit => exact .inr ⟨_,.exited,by simp [State.ledger,Ledger.step,State.stop,workItems]⟩
  | crash lost found up left =>
    refine .inr ⟨_,.crashed lost,?_⟩
    rw [Ledger.step,ledger_contents,List.getElem?_map,left]
    simp [State.ledger,State.stop,workItems]
  | restarted config jobs down recovered =>
    obtain ⟨noRequests,noTasks⟩ := hashed.idle down
    obtain ⟨_,rfl⟩ := restart_ok hashed.shared recovered
    exact .inr ⟨_,.restarted config,by simp [State.ledger,Ledger.step,workItems,noRequests,noTasks,hashed.flushed down]⟩
  | restartPanicked => exact .inl rfl

end

@[simp] theorem ledger_initial (config : Config) :
    (State.initial config : State Proof Encoded Body).ledger deps = .empty := by
  simp [State.initial,State.ledger,PdaRunner.empty,Ledger.empty,workItems]

/-- A run of the service is a run of the ledger, under any discipline that the guard of the
service implies. -/
theorem ledger_reaches {started guard : State Proof Encoded Body → Action Proof Body → Prop}
    (discipline : Ledger Bytes Encoded → Ledger.Operation Bytes Encoded → Prop) {config : Config}
    {s t : State Proof Encoded Body} (start : Reaches (State.step deps) started (State.initial config) s)
    (run : Reaches (State.step deps) guard s t)
    (implied : ∀ u action operation, guard u action → Performs deps u action operation →
      discipline (u.ledger deps) operation) :
    Reaches Ledger.step discipline (s.ledger deps) (t.ledger deps) := by
  have known (u) (later : Reaches (State.step deps) guard s u) :
      (validStatuses deps).Holds u ∧ (hashKeys deps).Holds u := by
    have whole : Reaches (State.step deps) Free (State.initial config) u :=
      (start.weaken fun _ _ _ => trivial).trans (later.weaken fun _ _ _ => trivial)
    exact ⟨validStatuses_reaches whole,hashKeys_reaches whole⟩
  apply run.simulates (State.ledger deps) (Next Ledger.step discipline) known
  intro u action v invariants allowed stepped
  obtain ⟨valid,hashed⟩ := invariants
  rcases ledger_step valid hashed stepped with same | ⟨operation,performed,moved⟩
  · exact .inl same
  · exact .inr ⟨operation,implied u action operation allowed performed,moved⟩

/-- What disciplined operations keep of an empty ledger holds of the service's. -/
theorem ledger_invariant {guard : State Proof Encoded Body → Action Proof Body → Prop}
    (discipline : Ledger Bytes Encoded → Ledger.Operation Bytes Encoded → Prop)
    {inv : Ledger Bytes Encoded → Prop} {config : Config} {s : State Proof Encoded Body}
    (run : Reaches (State.step deps) guard (State.initial config) s)
    (implied : ∀ u action operation, guard u action → Performs deps u action operation →
      discipline (u.ledger deps) operation)
    (preserved : ∀ before operation after, inv before → discipline before operation →
      before.step operation = some after → inv after)
    (initial : inv .empty) : inv (s.ledger deps) := by
  have start : Reaches (State.step deps) Free (State.initial config) (State.initial config) := .refl
  have moves := ledger_reaches discipline start run implied
  rw [ledger_initial] at moves
  exact moves.invariant preserved initial

end PdaProxy
