import PdaProxy.Orphans
import PdaProxy.Semantics.Tracking
import Mathlib.Data.List.InsertIdx

/-! What a shutdown finishes. The worker takes its messages in the order they were sent, so
every job sent before the shutdown message has its task by then; but the worker keeps no
handle of its tasks, and exits without waiting for them. -/
namespace PdaProxy
open PdaProxy.Semantics.Serialization PdaProxy.Semantics.Transition PdaProxy.Semantics.Tracking PdaProxy.Semantics.Pool

variable {Proof Encoded Body : Type}

/-- How a task ended: its job was finalized, by itself or before it began, or handed back to
the worker, or neither. -/
inductive Ending
  | finalized
  | handedBack
  | dropped
deriving DecidableEq

structure Closing (Proof : Type) where
  position : Nat
  ending : Ending
  answer : Answer Proof

/-- The messages sent since a process started and how many of them the worker has received;
by their positions among them, the jobs whose tasks run, as the tasks are listed, and those
whose tasks have ended. -/
structure Worklog (Proof : Type) where
  sent : List (Option Job)
  received : Nat
  running : List Nat
  closed : List (Closing Proof)

def Worklog.opened (channel : List (Option Job)) : Worklog Proof := ⟨channel,0,[],[]⟩

def Worklog.positions (log : Worklog Proof) : List Nat := log.running ++ log.closed.map Closing.position

section
variable (deps : Dependencies Proof Encoded Body)

def State.ending (s : State Proof Encoded Body) (task : ProveTask Proof) (answer : Answer Proof) : Ending :=
  match task.stage,answer with
  | .finalize _,.storage none => .finalized
  | .sendBack,.storage none => .handedBack
  | .readQueue,.storage none => if task.key deps ∈ s.runner.finishedDb then .finalized else .dropped
  | _,_ => .dropped

def State.closing (s : State Proof Encoded Body) (i : Nat) (answer : Answer Proof) (log : Worklog Proof) :
    List (Closing Proof) :=
  match s.tasks[i]?,log.running[i]? with
  | some task,some position => [⟨position,s.ending deps task answer,answer⟩]
  | _,_ => []

def State.worklog (s : State Proof Encoded Body) (action : Action Proof Body) (t : State Proof Encoded Body)
    (log : Worklog Proof) : Worklog Proof :=
  let sent := log.sent ++ t.runner.channel.drop s.runner.channel.length
  match action with
  | .receive _ | .request _ _ | .shutdown => { log with sent }
  | .task i answer =>
    if t.tasks.length < s.tasks.length then
      { log with sent, running := log.running.eraseIdx i, closed := log.closed ++ s.closing deps i answer log }
    else { log with sent }
  | .recv =>
    match s.runner.channel with
    | some _ :: _ => { log with received := log.received + 1, running := log.running ++ [log.received] }
    | _ => { log with received := log.received + 1 }
  | .exit | .crash _ | .restart _ => .opened t.runner.channel

end

/-- A task holds a proof or a request ID that it has not recorded yet. -/
def Stage.Obtained : Stage Proof → Prop
  | .finalize (.zkProofFinished _) | .updateStatus (.remoteZkProofPending _) => True
  | _ => False

/-- What was started before the shutdown message is finished. -/
structure Graceful (s : State Proof Encoded Body) (log : Worklog Proof) : Prop where
  ended : ∀ position job, log.sent[position]? = some (some job) → none ∉ log.sent.take position →
    position < log.received ∧ ∃ closing ∈ log.closed, closing.position = position ∧ closing.ending ≠ .dropped
  uncut : ∀ task ∈ s.tasks, ¬ task.stage.Obtained

/-- The worker takes a shutdown message when no task runs, and failures are finalized. -/
def Drained (deps : Dependencies Proof Encoded Body) (s : State Proof Encoded Body) : Action Proof Body → Prop
  | .recv => s.runner.channel.head? = some none → s.tasks = []
  | .task _ answer => answer.Handled deps s.config
  | .receive _ | .request _ _ | .shutdown | .exit | .crash _ | .restart _ => True

instance (deps : Dependencies Proof Encoded Body) (s : State Proof Encoded Body) : DecidablePred (Drained deps s)
  | .recv => inferInstanceAs (Decidable (s.runner.channel.head? = some none → s.tasks = []))
  | .task _ answer => inferInstanceAs (Decidable (answer.Handled deps s.config))
  | .receive _ | .request _ _ | .shutdown | .exit | .crash _ | .restart _ => inferInstanceAs (Decidable True)

structure Logged (deps : Dependencies Proof Encoded Body) (s : State Proof Encoded Body) (log : Worklog Proof) : Prop where
  channel : s.runner.channel = log.sent.drop log.received
  bounded : log.received ≤ log.sent.length
  running : log.running.map (log.sent[·]?) = s.tasks.map fun task => some (some task.job)
  received : ∀ position ∈ log.positions, position < log.received
  jobs : ∀ position ∈ log.positions, ∃ job, log.sent[position]? = some (some job)
  distinct : log.positions.Nodup
  covered : ∀ position < log.received, ∀ job, log.sent[position]? = some (some job) → position ∈ log.positions
  handled : ∀ closing ∈ log.closed, closing.ending = .dropped ↔ ¬ closing.answer.Handled deps s.config
  looping : s.process = .running → none ∉ log.sent.take log.received
  stopping : s.process = .stopping → ∃ position, log.received = position + 1 ∧
    log.sent[position]? = some none ∧ none ∉ log.sent.take position

variable {deps : Dependencies Proof Encoded Body} {s t : State Proof Encoded Body} {log : Worklog Proof}

theorem logged_opened (idle : t.tasks = []) (ended : t.process ≠ .stopping) :
    Logged deps t (.opened t.runner.channel) where
  channel := rfl
  bounded := Nat.zero_le _
  running := by simp [Worklog.opened,idle]
  received := by simp [Worklog.opened,Worklog.positions]
  jobs := by simp [Worklog.opened,Worklog.positions]
  distinct := by simp [Worklog.opened,Worklog.positions]
  covered := by simp [Worklog.opened]
  handled := by simp [Worklog.opened]
  looping := by simp [Worklog.opened]
  stopping same := absurd same ended

theorem Logged.sends (logged : Logged deps s log) (sameProcess : t.process = s.process) (sameConfig : t.config = s.config)
    (sameJobs : t.tasks.map ProveTask.job = s.tasks.map ProveTask.job)
    (grown : s.runner.channel <+: t.runner.channel) :
    Logged deps t { log with sent := log.sent ++ t.runner.channel.drop s.runner.channel.length } := by
  obtain ⟨channel,bounded,running,received,jobs,distinct,covered,handled,looping,stopping⟩ := logged
  generalize new : t.runner.channel.drop s.runner.channel.length = added
  have whole : t.runner.channel = s.runner.channel ++ added := by
    rw [← new]
    exact (List.prefix_iff_eq_append.mp grown).symm
  have old : ∀ position < log.received, (log.sent ++ added)[position]? = log.sent[position]? :=
    fun position before => List.getElem?_append_left (by omega)
  have start : ∀ position ≤ log.received, (log.sent ++ added).take position = log.sent.take position :=
    fun position within => List.take_append_of_le_length (by omega)
  refine ⟨?_,?_,?_,received,?_,distinct,?_,?_,?_,?_⟩
  · rw [whole,channel]
    exact (List.drop_append_of_le_length bounded).symm
  · simp only [List.length_append]
    omega
  · have messages := congrArg (List.map fun job => some (some job)) sameJobs
    simp only [List.map_map,Function.comp_def] at messages
    rw [messages,← running]
    exact List.map_congr_left fun position member => old position (received position (List.mem_append_left _ member))
  · intro position member
    rw [old position (received position member)]
    exact jobs position member
  · intro position before job at_
    exact covered position before job (old position before ▸ at_)
  · rw [sameConfig]
    exact handled
  · intro up
    rw [start _ (le_refl _)]
    exact looping (sameProcess ▸ up)
  · intro down
    obtain ⟨position,next,message,before⟩ := stopping (sameProcess ▸ down)
    refine ⟨position,next,?_,?_⟩
    · rw [old position (by omega)]
      exact message
    · rw [start position (by omega)]
      exact before

theorem Logged.closes (logged : Logged deps s log) {i position : Nat} (found : log.running[i]? = some position)
    (tasks : t.tasks = s.tasks.eraseIdx i) (sameChannel : t.runner.channel = s.runner.channel)
    (sameProcess : t.process = s.process) (sameConfig : t.config = s.config) {ending : Ending} {answer : Answer Proof}
    (dropped : ending = .dropped ↔ ¬ answer.Handled deps s.config) :
    Logged deps t { log with
      running := log.running.eraseIdx i
      closed := log.closed ++ [⟨position,ending,answer⟩] } := by
  obtain ⟨channel,bounded,running,received,jobs,distinct,covered,handled,looping,stopping⟩ := logged
  obtain ⟨inside,rfl⟩ := List.getElem?_eq_some_iff.mp found
  -- The position has only moved from the running to the closed ones.
  have moved : List.Perm (log.running.eraseIdx i ++
      (log.closed ++ [(⟨log.running[i],ending,answer⟩ : Closing Proof)]).map Closing.position) log.positions := by
    rw [List.map_append,← List.append_assoc]
    exact List.perm_append_comm.trans ((List.getElem_cons_eraseIdx_perm inside).append_right _)
  refine ⟨sameChannel.trans channel,bounded,?_,?_,?_,moved.nodup_iff.mpr distinct,?_,?_,?_,?_⟩
  · rw [tasks,← List.eraseIdx_map,← List.eraseIdx_map,running]
  · exact fun position member => received position (moved.mem_iff.mp member)
  · exact fun position member => jobs position (moved.mem_iff.mp member)
  · exact fun position before job message => moved.mem_iff.mpr (covered position before job message)
  · rw [sameConfig]
    intro closing member
    rcases List.mem_append.mp member with old | new
    · exact handled closing old
    · cases List.mem_singleton.mp new
      exact dropped
  · exact fun up => looping (sameProcess ▸ up)
  · exact fun down => stopping (sameProcess ▸ down)

theorem Logged.next (logged : Logged deps s log) {message : Option Job} {rest : List (Option Job)}
    (sent : s.runner.channel = message :: rest) :
    log.received < log.sent.length ∧ log.sent[log.received]? = some message ∧ rest = log.sent.drop (log.received + 1) := by
  have head := logged.channel
  rw [sent] at head
  have inside : log.received < log.sent.length := by
    by_contra beyond
    rw [List.drop_of_length_le (by omega)] at head
    cases head
  rw [List.drop_eq_getElem_cons inside] at head
  obtain ⟨same,later⟩ := List.cons.inj head
  exact ⟨inside,by rw [List.getElem?_eq_getElem inside,same],later⟩

theorem Logged.receives (logged : Logged deps s log) (up : s.process = .running) {job : Job}
    {rest : List (Option Job)} (sent : s.runner.channel = some job :: rest) :
    Logged deps { s with runner := { s.runner with channel := rest }, tasks := s.tasks ++ [⟨job,.readQueue⟩] }
      { log with received := log.received + 1, running := log.running ++ [log.received] } := by
  obtain ⟨inside,message,later⟩ := logged.next sent
  obtain ⟨channel,bounded,running,received,jobs,distinct,covered,handled,looping,stopping⟩ := logged
  have moved : List.Perm ((log.running ++ [log.received]) ++ log.closed.map Closing.position)
      (log.received :: log.positions) := by
    rw [List.append_assoc]
    exact List.perm_middle
  refine ⟨later,inside,?_,?_,?_,?_,?_,handled,?_,?_⟩
  · simp only [List.map_append,running,List.map_cons,List.map_nil,message]
  · intro position member
    rcases List.mem_cons.mp (moved.mem_iff.mp member) with rfl | old
    · exact Nat.lt_succ_self _
    · exact Nat.lt_succ_of_lt (received position old)
  · intro position member
    rcases List.mem_cons.mp (moved.mem_iff.mp member) with rfl | old
    · exact ⟨job,message⟩
    · exact jobs position old
  · exact moved.nodup_iff.mpr (List.nodup_cons.mpr ⟨fun member => Nat.lt_irrefl _ (received _ member),distinct⟩)
  · intro position before other at_
    apply moved.mem_iff.mpr
    rcases Nat.lt_succ_iff_lt_or_eq.mp before with old | rfl
    · exact List.mem_cons_of_mem _ (covered position old other at_)
    · exact List.mem_cons_self
  · intro _
    rw [List.take_add_one,message]
    simpa using looping up
  · intro down
    cases up.symm.trans down

theorem Logged.stops (logged : Logged deps s log) (up : s.process = .running) {rest : List (Option Job)}
    (sent : s.runner.channel = none :: rest) :
    Logged deps { s with process := .stopping, runner := { s.runner with channel := rest } }
      { log with received := log.received + 1 } := by
  obtain ⟨inside,message,later⟩ := logged.next sent
  obtain ⟨channel,bounded,running,received,jobs,distinct,covered,handled,looping,stopping⟩ := logged
  refine ⟨later,inside,running,fun position member => Nat.lt_succ_of_lt (received position member),jobs,distinct,?_,
    handled,(fun up => by cases up),fun _ => ⟨_,rfl,message,looping up⟩⟩
  intro position before job at_
  rcases Nat.lt_succ_iff_lt_or_eq.mp before with old | rfl
  · exact covered position old job at_
  · cases message.symm.trans at_

theorem CallStep.extends {config : Config} {job : Job} {fault : Fault} {runner after : PdaRunner Encoded}
    {call : Call Proof} {progress : Progress (Call Proof) (CallResult Proof)}
    (moved : CallStep deps config job fault runner call after progress) : runner.channel <+: after.channel := by
  cases moved with
  | resent | sent => exact List.prefix_append _ _
  | _ => exact List.prefix_rfl

theorem TaskStep.extends {config : Config} {job : Job} {runner after : PdaRunner Encoded}
    {stage : Stage Proof} {answer : Answer Proof} {progress : Progress (Stage Proof) ProveResult}
    (moved : TaskStep deps config job runner stage answer after progress) : runner.channel <+: after.channel := by
  cases moved with
  | sentBack => exact List.prefix_append _ _
  | _ => exact List.prefix_rfl

theorem State.ending_kept {task : ProveTask Proof} {answer : Answer Proof}
    (kept : s.ending deps task answer ≠ .dropped) : answer = .storage none := by
  unfold State.ending at kept
  split at kept
  next => rfl
  next => rfl
  next => rfl
  next => exact absurd rfl kept

theorem ending_dropped {i : Nat} {answer : Answer Proof} {task : ProveTask Proof} {runner : PdaRunner Encoded}
    {progress : Progress (Stage Proof) ProveResult} (valid : (validStatuses deps).Holds s)
    (registered : (s.ledger deps).Registered) (found : s.tasks[i]? = some task)
    (moved : TaskStep deps s.config task.job s.runner task.stage answer runner progress)
    (final : ∀ next, progress ≠ .next next) :
    s.ending deps task answer = .dropped ↔ ¬ answer.Handled deps s.config := by
  cases moved.ends valid registered (List.mem_of_getElem? found) final with
  | lost _ unhandled =>
    refine ⟨fun _ => unhandled,fun _ => ?_⟩
    by_contra kept
    cases State.ending_kept kept
    exact unhandled rfl
  | found reading finished => simp [State.ending,reading,finished,Answer.Handled]
  | finalized status writing => simp [State.ending,writing,Answer.Handled]
  | sentBack sending => simp [State.ending,sending,Answer.Handled]

theorem taskStep_cases {i : Nat} {answer : Answer Proof} (moved : s.step deps (.task i answer) = some t) :
    ∃ task runner progress, s.tasks[i]? = some task ∧
      TaskStep deps s.config task.job s.runner task.stage answer runner progress ∧
      t = { s with
        runner
        network := s.network.observe deps s.config task.job task.stage answer
        tasks := match progress with
          | .next stage => s.tasks.set i { task with stage }
          | .returned _ | .panicked => s.tasks.eraseIdx i } := by
  obtain ⟨task,found,made⟩ := Option.bind_eq_some_iff.mp moved
  unfold State.taskStep at made
  split at made
  next => cases made
  next runner progress proved =>
    refine ⟨task,runner,progress,found,prove_step proved,?_⟩
    cases progress <;> exact (Option.some.inj made).symm

theorem logged_task {i : Nat} {answer : Answer Proof} (valid : (validStatuses deps).Holds s)
    (registered : (s.ledger deps).Registered) (logged : Logged deps s log)
    (stepped : s.step deps (.task i answer) = some t) : Logged deps t (s.worklog deps (.task i answer) t log) := by
  obtain ⟨task,runner,progress,found,moved,rfl⟩ := taskStep_cases stepped
  obtain ⟨before,after,pool,replaced,removed⟩ := split_at found
  cases progress with
  | next stage =>
    have same : (s.tasks.set i { task with stage }).length = s.tasks.length := List.length_set
    simp only [State.worklog,same,Nat.lt_irrefl,if_false]
    refine logged.sends rfl rfl ?_ moved.extends
    rw [replaced,pool,List.map_append,List.map_append]
    rfl
  | returned | panicked =>
    have dropped := ending_dropped valid registered found moved (fun _ same => by cases same)
    obtain ⟨inside,_⟩ := List.getElem?_eq_some_iff.mp found
    have shorter : (s.tasks.eraseIdx i).length < s.tasks.length := by
      rw [List.length_eraseIdx_of_lt inside]
      omega
    have width : log.running.length = s.tasks.length := by simpa using congrArg List.length logged.running
    have position : log.running[i]? = some log.running[i] := List.getElem?_eq_getElem (by omega)
    have sent : Logged deps { s with runner } { log with
        sent := log.sent ++ runner.channel.drop s.runner.channel.length } := logged.sends rfl rfl rfl moved.extends
    simp only [State.worklog,shorter,if_true,State.closing,found,position]
    refine sent.closes position ?_ ?_ ?_ ?_ dropped <;> rfl

theorem logged_step {action : Action Proof Body} (valid : (validStatuses deps).Holds s)
    (registered : (s.ledger deps).Registered) (logged : Logged deps s log)
    (stepped : s.step deps action = some t) : Logged deps t (s.worklog deps action t log) := by
  cases action with
  | task i answer => exact logged_task valid registered logged stepped
  | receive req =>
    cases step_cases stepped with
    | receive _ up => exact logged.sends (by simp) (by simp) (by simp) (by simp)
  | request i fault =>
    cases step_cases stepped with
    | callNext _ _ before thread after runner call found pool moved => exact logged.sends rfl rfl rfl moved.extends
    | callPanicked => exact logged.sends rfl rfl rfl List.prefix_rfl
    | callReturned _ _ before thread after runner result found pool moved =>
      exact logged.sends (by simp) (by simp) (by simp) (by simpa using moved.extends)
  | shutdown =>
    cases step_cases stepped with
    | shutdown up => exact logged.sends rfl rfl rfl (List.prefix_append _ _)
  | recv =>
    cases step_cases stepped with
    | received job rest up sent =>
      simp only [State.worklog,sent]
      exact logged.receives up sent
    | stopReceived rest up sent =>
      simp only [State.worklog,sent]
      exact logged.stops up sent
  | exit =>
    cases step_cases stepped with
    | exit ending => exact logged_opened rfl (by simp [State.stop])
  | crash =>
    cases step_cases stepped with
    | crash up => exact logged_opened rfl (by simp [State.stop])
  | restart config =>
    cases step_cases stepped with
    | restarted _ jobs down recovered => exact logged_opened (valid.idle down).2 (by simp)
    | restartPanicked _ error down panicked => exact logged_opened (valid.idle down).2 (by simp [down])

abbrev Logs (deps : Dependencies Proof Encoded Body) (guard : State Proof Encoded Body → Action Proof Body → Prop)
    (config : Config) (history : State Proof Encoded Body × Worklog Proof) : Prop :=
  Reaches (tracked (State.step deps) (State.worklog deps)) (fun history action => guard history.1 action)
    (State.initial config,.opened []) history

section
variable {guard : State Proof Encoded Body → Action Proof Body → Prop} {config : Config}
  {history : State Proof Encoded Body × Worklog Proof}

theorem Logs.forget (run : Logs deps guard config history) :
    Reaches (State.step deps) guard (State.initial config) history.1 :=
  Semantics.Tracking.forget (fun _ _ _ allowed => allowed) run

theorem Logs.logged (run : Logs deps guard config history) : Logged deps history.1 history.2 := by
  apply run.invariant_with (fun _ reached => Logs.forget reached)
  · intro before action after reached logged _ moved
    obtain ⟨stepped,recorded⟩ := tracked_eq_some.mp moved
    rw [recorded]
    exact logged_step (validStatuses_reaches reached) (ledger_registered reached) logged stepped
  · exact logged_opened rfl (by simp [State.initial])

/-- A process that stops has finished what was started before the shutdown message where no
task is left and no task had a failure that is only logged, and only there. -/
theorem Logged.graceful_iff (logged : Logged deps s log) (down : s.process = .stopping) :
    Graceful s log ↔ s.tasks = [] ∧ ∀ closing ∈ log.closed, closing.answer.Handled deps s.config := by
  obtain ⟨last,next,message,before⟩ := logged.stopping down
  obtain ⟨_,closedOnce,apart⟩ := List.nodup_append.mp logged.distinct
  have width : log.running.length = s.tasks.length := by simpa using congrArg List.length logged.running
  constructor
  · intro graceful
    -- The jobs that have a task are just those sent before the message that stopped the worker.
    have closed : ∀ position ∈ log.positions, ∃ closing ∈ log.closed,
        closing.position = position ∧ closing.ending ≠ .dropped := by
      intro position member
      obtain ⟨job,sent⟩ := logged.jobs position member
      have bound : position ≤ last := by
        have inside := logged.received position member
        omega
      have early : none ∉ log.sent.take position :=
        fun earlier => before ((List.take_sublist_take_left bound).subset earlier)
      exact (graceful.ended position job sent early).2
    constructor
    · have idle : log.running = [] := by
        apply List.eq_nil_iff_forall_not_mem.mpr
        intro position member
        obtain ⟨closing,listed,same,_⟩ := closed position (List.mem_append_left _ member)
        exact apart position member _ (List.mem_map_of_mem listed) same.symm
      exact List.length_eq_zero_iff.mp (by rw [← width,idle,List.length_nil])
    · intro closing member
      by_contra unhandled
      have position : closing.position ∈ log.positions := List.mem_append_right _ (List.mem_map_of_mem member)
      obtain ⟨other,listed,same,kept⟩ := closed _ position
      obtain rfl := List.inj_on_of_nodup_map closedOnce listed member same
      exact kept ((logged.handled _ member).mpr unhandled)
  · intro drained
    obtain ⟨idle,handled⟩ := drained
    refine ⟨?_,by simp [idle]⟩
    intro position job sent unstopped
    have inside : position < log.received := by
      by_contra beyond
      apply unstopped
      apply List.mem_of_getElem?
      rw [List.getElem?_take_of_lt (by omega : last < position),message]
    have noneRuns : log.running = [] := List.length_eq_zero_iff.mp (by rw [width,idle,List.length_nil])
    have opened := logged.covered position inside job sent
    rw [Worklog.positions,noneRuns,List.nil_append] at opened
    obtain ⟨closing,member,same⟩ := List.mem_map.mp opened
    exact ⟨inside,closing,member,same,fun dropped => (logged.handled closing member).mp dropped (handled closing member)⟩

end

theorem config_step {action : Action Proof Body} (stepped : s.step deps action = some t)
    (kept : ∀ config, action ≠ .restart config) : t.config = s.config := by
  cases step_cases stepped with
  | restarted config => exact absurd rfl (kept config)
  | receive => simp
  | callReturned => simp
  | _ => rfl

theorem closed_step {action : Action Proof Body} (drained : Drained deps s action)
    (stepped : s.step deps action = some t) (handled : ∀ closing ∈ log.closed, closing.answer.Handled deps s.config) :
    ∀ closing ∈ (s.worklog deps action t log).closed, closing.answer.Handled deps t.config := by
  cases action with
  | task i answer =>
    rw [config_step stepped (fun _ same => by cases same)]
    intro closing member
    simp only [State.worklog] at member
    split at member
    next ended =>
      rcases List.mem_append.mp member with old | new
      · exact handled closing old
      · unfold State.closing at new
        split at new
        next => cases List.mem_singleton.mp new; exact drained
        next => cases new
    next => exact handled closing member
  | receive | request | shutdown =>
    rw [config_step stepped (fun _ same => by cases same)]
    exact handled
  | recv =>
    rw [config_step stepped (fun _ same => by cases same)]
    simp only [State.worklog]
    split <;> exact handled
  | exit | crash | restart =>
    intro closing member
    cases member

theorem drained_step {action : Action Proof Body} (drained : Drained deps s action)
    (stepped : s.step deps action = some t) (idle : s.process = .stopping → s.tasks = []) :
    t.process = .stopping → t.tasks = [] := by
  cases step_cases stepped with
  | receive | callReturned => simpa using idle
  | callNext | callPanicked | shutdown | restartPanicked => exact idle
  | taskNext _ _ before task after _ _ _ pool =>
    intro down
    simp [pool] at idle
    exact absurd down idle
  | taskEnded _ _ before task after _ _ _ pool =>
    intro down
    simp [pool] at idle
    exact absurd down idle
  | received job rest up sent =>
    intro down
    cases up.symm.trans down
  | stopReceived rest up sent => exact fun _ => drained (by simp [sent])
  | exit | crash => exact fun _ => rfl
  | restarted =>
    intro down
    cases down

section
variable {config : Config} {history : State Proof Encoded Body × Worklog Proof}

theorem Logs.drained (run : Logs deps (Drained deps) config history) (down : history.1.process = .stopping) :
    history.1.tasks = [] := by
  have alone := run.forget
  exact alone.invariant (fun _ _ _ idle drained stepped => drained_step drained stepped idle)
    (fun down => by cases down) down

theorem Logs.handled (run : Logs deps (Drained deps) config history) :
    ∀ closing ∈ history.2.closed, closing.answer.Handled deps history.1.config := by
  apply run.invariant
  · intro before action after handled drained moved
    obtain ⟨stepped,recorded⟩ := tracked_eq_some.mp moved
    rw [recorded]
    exact closed_step drained stepped handled
  · intro closing member
    cases member

end

/-- At process::exit, which the worker reaches from any state in which it has taken a shutdown
message, what was started is finished just where no task is left and none had a failure that
is only logged; so it is in every run in which the worker takes the message after its last
task has ended and all failures are finalized. -/
theorem shutdown_graceful_iff (config : Config) (s : State Proof Encoded Body) (log : Worklog Proof)
    (stopping : s.process = .stopping) :
    (Logs deps Free config (s,log) → (Graceful s log ↔ s.tasks = [] ∧
      ∀ closing ∈ log.closed, closing.answer.Handled deps s.config)) ∧
    (Logs deps (Drained deps) config (s,log) → Graceful s log) := by
  constructor
  · intro run
    exact run.logged.graceful_iff stopping
  · intro run
    exact (run.logged.graceful_iff stopping).mpr ⟨run.drained stopping,run.handled⟩

namespace Tabulated

def logged (actions : List (Action Bytes Json)) : State Bytes (JobStatus Bytes) Json × Worklog Bytes :=
  final (tracked (State.step dependencies) (State.worklog dependencies)) (.initial localConfig,.opened []) actions

theorem logged_reaches {guard : State Bytes (JobStatus Bytes) Json → Action Bytes Json → Prop}
    (actions : List (Action Bytes Json))
    (executes : Executes (tracked (State.step dependencies) (State.worklog dependencies))
      (fun history action => guard history.1 action) (.initial localConfig,.opened []) actions) :
    Logs dependencies guard localConfig (logged actions) :=
  final_reaches _ actions executes

/-- The shutdown message comes after the job's proof is stored. -/
def finishPlain : List (Action Bytes Json) := submitPlain 0 ++ provePlain zeroKey zeroNonce ++ [.shutdown,.recv]

/-- The worker takes the shutdown message while the job's task holds its proof. -/
def cutPlain : List (Action Bytes Json) :=
  submitPlain 0 ++ [.recv,.task 0 (.storage none),.task 0 (.proved zeroNonce (.ok (plainProof zeroKey zeroNonce))),
    .shutdown,.recv]

end Tabulated

theorem shutdown_graceful_iff_finished :
    Graceful (Tabulated.logged Tabulated.finishPlain).1 (Tabulated.logged Tabulated.finishPlain).2 :=
  (shutdown_graceful_iff Tabulated.localConfig _ (Tabulated.logged Tabulated.finishPlain).2 (by decide +kernel)).2
    (Tabulated.logged_reaches Tabulated.finishPlain (by decide +kernel))

/-- The process exits between the prover's answer and the transaction that stores it: the
proof is lost, and its job stays in the queue. -/
theorem shutdown_cuts_off_proof :
    let history := Tabulated.logged Tabulated.cutPlain
    Logs Tabulated.dependencies Free Tabulated.localConfig history ∧ history.1.process = .stopping ∧
      ¬ Graceful history.1 history.2 ∧ ∃ stopped, history.1.step Tabulated.dependencies .exit = some stopped ∧
        stopped.tasks = [] ∧ Tabulated.plainKey ∉ stopped.runner.finishedDb := by
  refine ⟨Tabulated.logged_reaches Tabulated.cutPlain (by decide +kernel),by decide +kernel,?_,_,rfl,rfl,by decide +kernel⟩
  intro graceful
  have running : (Tabulated.logged Tabulated.cutPlain).1.tasks[0]? = some ⟨Tabulated.dependencies.jobOf [1,2,3],
      .finalize (.zkProofFinished (Tabulated.plainProof Tabulated.zeroKey Tabulated.zeroNonce))⟩ := rfl
  exact graceful.uncut _ (List.mem_of_getElem? running) trivial

end PdaProxy
