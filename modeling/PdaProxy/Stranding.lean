import PdaProxy.Completion

/-! Jobs that nobody works on any more: a task that ended with an error `prove` only logs leaves
its job in the queue, and so does a call whose send failed. No run brings such a job a result
unless a crash takes its entry away, as every call finds it pending and no later process gets
past the queue. A queued job that somebody has in hand can be finished. -/
namespace PdaProxy
open PdaProxy.Semantics PdaProxy.Semantics.Serialization PdaProxy.Semantics.Transition PdaProxy.Semantics.Pool
  PdaProxy.Semantics.Quiescence

variable {Proof Encoded Body : Type}

/-- A call that writes or sends its job in its next operation. -/
def Call.drives : Call Proof → Bool
  | .retryTransaction _ _ | .retrySend _ | .insert _ | .send => true
  | .readFinished | .readQueue => false

inductive InHand (deps : Dependencies Proof Encoded Body) (s : State Proof Encoded Body) (key : Bytes) : Prop
  | waiting (job) (sent : some job ∈ s.runner.channel) (same : deps.jobKey job = key)
  | running (task) (member : task ∈ s.tasks) (same : task.key deps = key)
  | calling (thread) (member : thread ∈ s.requests) (drives : thread.call.drives = true) (same : thread.key deps = key)

structure Stranded (deps : Dependencies Proof Encoded Body) (s : State Proof Encoded Body) (key : Bytes) : Prop where
  queued : key ∈ s.runner.queueDb
  unfinished : key ∉ s.runner.finishedDb
  dropped : ¬ InHand deps s key

/-- Whatever a crash loses, the job is queued and has no result on the disk. -/
def LeavesQueued (key : Bytes) (s : State Proof Encoded Body) : Action Proof Body → Prop
  | .crash lost => ∀ found ∈ s.runner.contents[lost]?, key ∈ found.1 ∧ key ∉ found.2
  | .receive _ | .request _ _ | .recv | .task _ _ | .shutdown | .exit | .restart _ => True

/-- The calls for a key that were answered on the way from one state to another got no proof. -/
def NoProof (deps : Dependencies Proof Encoded Body) (key : Bytes) (s t : State Proof Encoded Body) : Prop :=
  ∃ answers, t.answered = s.answered ++ answers ∧
    ∀ answered ∈ answers, deps.jobKey answered.job = key → ∀ proof, answered.result ≠ .ok (some proof)

variable {deps : Dependencies Proof Encoded Body} {s t : State Proof Encoded Body} {key : Bytes}

theorem leavesQueued_internal {action : Action Proof Body} (internal : action.Internal) : LeavesQueued key s action := by
  cases action with
  | receive | shutdown | crash | restart => exact internal.elim
  | request | recv | task | exit => trivial

theorem InHand.imp (hand : InHand deps t key)
    (message : ∀ job, some job ∈ t.runner.channel → deps.jobKey job = key → some job ∈ s.runner.channel)
    (tasks : ∀ task ∈ t.tasks, task.key deps = key → ∃ other ∈ s.tasks, other.key deps = key)
    (requests : ∀ thread ∈ t.requests, thread.call.drives = true → thread.key deps = key → thread ∈ s.requests) :
    InHand deps s key := by
  cases hand with
  | waiting job sent same => exact .waiting job (message job sent same) same
  | running task member same =>
    obtain ⟨other,old,own⟩ := tasks task member same
    exact .running other old own
  | calling thread member drives same => exact .calling thread (requests thread member drives same) drives same

section
variable {config : Config} {job : Job} {runner after : PdaRunner Encoded}

/-- A call that finds its job queued and without a result writes nothing and answers no proof. -/
theorem CallStep.finds_queued {fault : Fault} {call : Call Proof} {progress : Progress (Call Proof) (CallResult Proof)}
    (moved : CallStep deps config job fault runner call after progress) (queued : deps.jobKey job ∈ runner.queueDb)
    (unfinished : deps.jobKey job ∉ runner.finishedDb) (idle : call.drives = false) :
    after = runner ∧ (∀ next, progress = .next next → next.drives = false) ∧
      ∀ proof, progress ≠ .returned (.ok (some proof)) := by
  have absent := AList.lookup_eq_none.mpr unfinished
  cases moved with
  | finished data proof stored | retryable data error retryStatus stored => cases absent.symm.trans stored
  | unqueued status missing => exact absurd queued (AList.lookup_eq_none.mp missing)
  | retried | resent | inserted | sent => cases idle
  | unfinished => exact ⟨rfl,fun _ same => (by cases same; rfl),by simp⟩
  | failed | panicked | pending => exact ⟨rfl,by simp,by simp⟩

end

theorem Stranded.kept (stranded : Stranded deps s key) (queue : key ∈ s.runner.queueDb → key ∈ t.runner.queueDb)
    (finished : key ∈ t.runner.finishedDb → key ∈ s.runner.finishedDb) (hand : InHand deps t key → InHand deps s key) :
    Stranded deps t key :=
  ⟨queue stranded.queued,fun result => stranded.unfinished (finished result),fun held => stranded.dropped (hand held)⟩

theorem inHand_deliver {origin : IncomingRequest Body} {inbound : Inbound Body}
    (hand : InHand deps (s.deliver origin inbound) key) : InHand deps s key := by
  refine hand.imp (fun _ sent _ => by simpa using sent) (fun task member same => ⟨task,by simpa using member,same⟩)
    fun thread member drives _ => ?_
  cases inbound with
  | done result => exact member
  | encrypt submission =>
    rcases List.mem_append.mp member with old | new
    · exact old
    · obtain rfl := List.mem_singleton.mp new
      cases drives

theorem InHand.deliver {origin : IncomingRequest Body} {inbound : Inbound Body} (hand : InHand deps s key) :
    InHand deps (s.deliver origin inbound) key := by
  refine hand.imp (fun _ sent _ => by simpa using sent) (fun task member same => ⟨task,by simpa using member,same⟩)
    fun thread member _ _ => ?_
  cases inbound with
  | done result => exact member
  | encrypt submission => exact List.mem_append_left _ member

/-- A step for another job. -/
theorem Stranded.worked (stranded : Stranded deps s key) {runner : PdaRunner Encoded} {job : Job} (network : Network)
    {tasks : List (ProveTask Proof)} (different : deps.jobKey job ≠ key)
    (queue : key ∈ runner.queueDb ↔ key ∈ s.runner.queueDb) (finished : key ∈ runner.finishedDb ↔ key ∈ s.runner.finishedDb)
    (channel : ∀ other, some other ∈ runner.channel → some other ∈ s.runner.channel ∨ other = job)
    (left : ∀ task ∈ tasks, task ∈ s.tasks ∨ task.job = job) : Stranded deps { s with runner, network, tasks } key := by
  refine stranded.kept queue.mpr finished.mp fun hand => hand.imp ?_ ?_ fun _ member _ _ => member
  · intro other sent same
    exact (channel other sent).resolve_right fun own => different (own ▸ same)
  · intro task member same
    refine ⟨task,(left task member).resolve_right fun own => different ?_,same⟩
    rw [← own]
    exact same

/-- What an operation of a call leaves of a stranded job. -/
theorem Stranded.called (stranded : Stranded deps s key) {before after : List (RequestThread Proof Body)}
    {thread : RequestThread Proof Body} {fault : Fault} {runner : PdaRunner Encoded}
    {progress : Progress (Call Proof) (CallResult Proof)} (pool : s.requests = before ++ thread :: after)
    (moved : CallStep deps s.config (thread.submission.job deps) fault s.runner thread.call runner progress)
    {requests : List (RequestThread Proof Body)}
    (left : ∀ other ∈ requests, other ∈ s.requests ∨ ∃ call, progress = .next call ∧ other = { thread with call }) :
    Stranded deps { s with runner, requests } key ∧
      (thread.key deps = key → ∀ proof, progress ≠ .returned (.ok (some proof))) := by
  by_cases own : thread.key deps = key
  · subst own
    have idle : thread.call.drives = false :=
      Bool.eq_false_iff.mpr fun drives => stranded.dropped (.calling thread (by simp [pool]) drives rfl)
    obtain ⟨rfl,reads,noProof⟩ := moved.finds_queued stranded.queued stranded.unfinished idle
    refine ⟨stranded.kept id id fun hand => hand.imp (fun _ sent _ => sent) (fun task member same => ⟨task,member,same⟩) ?_,
      fun _ => noProof⟩
    intro other member drives _
    rcases left other member with old | ⟨call,next,rfl⟩
    · exact old
    · cases drives.symm.trans (reads call next)
  · obtain ⟨queue,finished⟩ := (moved.elsewhere (Ne.symm own)).imp mem_of_lookup mem_of_lookup
    refine ⟨stranded.kept queue.mpr finished.mp fun hand => hand.imp ?_ (fun task member same => ⟨task,member,same⟩) ?_,
      fun same => absurd same own⟩
    · intro job sent same
      exact (moved.channel sent).resolve_right fun here => own (by rw [← same,here]; rfl)
    · intro other member _ same
      rcases left other member with old | ⟨call,_,rfl⟩
      · exact old
      · exact absurd same own

theorem stranded_step (hashed : ∀ key ∈ s.runner.queueDb, deps.HashKey key) (stranded : Stranded deps s key)
    {action : Action Proof Body} (leaves : LeavesQueued key s action) (stepped : s.step deps action = some t) :
    Stranded deps t key ∧ NoProof deps key s t := by
  have silent {u : State Proof Encoded Body} (same : u.answered = s.answered) : NoProof deps key s u :=
    ⟨[],by simp [same],by simp⟩
  cases step_cases stepped with
  | receive req up =>
    exact ⟨stranded.kept (by simp) (by simp) inHand_deliver,silent (by simp)⟩
  | callNext i fault before thread after runner call found pool moved =>
    refine ⟨(stranded.called pool moved fun other member => ?_).1,silent rfl⟩
    exact (mem_replaced member).imp (fun old => pool ▸ old) fun same => ⟨call,rfl,same⟩
  | callPanicked i fault before thread after found pool reading =>
    refine ⟨stranded.kept id id fun hand => hand.imp (fun _ sent _ => sent) (fun task member same => ⟨task,member,same⟩) ?_,
      silent rfl⟩
    exact fun other member _ _ => pool ▸ mem_removed member
  | callReturned i fault before thread after runner result found pool moved =>
    have left : ∀ other ∈ before ++ after, other ∈ s.requests ∨
        ∃ call, (Progress.returned result : Progress (Call Proof) (CallResult Proof)) = .next call ∧
          other = { thread with call } := by
      exact fun other member => .inl (pool ▸ mem_removed member)
    obtain ⟨still,noProof⟩ := stranded.called pool moved left
    refine ⟨⟨by simpa using still.queued,by simpa using still.unfinished,fun hand => ?_⟩,_,State.deliver_answered _ _ _,?_⟩
    · obtain hand := inHand_deliver hand
      refine still.dropped (hand.imp (fun _ sent _ => sent) (fun task member same => ⟨task,member,same⟩) ?_)
      exact fun _ member _ _ => member
    · intro answered member same proof made
      obtain rfl := List.mem_singleton.mp member
      exact noProof same proof (congrArg Progress.returned made)
  | taskNext i answer before task after runner stage found pool moved =>
    have different : task.key deps ≠ key := fun same => stranded.dropped (.running task (by simp [pool]) same)
    obtain ⟨queue,finished⟩ := (moved.elsewhere different.symm).imp mem_of_lookup mem_of_lookup
    refine ⟨stranded.worked _ different queue finished (fun _ sent => moved.channel sent) fun other member => ?_,silent rfl⟩
    rcases mem_replaced member with old | rfl
    · exact .inl (pool ▸ old)
    · exact .inr rfl
  | taskEnded i answer before task after runner progress found pool ended moved =>
    have different : task.key deps ≠ key := fun same => stranded.dropped (.running task (by simp [pool]) same)
    obtain ⟨queue,finished⟩ := (moved.elsewhere different.symm).imp mem_of_lookup mem_of_lookup
    refine ⟨stranded.worked _ different queue finished (fun _ sent => moved.channel sent) fun other member => ?_,silent rfl⟩
    exact .inl (pool ▸ mem_removed member)
  | received job rest up sent =>
    refine ⟨stranded.kept id id fun hand => ?_,silent rfl⟩
    have known (other : Job) (later : some other ∈ rest) : some other ∈ s.runner.channel :=
      sent ▸ List.mem_cons_of_mem _ later
    cases hand with
    | waiting other later same => exact .waiting other (known other later) same
    | running task member same =>
      rcases List.mem_append.mp member with old | new
      · exact .running task old same
      · obtain rfl := List.mem_singleton.mp new
        exact .waiting job (sent ▸ List.mem_cons_self) same
    | calling thread member drives same => exact .calling thread member drives same
  | stopReceived rest up sent =>
    refine ⟨stranded.kept id id fun hand => hand.imp ?_ (fun task member same => ⟨task,member,same⟩) fun _ member _ _ => member,
      silent rfl⟩
    exact fun job later _ => sent ▸ List.mem_cons_of_mem _ later
  | shutdown up =>
    refine ⟨stranded.kept id id fun hand => hand.imp ?_ (fun task member same => ⟨task,member,same⟩) fun _ member _ _ => member,
      silent rfl⟩
    intro job later _
    exact (mem_channel_send later).resolve_right (by simp)
  | exit =>
    refine ⟨stranded.kept id id fun hand => hand.imp ?_ ?_ ?_,silent rfl⟩ <;> simp [State.stop]
  | crash lost found up left =>
    obtain ⟨queued,unfinished⟩ := leaves found left
    refine ⟨⟨queued,unfinished,fun hand => stranded.dropped (hand.imp ?_ ?_ ?_)⟩,silent rfl⟩ <;> simp [State.stop]
  | restarted config jobs down recovered =>
    have queued := stranded.queued
    rw [(restart_ok hashed recovered).1] at queued
    exact absurd queued (AList.notMem_empty key)
  | restartPanicked => exact ⟨stranded,silent rfl⟩

theorem stranded_reaches {config : Config} (run : Reaches (State.step deps) Free (State.initial config) s)
    (stranded : Stranded deps s key) (later : Reaches (State.step deps) (LeavesQueued key) s t) :
    Stranded deps t key ∧ NoProof deps key s t := by
  induction later with
  | refl => exact ⟨stranded,[],by simp,by simp⟩
  | tail before last ih =>
    obtain ⟨still,answers,answered,noProof⟩ := ih
    obtain ⟨_,leaves,stepped⟩ := last
    have earlier : Reaches (State.step deps) (LeavesQueued key) s _ := before
    have hashed := hashKeys_reaches (run.trans (earlier.weaken fun _ _ _ => trivial))
    obtain ⟨after,others,more,noOther⟩ := stranded_step hashed.shared still leaves stepped
    refine ⟨after,answers ++ others,?_,List.forall_mem_append.mpr ⟨noProof,noOther⟩⟩
    rw [more,answered,List.append_assoc]

/-- However long the service runs on, and however often it is started again, a stranded job gets
no result and a client that calls back for it no proof, until a crash takes its entry away. -/
theorem stranded_for_good (deps : Dependencies Proof Encoded Body) (config : Config) (s : State Proof Encoded Body)
    (run : Reaches (State.step deps) Free (State.initial config) s) (key : Bytes) (stranded : Stranded deps s key)
    (t : State Proof Encoded Body) (later : Reaches (State.step deps) (LeavesQueued key) s t) :
    key ∈ t.runner.queueDb ∧ key ∉ t.runner.finishedDb ∧ NoProof deps key s t := by
  obtain ⟨still,noProof⟩ := stranded_reaches run stranded later
  exact ⟨still.queued,still.unfinished,noProof⟩

namespace Tabulated

/-- A client's job, and a prover that fails with an error of another type. -/
def strandPlain : List (Action Bytes Json) :=
  submitPlain 0 ++ [.recv,.task 0 (.storage none),.task 0 (.proved zeroNonce (.error (.unhandled "out of memory")))]

set_option maxRecDepth 2048 in
theorem strandPlain_stranded : Stranded dependencies (run localConfig strandPlain) plainKey := by
  rw [run_eq]
  refine ⟨by decide +kernel,by decide +kernel,fun hand => ?_⟩
  cases hand with
  | waiting job sent => cases sent
  | running task member => cases member
  | calling thread member => cases member

end Tabulated

theorem stranded_for_good_plain :
    let s := Tabulated.run Tabulated.localConfig Tabulated.strandPlain
    ∀ t, Reaches (State.step Tabulated.dependencies) (LeavesQueued Tabulated.plainKey) s t →
      Tabulated.plainKey ∈ t.runner.queueDb ∧
      Tabulated.plainKey ∉ t.runner.finishedDb ∧ NoProof Tabulated.dependencies Tabulated.plainKey s t :=
  stranded_for_good Tabulated.dependencies Tabulated.localConfig _ (Tabulated.run_reaches _ _ (by decide +kernel)) _
    Tabulated.strandPlain_stranded

section
variable {config : Config} {job other : Job} {runner after : PdaRunner Encoded}

theorem CallStep.keeps_sent {fault : Fault} {call : Call Proof} {progress : Progress (Call Proof) (CallResult Proof)}
    (moved : CallStep deps config job fault runner call after progress) (sent : some other ∈ runner.channel) :
    some other ∈ after.channel := by
  cases moved with
  | resent | sent => exact List.mem_append_left _ sent
  | _ => exact sent

theorem TaskStep.keeps_sent {stage : Stage Proof} {answer : Answer Proof} {progress : Progress (Stage Proof) ProveResult}
    (moved : TaskStep deps config job runner stage answer after progress) (sent : some other ∈ runner.channel) :
    some other ∈ after.channel := by
  cases moved with
  | sentBack => exact List.mem_append_left _ sent
  | _ => exact sent

/-- A call that takes a result away is about to send its job. -/
theorem CallStep.keeps_finished {fault : Fault} {call : Call Proof} {progress : Progress (Call Proof) (CallResult Proof)}
    (moved : CallStep deps config job fault runner call after progress) (finished : key ∈ runner.finishedDb) :
    key ∈ after.finishedDb ∨ deps.jobKey job = key ∧ ∃ next, progress = .next next ∧ next.drives = true := by
  cases moved with
  | retried error retryStatus =>
    by_cases own : deps.jobKey job = key
    · exact .inr ⟨own,_,rfl,rfl⟩
    · exact .inl (AList.mem_erase.mpr ⟨Ne.symm own,finished⟩)
  | _ => exact .inl finished

theorem TaskStep.keeps_finished {stage : Stage Proof} {answer : Answer Proof} {progress : Progress (Stage Proof) ProveResult}
    (moved : TaskStep deps config job runner stage answer after progress) (finished : key ∈ runner.finishedDb) :
    key ∈ after.finishedDb ∨ deps.jobKey job = key ∧ ∃ next, progress = .next next := by
  cases moved with
  | updated status =>
    by_cases own : deps.jobKey job = key
    · exact .inr ⟨own,_,rfl⟩
    · exact .inl (AList.mem_erase.mpr ⟨Ne.symm own,finished⟩)
  | finalized status => exact .inl ((AList.mem_insert _).mpr (.inr finished))
  | _ => exact .inl finished

/-- Without storage faults a call that drives its job goes on to drive it, or sends it. -/
theorem CallStep.drives_on {call : Call Proof} {progress : Progress (Call Proof) (CallResult Proof)}
    (moved : CallStep deps config job none runner call after progress) (drives : call.drives = true) :
    (∃ next, progress = .next next ∧ next.drives = true) ∨ some job ∈ after.channel := by
  cases moved with
  | failed _ error refused => rcases refused rfl with rfl | rfl <;> cases drives
  | retried error retryStatus => exact .inl ⟨_,rfl,rfl⟩
  | inserted status => exact .inl ⟨_,rfl,rfl⟩
  | resent | sent => exact .inr (List.mem_append_right _ List.mem_cons_self)
  | _ => cases drives

end

/-- While the process works by itself, a job in hand stays in hand until it has a result. -/
theorem inHand_step (valid : (validStatuses deps).Holds s) (registered : (s.ledger deps).Registered)
    {action : Action Proof Body} (allowed : Unhindered deps s action) (stepped : s.step deps action = some t)
    (held : key ∈ s.runner.finishedDb ∨ InHand deps s key) : key ∈ t.runner.finishedDb ∨ InHand deps t key := by
  obtain ⟨internal,undisturbed,handled⟩ := allowed
  cases step_cases stepped with
  | receive | shutdown | crash | restarted | restartPanicked => exact internal.elim
  | exit => exact undisturbed.elim
  | callNext i fault before thread after runner call found pool moved =>
    obtain rfl : fault = none := undisturbed
    have here : { thread with call } ∈ before ++ { thread with call } :: after := by simp
    rcases held with finished | hand
    · rcases moved.keeps_finished finished with kept | ⟨own,next,same,drives⟩
      · exact .inl kept
      · cases same
        exact .inr (.calling _ here drives own)
    · refine .inr ?_
      cases hand with
      | waiting job sent same => exact .waiting job (moved.keeps_sent sent) same
      | running task member same => exact .running task member same
      | calling other member drives same =>
        rcases mem_others (pool ▸ member) with rfl | old
        · rcases moved.drives_on drives with ⟨next,step,drives⟩ | sent
          · cases step
            exact .calling _ here drives same
          · exact .waiting _ sent same
        · exact .calling other (mem_removed old) drives same
  | callPanicked i fault before thread after found pool reading =>
    refine held.imp id fun hand => ?_
    cases hand with
    | waiting job sent same => exact .waiting job sent same
    | running task member same => exact .running task member same
    | calling other member drives same =>
      rcases mem_others (pool ▸ member) with rfl | old
      · rw [reading] at drives
        cases drives
      · exact .calling other old drives same
  | callReturned i fault before thread after runner result found pool moved =>
    obtain rfl : fault = none := undisturbed
    rcases held with finished | hand
    · rcases moved.keeps_finished finished with kept | ⟨_,next,same,_⟩
      · exact .inl (by simpa using kept)
      · cases same
    · refine .inr (InHand.deliver ?_)
      cases hand with
      | waiting job sent same => exact .waiting job (moved.keeps_sent sent) same
      | running task member same => exact .running task member same
      | calling other member drives same =>
        rcases mem_others (pool ▸ member) with rfl | old
        · rcases moved.drives_on drives with ⟨next,step,_⟩ | sent
          · cases step
          · exact .waiting _ sent same
        · exact .calling other old drives same
  | taskNext i answer before task after runner stage found pool moved =>
    have here : { task with stage } ∈ before ++ { task with stage } :: after := by simp
    rcases held with finished | hand
    · rcases moved.keeps_finished finished with kept | ⟨own,_⟩
      · exact .inl kept
      · exact .inr (.running _ here own)
    · refine .inr ?_
      cases hand with
      | waiting job sent same => exact .waiting job (moved.keeps_sent sent) same
      | calling thread member drives same => exact .calling thread member drives same
      | running other member same =>
        rcases mem_others (pool ▸ member) with rfl | old
        · exact .running _ here same
        · exact .running other (mem_removed old) same
  | taskEnded i answer before task after runner progress found pool ended moved =>
    rcases held with finished | hand
    · rcases moved.keeps_finished finished with kept | ⟨_,next,same⟩
      · exact .inl kept
      · exact absurd same (ended next)
    · cases hand with
      | waiting job sent same => exact .inr (.waiting job (moved.keeps_sent sent) same)
      | calling thread member drives same => exact .inr (.calling thread member drives same)
      | running other member same =>
        rcases mem_others (pool ▸ member) with rfl | old
        · subst same
          cases moved.ends valid registered (List.mem_of_getElem? found) ended with
          | lost _ unhandled => exact absurd handled unhandled
          | found reading finished => exact .inl finished
          | finalized status writing => exact .inl ((AList.mem_insert _).mpr (.inl rfl))
          | sentBack sending => exact .inr (.waiting other.job (List.mem_append_right _ List.mem_cons_self) rfl)
        · exact .inr (.running other old same)
  | received job rest up sent =>
    refine held.imp id fun hand => ?_
    cases hand with
    | waiting other inside same =>
      rw [sent] at inside
      rcases List.mem_cons.mp inside with here | later
      · cases here
        exact .running ⟨job,.readQueue⟩ (by simp) same
      · exact .waiting other later same
    | running task member same => exact .running task (by simp [member]) same
    | calling thread member drives same => exact .calling thread member drives same
  | stopReceived rest up sent =>
    refine held.imp id fun hand => ?_
    cases hand with
    | waiting other inside same =>
      rw [sent] at inside
      exact .waiting other ((List.mem_cons.mp inside).resolve_left (by simp)) same
    | running task member same => exact .running task member same
    | calling thread member drives same => exact .calling thread member drives same

theorem inHand_reaches {config : Config} (run : Reaches (State.step deps) Free (State.initial config) s)
    (worked : Reaches (State.step deps) (Unhindered deps) s t) (held : key ∈ s.runner.finishedDb ∨ InHand deps s key) :
    key ∈ t.runner.finishedDb ∨ InHand deps t key := by
  refine @Reaches.invariant_with _ _ _ _ (Reaches (State.step deps) Free (State.initial config))
    (fun u => key ∈ u.runner.finishedDb ∨ InHand deps u key) _ _ worked
    (fun u before => run.trans (before.weaken fun _ _ _ => trivial)) ?_ held
  intro u action v reached held allowed stepped
  exact inHand_step (validStatuses_reaches reached) (ledger_registered reached) allowed stepped held

/-- While the process runs, a queued job can still be finished, without a crash that takes its
entry away, exactly if it is finished already or somebody has it in hand. -/
theorem finishable_iff (deps : Dependencies Proof Encoded Body) (config : Config) (s : State Proof Encoded Body)
    (run : Reaches (State.step deps) Free (State.initial config) s) (up : s.process = .running)
    (unstopped : none ∉ s.runner.channel) (usable : s.config.UsableStrategy deps) (key : Bytes)
    (queued : key ∈ s.runner.queueDb) :
    (∃ t, Reaches (State.step deps) (LeavesQueued key) s t ∧ key ∈ t.runner.finishedDb) ↔
      key ∈ s.runner.finishedDb ∨ InHand deps s key := by
  constructor
  · intro finishable
    obtain ⟨t,later,finished⟩ := finishable
    by_contra held
    obtain ⟨unfinished,dropped⟩ := not_or.mp held
    exact (stranded_reaches run ⟨queued,unfinished,dropped⟩ later).1.unfinished finished
  · intro held
    have holds := updatesPending_reaches run
    have lowers : Lowers (State.step deps) (Unhindered deps) updatesPending.Holds (State.potential deps) :=
      service_lowers.weaken fun _ _ allowed => allowed.1
    obtain ⟨t,worked,rested⟩ := comes_to_rest lowers s holds
    have still := inHand_reaches run worked held
    have uninterrupted : Uninterrupted s.config t :=
      worked.invariant (fun _ _ _ kept allowed stepped => uninterrupted_step kept allowed.2.1 stepped) ⟨rfl,up,unstopped⟩
    obtain ⟨noRequests,noTasks,noMessages⟩ := rest_idle uninterrupted usable rested
    refine ⟨t,worked.weaken fun _ _ allowed => leavesQueued_internal allowed.1,still.resolve_right fun hand => ?_⟩
    cases hand with
    | waiting job sent => simp [noMessages] at sent
    | running task member => simp [noTasks] at member
    | calling thread member => simp [noRequests] at member

set_option maxRecDepth 2048 in
theorem finishable_iff_sent :
    let s := Tabulated.run Tabulated.networkConfig (Tabulated.submitPlain 0)
    ∃ t, Reaches (State.step Tabulated.dependencies) (LeavesQueued Tabulated.plainKey) s t ∧
      Tabulated.plainKey ∈ t.runner.finishedDb := by
  have sent : InHand Tabulated.dependencies (Tabulated.run Tabulated.networkConfig (Tabulated.submitPlain 0))
      Tabulated.plainKey := by
    rw [Tabulated.run_eq]
    exact .waiting (Tabulated.dependencies.jobOf [1,2,3]) (by decide +kernel) rfl
  refine (finishable_iff Tabulated.dependencies Tabulated.networkConfig _
    (Tabulated.run_reaches _ _ (by decide +kernel)) ?_ ?_ ?_ Tabulated.plainKey ?_).mpr (.inr sent)
  all_goals rw [Tabulated.run_eq]
  · rfl
  · decide +kernel
  · unfold Config.UsableStrategy
    decide
  · decide +kernel

end PdaProxy
