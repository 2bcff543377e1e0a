import PdaProxy.SingleFlight

/-! Calls that nothing comes between. `get_verifiable_encryption` never awaits, so on a runtime
with one thread, or behind a lock for each key, no other call or task works on a key from the
first read of a call to its write. Then the call still finds what it has read, and keeps every
discipline that the trees and the worker rely on. -/
namespace PdaProxy
open PdaProxy.Semantics PdaProxy.Semantics.Serialization PdaProxy.Semantics.Transition PdaProxy.Semantics.Pool

variable {Proof Encoded Body : Type}

/-- The call has read a tree and not yet written what it makes of it. -/
def Call.decides : Call Proof → Bool
  | .readQueue | .insert _ | .retryTransaction _ _ => true
  | .readFinished | .retrySend _ | .send => false

/-- No call or task takes a step while another call is deciding on the same key. -/
def Undivided (deps : Dependencies Proof Encoded Body) (s : State Proof Encoded Body) : Action Proof Body → Prop
  | .request i _ => ∀ thread ∈ s.requests[i]?, ∀ other ∈ s.requests.eraseIdx i,
      other.call.decides = true → other.key deps ≠ thread.key deps
  | .task i _ => ∀ task ∈ s.tasks[i]?, ∀ other ∈ s.requests,
      other.call.decides = true → other.key deps ≠ task.key deps
  | .receive _ | .recv | .shutdown | .exit | .crash _ | .restart _ => True

instance (deps : Dependencies Proof Encoded Body) (s : State Proof Encoded Body) : DecidablePred (Undivided deps s)
  | .request i _ => inferInstanceAs (Decidable (∀ thread ∈ s.requests[i]?, ∀ other ∈ s.requests.eraseIdx i,
      other.call.decides = true → other.key deps ≠ thread.key deps))
  | .task i _ => inferInstanceAs (Decidable (∀ task ∈ s.tasks[i]?, ∀ other ∈ s.requests,
      other.call.decides = true → other.key deps ≠ task.key deps))
  | .receive _ | .recv | .shutdown | .exit | .crash _ | .restart _ => inferInstanceAs (Decidable True)

/-- What a call has read, it would read again. -/
structure Attentive (deps : Dependencies Proof Encoded Body) (s : State Proof Encoded Body)
    (thread : RequestThread Proof Body) : Prop where
  unfinished : Unfinished deps s thread
  current : Current deps s thread

variable {deps : Dependencies Proof Encoded Body} {s t : State Proof Encoded Body}

theorem attentive_of_idle {thread : RequestThread Proof Body} (idle : thread.call.decides = false) :
    Attentive deps s thread := by
  obtain ⟨submission,call⟩ := thread
  cases call with
  | readFinished | retrySend | send => exact ⟨trivial,trivial⟩
  | readQueue | insert | retryTransaction => cases idle

/-- What a call has read depends on the entries of its key only. -/
theorem Attentive.unmoved {thread : RequestThread Proof Body} (attentive : Attentive deps s thread)
    (queue : t.runner.queueDb.lookup (thread.key deps) = s.runner.queueDb.lookup (thread.key deps))
    (finished : t.runner.finishedDb.lookup (thread.key deps) = s.runner.finishedDb.lookup (thread.key deps)) :
    Attentive deps t thread := by
  obtain ⟨unfinished,current⟩ := attentive
  obtain ⟨submission,call⟩ := thread
  cases call with
  | readFinished | retrySend | send => exact attentive_of_idle rfl
  | readQueue =>
    refine ⟨?_,trivial⟩
    simp only [Unfinished,← AList.lookup_eq_none,finished] at unfinished ⊢
    exact unfinished
  | insert status =>
    simp only [Unfinished,Current,← AList.lookup_eq_none] at unfinished current
    refine ⟨?_,?_⟩
    · simpa only [Unfinished,← AList.lookup_eq_none,finished] using unfinished
    · simpa only [Current,← AList.lookup_eq_none,queue,finished] using current
  | retryTransaction error status =>
    refine ⟨trivial,?_⟩
    simpa only [Current,statusAt,finished] using current

/-- The next operation of a call acts on what the last one has just read. -/
theorem Attentive.next {thread : RequestThread Proof Body} (attentive : Attentive deps s thread) {fault : Fault}
    {runner : PdaRunner Encoded} {call : Call Proof}
    (moved : CallStep deps s.config (thread.submission.job deps) fault s.runner thread.call runner (.next call))
    (unmoved : t.runner = runner) : Attentive deps t { thread with call } := by
  obtain ⟨submission,before⟩ := thread
  cases moved with
  | retried error retryStatus | inserted status => exact attentive_of_idle rfl
  | retryable data error retryStatus stored read =>
    refine ⟨trivial,?_⟩
    simp only [Current,statusAt,unmoved,RequestThread.key,stored,Option.bind_some,read]
    rfl
  | unfinished absent =>
    refine ⟨?_,trivial⟩
    simpa only [Unfinished,RequestThread.key,unmoved] using AList.lookup_eq_none.mp absent
  | unqueued status absent chosen =>
    have unfinished : deps.jobKey (submission.job deps) ∉ s.runner.finishedDb := attentive.unfinished
    have unqueued := AList.lookup_eq_none.mp absent
    refine ⟨?_,?_⟩
    · simpa only [Unfinished,RequestThread.key,unmoved] using unfinished
    · simpa only [Current,RequestThread.key,unmoved] using ⟨unqueued,unfinished⟩

/-- A step on another key, or one that writes nothing, leaves what a call has read. -/
theorem attentive_others {key : Bytes} {runner : PdaRunner Encoded}
    (attentive : ∀ thread ∈ s.requests, Attentive deps s thread)
    (elsewhere : ∀ other, other ≠ key → runner.queueDb.lookup other = s.runner.queueDb.lookup other ∧
      runner.finishedDb.lookup other = s.runner.finishedDb.lookup other) (unmoved : t.runner = runner)
    {thread : RequestThread Proof Body} (member : thread ∈ s.requests)
    (apart : thread.call.decides = true → thread.key deps ≠ key) : Attentive deps t thread := by
  cases decides : thread.call.decides with
  | false => exact attentive_of_idle decides
  | true =>
    obtain ⟨queue,finished⟩ := elsewhere _ (apart decides)
    exact (attentive thread member).unmoved (unmoved ▸ queue) (unmoved ▸ finished)

theorem attentive_deliver {origin : IncomingRequest Body} {inbound : Inbound Body}
    (attentive : ∀ thread ∈ s.requests, Attentive deps s thread) :
    ∀ thread ∈ (s.deliver origin inbound).requests, Attentive deps (s.deliver origin inbound) thread := by
  intro thread member
  have kept (old : thread ∈ s.requests) : Attentive deps (s.deliver origin inbound) thread :=
    (attentive thread old).unmoved (by simp) (by simp)
  cases inbound with
  | done result => exact kept member
  | encrypt submission =>
    rcases List.mem_append.mp member with old | new
    · exact kept old
    · obtain rfl := List.mem_singleton.mp new
      exact attentive_of_idle rfl

theorem attentive_step (attentive : ∀ thread ∈ s.requests, Attentive deps s thread) {action : Action Proof Body}
    (undivided : Undivided deps s action) (stepped : s.step deps action = some t) :
    ∀ thread ∈ t.requests, Attentive deps t thread := by
  cases step_cases stepped with
  | receive => exact attentive_deliver attentive
  | callNext i fault before thread after runner call found pool moved =>
    intro other member
    rcases mem_others member with rfl | old
    · exact (attentive thread (List.mem_of_getElem? found)).next moved rfl
    · have apart := undivided thread found other ((others_perm found pool).mem_iff.mpr old)
      exact attentive_others attentive (fun _ different => moved.elsewhere different) rfl (pool ▸ mem_removed old) apart
  | callPanicked i fault before thread after found pool reading =>
    exact fun other member => (attentive other (pool ▸ mem_removed member)).unmoved rfl rfl
  | callReturned i fault before thread after runner result found pool moved =>
    refine attentive_deliver fun other old => ?_
    have apart := undivided thread found other ((others_perm found pool).mem_iff.mpr old)
    exact attentive_others attentive (fun _ different => moved.elsewhere different) rfl (pool ▸ mem_removed old) apart
  | taskNext i answer before task after runner stage found pool moved
  | taskEnded i answer before task after runner progress found pool ended moved =>
    intro other member
    exact attentive_others attentive (fun _ different => moved.elsewhere different) rfl member
      (undivided task found other member)
  | received | stopReceived | shutdown | restarted => exact fun other member => (attentive other member).unmoved rfl rfl
  | exit | crash => exact fun _ member => by cases member
  | restartPanicked => exact attentive

theorem attentive_reaches {config : Config} (run : Reaches (State.step deps) (Undivided deps) (State.initial config) s) :
    ∀ thread ∈ s.requests, Attentive deps s thread :=
  run.invariant (fun _ _ _ attentive undivided stepped => attentive_step attentive undivided stepped)
    (by simp [State.initial])

theorem current_of_attentive (attentive : ∀ thread ∈ s.requests, Attentive deps s thread) (action : Action Proof Body) :
    action.Calls s (Current deps s) := by
  cases action with
  | request i fault =>
    cases fault with
    | none => exact fun thread found => (attentive thread (List.mem_of_getElem? found)).current
    | some e => trivial
  | receive | recv | task | shutdown | exit | crash | restart => trivial

/-- Calls that nothing comes between act on reads that still hold. -/
theorem current_of_undivided {config : Config} (run : Reaches (State.step deps) (Undivided deps) (State.initial config) s) :
    Reaches (State.step deps) (fun u action => action.Calls u (Current deps u)) (State.initial config) s :=
  run.weaken_with (fun _ part => attentive_reaches part) fun _ action attentive _ => current_of_attentive attentive action

/-- The trees and the work there is for them, in a run of calls that nothing comes between. -/
theorem orderly_reaches {config : Config} (run : Reaches (State.step deps) (Undivided deps) (State.initial config) s) :
    (s.ledger deps).Orderly := by
  apply ledger_invariant (Ledger.Disciplined (Terminal deps)) (current_of_undivided run) _ _ Ledger.orderly_empty
  · intro u action operation current performed
    exact disciplined_of_performs current performed
  · intro before operation after orderly disciplined moved
    exact Ledger.orderly_step orderly disciplined moved

/-- Nothing comes between the reads and the write of a call, and no crash loses writes. -/
def Secured (deps : Dependencies Proof Encoded Body) (s : State Proof Encoded Body) (action : Action Proof Body) : Prop :=
  Undivided deps s action ∧ action.Lossless

instance (deps : Dependencies Proof Encoded Body) (s : State Proof Encoded Body) : DecidablePred (Secured deps s) :=
  fun action => inferInstanceAs (Decidable (Undivided deps s action ∧ action.Lossless))

end PdaProxy
