import PdaProxy.Gateway
import PdaProxy.Binding
import PdaProxy.Semantics.Noninterference

/-! Clients without a bearer token, and what only clients with one can bring into the system. -/
namespace PdaProxy
open PdaProxy.Semantics.Serialization PdaProxy.Semantics.Transition PdaProxy.Semantics.Noninterference

variable {Proof Encoded Body : Type}

def Client.known (client : Client Body) : Bool := hasBearer client.request.headers

def GatewayAction.known : GatewayAction Proof Body → Bool
  | .accept client => client.known
  | .request _ _ | .respond _ _ _ | .disconnect _ | .recv | .task _ _ | .shutdown | .exit | .crash _ | .restart _ => true

/-- The gateway without the records of clients that have no bearer token. -/
def Gateway.withoutStrangers (g : Gateway Proof Encoded Body) : Gateway Proof Encoded Body :=
  { g with
    accepted := g.accepted.filter Client.known
    replies := g.replies.filter fun entry => entry.1.known
    lost := g.lost.filter Client.known }

variable {deps : Dependencies Proof Encoded Body} {node : Upstream}

theorem Authorized.known {client : Client Body} {origin : IncomingRequest Body}
    (authorized : Authorized node client.request origin) : client.known = true := by
  have bearer := authorized.bearer
  rw [rewriteUri_headers authorized.rewritten] at bearer
  exact bearer

theorem serve_stranger {client : Client Body} {config : Config} {setups : Nat → Except PdaRunnerError SP1ProofSetup}
    {inbound : IncomingRequest Body → InboundResult Body} {answer : Except String (IncomingResponse Body)}
    {exchange : Exchange Body} (stranger : client.known = false)
    (made : serve deps node config setups inbound answer client.request = some exchange) :
    exchange = ⟨[],badAuthResponse deps⟩ := by
  unfold serve at made
  split at made
  next => cases made
  next plaintextReq rewritten =>
    split at made
    next bearer => exact absurd (Authorized.known ⟨rewritten,bearer⟩) (by simp [stranger])
    next => exact (Option.some.inj made).symm

section
variable {g h : Gateway Proof Encoded Body} {client : Client Body}

theorem Gateway.reply_withoutStrangers (known : client.known = true) (response : Response Body) :
    (g.reply client response).withoutStrangers = g.withoutStrangers.reply client response := by
  simp [Gateway.withoutStrangers,Gateway.reply,known]

theorem Gateway.lose_withoutStrangers (known : client.known = true) :
    (g.lose client).withoutStrangers = g.withoutStrangers.lose client := by
  simp [Gateway.withoutStrangers,Gateway.lose,known]

theorem Gateway.proceed_withoutStrangers (known : client.known = true) (plaintextReq : IncomingRequest Body)
    (inbound : Inbound Body) :
    (g.proceed deps client plaintextReq inbound).withoutStrangers =
      g.withoutStrangers.proceed deps client plaintextReq inbound := by
  unfold Gateway.proceed
  split
  next => rfl
  next => exact Gateway.reply_withoutStrangers known _
  next => exact Gateway.reply_withoutStrangers known _
  next => rfl

theorem Gateway.acceptStep_withoutStrangers (known : client.known = true) :
    (g.acceptStep deps node client).withoutStrangers = g.withoutStrangers.acceptStep deps node client := by
  have accepted : ({ g with accepted := g.accepted ++ [client] } : Gateway Proof Encoded Body).withoutStrangers =
      { g.withoutStrangers with accepted := g.withoutStrangers.accepted ++ [client] } := by
    simp [Gateway.withoutStrangers,known]
  unfold Gateway.acceptStep
  rw [← accepted]
  dsimp only
  split
  next => exact Gateway.lose_withoutStrangers known
  next =>
    split
    next => exact Gateway.proceed_withoutStrangers known _ _
    next => exact Gateway.reply_withoutStrangers known _

/-- A stranger leaves nothing but its own records. -/
theorem Gateway.acceptStep_stranger (stranger : client.known = false) :
    (g.acceptStep deps node client).withoutStrangers = g.withoutStrangers := by
  unfold Gateway.acceptStep
  dsimp only
  split
  next => simp [Gateway.lose,Gateway.withoutStrangers,stranger]
  next plaintextReq rewritten =>
    split
    next bearer => exact absurd (Authorized.known ⟨rewritten,bearer⟩) (by simp [stranger])
    next => simp [Gateway.reply,Gateway.withoutStrangers,stranger]

theorem Gateway.requestStep_withoutStrangers {entering : Entering Proof Body} (known : entering.client.known = true)
    (i : Nat) (fault : Fault) :
    (g.requestStep deps i entering fault).withoutStrangers = g.withoutStrangers.requestStep deps i entering fault := by
  unfold Gateway.requestStep
  dsimp only [Gateway.withoutStrangers]
  split
  next => rfl
  next => exact Gateway.lose_withoutStrangers known
  next => exact Gateway.proceed_withoutStrangers known _ _

theorem Gateway.respondStep_withoutStrangers {leaving : Leaving Body} (known : leaving.client.known = true) (i : Nat)
    (setups : Nat → Except PdaRunnerError SP1ProofSetup) (answer : Except String (IncomingResponse Body)) :
    (g.respondStep deps i leaving setups answer).withoutStrangers =
      g.withoutStrangers.respondStep deps i leaving setups answer := by
  unfold Gateway.respondStep
  dsimp only [Gateway.withoutStrangers]
  split
  next => exact Gateway.lose_withoutStrangers known
  next => exact Gateway.reply_withoutStrangers known _

theorem Gateway.work_withoutStrangers (action : Action Proof Body) :
    g.withoutStrangers.work deps action = (g.work deps action).map Gateway.withoutStrangers := by
  simp only [Gateway.work,Option.map_map]
  rfl

theorem Gateway.abandon_withoutStrangers (entered : ∀ entering ∈ g.inbound, entering.client.known = true)
    (left : ∀ leaving ∈ g.outbound, leaving.client.known = true) :
    g.abandon.withoutStrangers = g.withoutStrangers.abandon := by
  have inside : (g.inbound.map Entering.client).filter Client.known = g.inbound.map Entering.client := by
    rw [List.filter_eq_self]
    simpa using entered
  have outside : (g.outbound.map Leaving.client).filter Client.known = g.outbound.map Leaving.client := by
    rw [List.filter_eq_self]
    simpa using left
  simp only [Gateway.abandon,Gateway.withoutStrangers,List.filter_append,inside,outside]

/-- Whoever has got into the proxy has a bearer token. -/
structure Gateway.Guarded (g : Gateway Proof Encoded Body) : Prop where
  inbound : ∀ entering ∈ g.inbound, entering.client.known = true
  outbound : ∀ leaving ∈ g.outbound, leaving.client.known = true

theorem Gateway.Carries.guarded {s : State Proof Encoded Body} (carries : Gateway.Carries deps node [] g s) : g.Guarded :=
  ⟨fun entering member => (carries.inbound entering member).1.known,
    fun leaving member => (carries.outbound leaving member).1.known⟩

theorem strangers_unseen_step :
    Unseen (Gateway.step deps node) (fun g => ∃ s : State Proof Encoded Body, Gateway.Carries deps node [] g s)
      Gateway.withoutStrangers GatewayAction.known where
  keeps g action h established moved := by
    obtain ⟨s,carries⟩ := established
    obtain ⟨_,t,_,carried⟩ := carries.step moved
    exact ⟨t,carried⟩
  hides g action h _ stranger moved := by
    cases action with
    | accept client =>
      obtain ⟨_,same⟩ := Option.ite_none_left_eq_some.mp moved
      cases same
      exact Gateway.acceptStep_stranger stranger
    | _ => cases stranger
  acts g action h established known moved := by
    obtain ⟨s,carries⟩ := established
    have guarded := carries.guarded
    have background (own : Action Proof Body) (moved : g.work deps own = some h) :
        g.withoutStrangers.work deps own = some h.withoutStrangers := by
      rw [Gateway.work_withoutStrangers,moved,Option.map_some]
    have ending (own : Action Proof Body) (moved : (g.work deps own).map Gateway.abandon = some h) :
        (g.withoutStrangers.work deps own).map Gateway.abandon = some h.withoutStrangers := by
      obtain ⟨last,worked,rfl⟩ := Option.map_eq_some_iff.mp moved
      rw [Gateway.work_withoutStrangers,worked,Option.map_some,Option.map_some,Gateway.abandon_withoutStrangers]
      all_goals
        obtain ⟨_,_,rfl⟩ := Option.map_eq_some_iff.mp worked
      · exact guarded.inbound
      · exact guarded.outbound
    cases action with
    | accept client =>
      obtain ⟨allowed,same⟩ := Option.ite_none_left_eq_some.mp moved
      cases same
      rw [Gateway.acceptStep_withoutStrangers known]
      refine if_neg fun refused => allowed (refused.imp_right fun taken => ?_)
      obtain ⟨other,member,same⟩ := List.mem_map.mp taken
      exact List.mem_map.mpr ⟨other,List.mem_of_mem_filter member,same⟩
    | request i fault =>
      obtain ⟨entering,found,rfl⟩ := Option.map_eq_some_iff.mp moved
      have located : g.withoutStrangers.inbound[i]? = some entering := found
      simp only [Gateway.step,located,Option.map_some]
      rw [Gateway.requestStep_withoutStrangers (guarded.inbound entering (List.mem_of_getElem? found))]
    | respond i setups answer =>
      obtain ⟨leaving,found,rfl⟩ := Option.map_eq_some_iff.mp moved
      have located : g.withoutStrangers.outbound[i]? = some leaving := found
      simp only [Gateway.step,located,Option.map_some]
      rw [Gateway.respondStep_withoutStrangers (guarded.outbound leaving (List.mem_of_getElem? found))]
    | disconnect i =>
      obtain ⟨leaving,found,rfl⟩ := Option.map_eq_some_iff.mp moved
      have located : g.withoutStrangers.outbound[i]? = some leaving := found
      simp only [Gateway.step,located,Option.map_some]
      rw [Gateway.lose_withoutStrangers (guarded.outbound leaving (List.mem_of_getElem? found))]
      rfl
    | recv => exact background .recv moved
    | task i answer => exact background (.task i answer) moved
    | shutdown => exact background .shutdown moved
    | restart config => exact background (.restart config) moved
    | exit => exact ending .exit moved
    | crash lost => exact ending (.crash lost) moved

/-- Requests without a bearer token have no effect: the same schedule without them is possible
and leads to the same state but for their own records, and all of them that are answered are
refused, without anything being sent to the node. -/
theorem strangers_unseen (deps : Dependencies Proof Encoded Body) (node : Upstream) (config : Config)
    (actions : List (GatewayAction Proof Body))
    (executes : Executes (Gateway.step deps node) Free (Gateway.initial config) actions) :
    let g : Gateway Proof Encoded Body := final (Gateway.step deps node) (.initial config) actions
    Executes (Gateway.step deps node) Free (Gateway.initial config : Gateway Proof Encoded Body)
        (actions.filter GatewayAction.known) ∧
      final (Gateway.step deps node) (.initial config) (actions.filter GatewayAction.known) = g.withoutStrangers ∧
      ∀ entry ∈ g.replies, entry.1.known = false → entry.2 = badAuthResponse deps ∧ g.sentFor entry.1.id = [] := by
  obtain ⟨erased,same⟩ := strangers_unseen_step.erased ⟨_,.initial config⟩ executes
  refine ⟨erased,same,?_⟩
  intro entry member stranger
  obtain ⟨_,_,carries⟩ := gateway_carries (final_reaches _ _ executes)
  obtain ⟨_,_,_,_,made,_⟩ := carries.replies entry member
  have exchange := serve_stranger stranger made
  exact ⟨congrArg Exchange.response exchange,congrArg Exchange.forwarded exchange⟩

end

section
variable (deps) (node)

/-- A client with a bearer token has submitted a blob with some data. -/
def Gateway.Submitted (g : Gateway Proof Encoded Body) (data : Bytes) : Prop :=
  ∃ client ∈ g.accepted, ∃ origin, Authorized node client.request origin ∧ ∃ bodyJson blobs,
    origin.json deps = .ok bodyJson ∧ submittedBlobs deps bodyJson = some blobs ∧ ∃ blob ∈ blobs, blob.data = data

/-- Jobs, keys and what the network was given are those of some known data. -/
def traced (known : Set Bytes) : Assertions Proof Encoded Body where
  shared history queueDb finishedDb := (∀ key, key ∈ queueDb ∨ key ∈ finishedDb →
      ∃ data ∈ known, key = deps.jobKey (deps.jobOf data)) ∧
    ∀ stdin ∈ history.network.received, ∃ config nonce job, JobWithin deps known job ∧ stdin = proverStdin config nonce job
  request _ submission _ := ∀ blob ∈ submission.blob :: submission.rest, blob.data ∈ known
  task _ job _ := JobWithin deps known job
  message _ job := JobWithin deps known job
  served _ _ _ := True

end

section
variable {known : Set Bytes} {config : Config} {job : Job} {runner after : PdaRunner Encoded} {key : Bytes}

theorem CallStep.records_back {fault : Fault} {call : Call Proof} {progress : Progress (Call Proof) (CallResult Proof)}
    (moved : CallStep deps config job fault runner call after progress) (recorded : after.Records key) :
    runner.Records key ∨ key = deps.jobKey job := by
  cases moved with
  | retried error status =>
    rcases recorded with queued | finished
    · exact (AList.mem_insert _ |>.mp queued).elim .inr fun old => .inl (.inl old)
    · exact .inl (.inr (AList.mem_erase.mp finished).2)
  | inserted status =>
    rcases recorded with queued | finished
    · exact (AList.mem_insert _ |>.mp queued).elim .inr fun old => .inl (.inl old)
    · exact .inl (.inr finished)
  | _ => exact .inl recorded

theorem TaskStep.records_back {stage : Stage Proof} {answer : Answer Proof} {progress : Progress (Stage Proof) ProveResult}
    (moved : TaskStep deps config job runner stage answer after progress) (recorded : after.Records key) :
    runner.Records key ∨ key = deps.jobKey job := by
  cases moved with
  | finalized status =>
    rcases recorded with queued | finished
    · exact .inl (.inl (AList.mem_erase.mp queued).2)
    · exact (AList.mem_insert _ |>.mp finished).elim .inr fun old => .inl (.inr old)
  | updated status =>
    rcases recorded with queued | finished
    · exact (AList.mem_insert _ |>.mp queued).elim .inr fun old => .inl (.inl old)
    · exact .inl (.inr (AList.mem_erase.mp finished).2)
  | _ => exact .inl recorded

theorem Network.observe_received (network : Network) (stage : Stage Proof) (answer : Answer Proof) {stdin : List Bytes}
    (shown : stdin ∈ (network.observe deps config job stage answer).received) :
    stdin ∈ network.received ∨ ∃ nonce, stdin = proverStdin config nonce job := by
  unfold Network.observe at shown
  split at shown
  next nonce result =>
    dsimp only at shown
    split at shown
    next =>
      rcases List.mem_append.mp shown with old | new
      · exact .inl old
      · exact .inr ⟨nonce,List.mem_singleton.mp new⟩
    next => exact .inl shown
  next => exact .inl shown

theorem traced_stable : (traced deps known).Stable deps (fun _ action => Receives (Within deps known) action)
    (hashKeys deps).Holds where
  shared_grows _ _ before now := ⟨before.1,now.2⟩
  request_grows _ _ within := within
  task_grows _ _ within := within
  message_grows _ _ within := within
  served_grows _ _ := trivial
  request_message {_ submission _} within := ⟨submission.blob.data,within _ (by simp),rfl⟩
  task_message within := within
  message_task within := within
  receive _ _ allowed := ⟨fun _ waits => Within.submission allowed waits,fun _ _ => trivial⟩
  call {_ _ _ thread _ _} _ holds _ _ within moved := by
    refine ⟨⟨fun key recorded => ?_,holds.shared.2⟩,within⟩
    rcases moved.records_back recorded with old | rfl
    · exact holds.shared.1 key old
    · exact ⟨thread.submission.blob.data,within _ (by simp),rfl⟩
  answer {_ _ _ thread _ _} _ holds _ _ within moved := by
    refine ⟨⟨fun key recorded => ?_,holds.shared.2⟩,?_,fun _ _ => trivial⟩
    · rcases moved.records_back recorded with old | rfl
      · exact holds.shared.1 key old
      · exact ⟨thread.submission.blob.data,within _ (by simp),rfl⟩
    · intro next resumed blob later
      apply within
      rw [(resume_next resumed).1]
      exact List.mem_cons_of_mem _ later
  work {_ _ _ task _ _} _ holds _ _ within moved := by
    refine ⟨⟨fun key recorded => ?_,fun stdin shown => ?_⟩,fun _ _ => within⟩
    · rcases moved.records_back recorded with old | rfl
      · exact holds.shared.1 key old
      · obtain ⟨data,member,same⟩ := within
        exact ⟨data,member,congrArg deps.jobKey same⟩
    · rcases Network.observe_received _ _ _ shown with old | ⟨nonce,rfl⟩
      · exact holds.shared.2 stdin old
      · exact ⟨_,nonce,task.job,within,rfl⟩
  restart hashed holds _ _ recovered := by
    refine ⟨holds.shared,fun job member => ?_⟩
    rw [(restart_ok hashed.shared recovered).2] at member
    cases member

end

/-- Nothing is queued, proved or given to the prover network but what a client with a bearer
token has submitted. -/
theorem only_submitted (deps : Dependencies Proof Encoded Body) (node : Upstream) (config : Config)
    (g : Gateway Proof Encoded Body) (run : Reaches (Gateway.step deps node) Free (Gateway.initial config) g) :
    (∀ key, g.runner.Records key → ∃ data, g.Submitted deps node data ∧ key = deps.jobKey (deps.jobOf data)) ∧
    (∀ job, some job ∈ g.runner.channel → ∃ data, g.Submitted deps node data ∧ job = deps.jobOf data) ∧
    (∀ task ∈ g.tasks, ∃ data, g.Submitted deps node data ∧ task.job = deps.jobOf data) ∧
    ∀ stdin ∈ g.network.received, ∃ config nonce data, g.Submitted deps node data ∧
      stdin = proverStdin config nonce (deps.jobOf data) := by
  obtain ⟨s,reached,carries⟩ := gateway_carries run
  have received (u : State Proof Encoded Body) (action : Action Proof Body) (known : FromClients node g.accepted u action) :
      Receives (Within deps (g.Submitted deps node)) action := by
    cases action with
    | receive req =>
      obtain ⟨client,member,authorized⟩ := known
      intro bodyJson read blob listed
      cases submitted : submittedBlobs deps bodyJson with
      | none => simp [submitted] at listed
      | some blobs =>
        rw [submitted] at listed
        cases parsed : req.json deps with
        | error e => simp [parsed,Except.toOption] at read
        | ok json =>
          obtain rfl : json = bodyJson := by simpa [parsed,Except.toOption] using read
          exact ⟨client,member,req,authorized,json,blobs,parsed,submitted,blob,listed,rfl⟩
    | _ => trivial
  have holds : (traced deps (g.Submitted deps node)).Holds s := by
    refine Assertions.holds_reaches traced_stable (reached.weaken received) (fun _ earlier => hashKeys_reaches earlier) ?_
    refine ⟨fun key recorded => ?_,fun _ shown => by cases shown⟩
    exact recorded.elim (absurd · (AList.notMem_empty key)) (absurd · (AList.notMem_empty key))
  have runner : s.runner = g.runner := congrArg State.runner carries.service
  have tasks : s.tasks = g.tasks := congrArg State.tasks carries.service
  have network : s.network = g.network := congrArg State.network carries.service
  refine ⟨?_,?_,?_,?_⟩
  · exact runner ▸ holds.shared.1
  · exact runner ▸ holds.message
  · exact tasks ▸ holds.task
  · intro stdin shown
    have given : stdin ∈ s.network.received := network ▸ shown
    obtain ⟨config,nonce,job,⟨data,submitted,rfl⟩,same⟩ := holds.shared.2 stdin given
    exact ⟨config,nonce,data,submitted,same⟩

namespace Tabulated

/-- A request without a bearer token that would otherwise queue its blob. -/
def stranger : Client Json := ⟨2,⟨"POST",some "/",[],.ok (call "blob.Submit" [plainBlob])⟩⟩

end Tabulated

set_option maxRecDepth 2048 in
theorem strangers_unseen_returns :
    let g := final (Gateway.step Tabulated.dependencies Tabulated.node) (.initial Tabulated.localConfig)
      (.accept Tabulated.stranger :: Tabulated.clientReturns)
    final (Gateway.step Tabulated.dependencies Tabulated.node) (.initial Tabulated.localConfig) Tabulated.clientReturns =
      g.withoutStrangers :=
  (strangers_unseen Tabulated.dependencies Tabulated.node Tabulated.localConfig
    (.accept Tabulated.stranger :: Tabulated.clientReturns)
    (by rw [Tabulated.dependencies_eq]; decide +kernel)).2.1

set_option maxRecDepth 2048 in
theorem only_submitted_returns :
    let g := Tabulated.gatewayRun Tabulated.localConfig Tabulated.clientReturns
    ∀ key, g.runner.Records key → ∃ data, g.Submitted Tabulated.dependencies Tabulated.node data ∧
      key = Tabulated.dependencies.jobKey (Tabulated.dependencies.jobOf data) :=
  (only_submitted Tabulated.dependencies Tabulated.node Tabulated.localConfig _
    (Tabulated.gatewayRun_reaches _ Tabulated.clientReturns (by decide +kernel))).1

end PdaProxy
