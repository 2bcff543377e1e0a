import PdaProxy.Completion
import PdaProxy.Replies

/-! The proxy as its clients see it: the accept loop of `main`, any number of its closures at
any point, and the service that they share. The requests of the service are those of the
closures inside `inbound_handler`, and what a closure replies is what `serve` says. -/
namespace PdaProxy
open PdaProxy.Semantics.Serialization PdaProxy.Semantics.Transition PdaProxy.Semantics.Pool

variable {Proof Encoded Body : Type}

/-- A request that came in. Two of them are told apart by their `id`, also where they ask for
the same. -/
structure Client (Body : Type) where
  id : Nat
  request : ClientRequest Body

/-- A closure inside `inbound_handler`. -/
structure Entering (Proof Body : Type) where
  client : Client Body
  thread : RequestThread Proof Body

/-- A closure that waits for the node. -/
structure Leaving (Body : Type) where
  client : Client Body
  plaintextReq : IncomingRequest Body
  wrappedReq : Request Body

/-- What came of a request to the node, and the process and the setups that the closure of a
client read it with. -/
structure Heard (Body : Type) where
  id : Nat
  config : Config
  setups : Nat → Except PdaRunnerError SP1ProofSetup
  answer : Except String (IncomingResponse Body)

/-- `sent` records the requests to the node and `heard` what came of them, and `lost` the clients
whose connection ended without a response. -/
structure Gateway (Proof Encoded Body : Type) where
  config : Config
  process : Process
  runner : PdaRunner Encoded
  inbound : List (Entering Proof Body)
  outbound : List (Leaving Body)
  tasks : List (ProveTask Proof)
  network : Network
  accepted : List (Client Body)
  sent : List (Nat × Request Body)
  heard : List (Heard Body)
  replies : List (Client Body × Response Body)
  lost : List (Client Body)

inductive GatewayAction (Proof Body : Type)
  | accept (client : Client Body)
  | request (i : Nat) (fault : Fault)
  | respond (i : Nat) (setups : Nat → Except PdaRunnerError SP1ProofSetup) (answer : Except String (IncomingResponse Body))
  | disconnect (i : Nat)
  | recv
  | task (i : Nat) (answer : Answer Proof)
  | shutdown
  | exit
  | crash (lost : Nat)
  | restart (config : Config)

namespace Gateway

def initial (config : Config) : Gateway Proof Encoded Body :=
  ⟨config,.running,.empty,[],[],[],⟨[],[]⟩,[],[],[],[],[]⟩

/-- What the service is without the records of what it returned. -/
def service (g : Gateway Proof Encoded Body) : State Proof Encoded Body :=
  ⟨g.config,g.process,g.runner,g.inbound.map Entering.thread,g.tasks,g.network,[],[]⟩

def reply (g : Gateway Proof Encoded Body) (client : Client Body) (response : Response Body) : Gateway Proof Encoded Body :=
  { g with replies := g.replies ++ [(client,response)] }

def lose (g : Gateway Proof Encoded Body) (client : Client Body) : Gateway Proof Encoded Body :=
  { g with lost := g.lost ++ [client] }

/-- The end of the process takes every connection with it. -/
def abandon (g : Gateway Proof Encoded Body) : Gateway Proof Encoded Body :=
  { g with
    inbound := []
    outbound := []
    lost := g.lost ++ g.inbound.map Entering.client ++ g.outbound.map Leaving.client }

section
variable (deps : Dependencies Proof Encoded Body) (node : Upstream)

/-- The closure once `inbound_handler` has come to a call or to its end. -/
def proceed (g : Gateway Proof Encoded Body) (client : Client Body) (plaintextReq : IncomingRequest Body) :
    Inbound Body → Gateway Proof Encoded Body
  | .encrypt submission => { g with inbound := g.inbound ++ [⟨client,⟨submission,.readFinished⟩⟩] }
  | .done (.error e) => g.reply client (internalErrorResponse deps e)
  | .done (.ok none) => g.reply client (pendingResponse deps)
  | .done (.ok (some wrappedReq)) => { g with
      sent := g.sent ++ [(client.id,wrappedReq)]
      outbound := g.outbound ++ [⟨client,plaintextReq,wrappedReq⟩] }

/-- A URI that does not parse panics before anything is looked at. -/
def acceptStep (g : Gateway Proof Encoded Body) (client : Client Body) : Gateway Proof Encoded Body :=
  let accepted := { g with accepted := g.accepted ++ [client] }
  match rewriteUri node client.request with
  | none => accepted.lose client
  | some plaintextReq =>
    if hasBearer plaintextReq.parts.headers then
      accepted.proceed deps client plaintextReq (inboundHandler deps plaintextReq)
    else accepted.reply client (badAuthResponse deps)

def requestStep (g : Gateway Proof Encoded Body) (i : Nat) (entering : Entering Proof Body) (fault : Fault) :
    Gateway Proof Encoded Body :=
  let submission := entering.thread.submission
  let (runner,progress) := getVerifiableEncryption deps g.config (submission.job deps) fault g.runner entering.thread.call
  match progress with
  | .next call => { g with runner, inbound := g.inbound.set i { entering with thread := { entering.thread with call } } }
  | .panicked => { g with runner, inbound := g.inbound.eraseIdx i }.lose entering.client
  | .returned result => proceed deps { g with runner, inbound := g.inbound.eraseIdx i } entering.client
      submission.origin (submission.resume deps result)

def respondStep (g : Gateway Proof Encoded Body) (i : Nat) (leaving : Leaving Body)
    (setups : Nat → Except PdaRunnerError SP1ProofSetup) (answer : Except String (IncomingResponse Body)) :
    Gateway Proof Encoded Body :=
  let others := { g with
    outbound := g.outbound.eraseIdx i
    heard := g.heard ++ [Heard.mk leaving.client.id g.config setups answer] }
  match returned deps g.config setups (leaving.plaintextReq.requestMethod deps) answer with
  | none => others.lose leaving.client
  | some response => others.reply leaving.client response

/-- A step that the closures have no part in. -/
def work (g : Gateway Proof Encoded Body) (action : Action Proof Body) : Option (Gateway Proof Encoded Body) :=
  (g.service.step deps action).map fun s => { g with
    config := s.config
    process := s.process
    runner := s.runner
    tasks := s.tasks
    network := s.network }

/-- A client that closes its connection while the node is asked takes the closure with it. -/
def step (g : Gateway Proof Encoded Body) : GatewayAction Proof Body → Option (Gateway Proof Encoded Body)
  | .accept client =>
    if g.process = .stopped ∨ client.id ∈ g.accepted.map Client.id then none else some (g.acceptStep deps node client)
  | .request i fault => g.inbound[i]?.map (g.requestStep deps i · fault)
  | .respond i setups answer => g.outbound[i]?.map (g.respondStep deps i · setups answer)
  | .disconnect i => g.outbound[i]?.map fun leaving => { g with outbound := g.outbound.eraseIdx i }.lose leaving.client
  | .recv => g.work deps .recv
  | .task i answer => g.work deps (.task i answer)
  | .shutdown => g.work deps .shutdown
  | .exit => (g.work deps .exit).map abandon
  | .crash lost => (g.work deps (.crash lost)).map abandon
  | .restart config => g.work deps (.restart config)

end

/-- The requests to the node that were made for a client. -/
def sentFor (g : Gateway Proof Encoded Body) (id : Nat) : List (Request Body) :=
  (g.sent.filter (·.1 == id)).map Prod.snd

/-- The clients of the open connections, and of those that have ended. -/
def clients (g : Gateway Proof Encoded Body) : List (Client Body) :=
  g.inbound.map Entering.client ++ g.outbound.map Leaving.client ++ g.replies.map Prod.fst ++ g.lost

end Gateway

/-- A step that the closures of the running process do not notice. -/
def Action.Background : Action Proof Body → Prop
  | .recv | .task _ _ | .shutdown | .restart _ => True
  | .receive _ | .request _ _ | .exit | .crash _ => False

def Action.Ending : Action Proof Body → Prop
  | .exit | .crash _ => True
  | .receive _ | .request _ _ | .recv | .task _ _ | .shutdown | .restart _ => False

def State.quiet (s : State Proof Encoded Body) : State Proof Encoded Body := { s with answered := [], served := [] }

section
variable (deps : Dependencies Proof Encoded Body) (node : Upstream)

/-- A request that gets past the check for a bearer token, and what it is then. -/
structure Authorized (request : ClientRequest Body) (origin : IncomingRequest Body) : Prop where
  rewritten : rewriteUri node request = some origin
  bearer : hasBearer origin.parts.headers = true

/-- The service receives what gets past the check, and nothing else. -/
def FromClients (accepted : List (Client Body)) (_ : State Proof Encoded Body) : Action Proof Body → Prop
  | .receive req => ∃ client ∈ accepted, Authorized node client.request req
  | _ => True

/-- What `serve` makes of a request, with what the service has served for it and, where it was
sent to the node, with what was heard of the node for it. -/
def ServedBy (heard : List (Heard Body)) (served : List (IncomingRequest Body × InboundResult Body)) (client : Client Body)
    (exchange : Exchange Body) : Prop :=
  ∃ config setups result answer, serve deps node config setups (fun _ => result) answer client.request = some exchange ∧
    (∀ origin, Authorized node client.request origin → (origin,result) ∈ served) ∧
    (exchange.forwarded ≠ [] → Heard.mk client.id config setups answer ∈ heard)

/-- The gateway over the service, while some clients are in no pool: every client has one
place, and what it was answered and what was sent for it are as `serve` has them. -/
structure Gateway.Carries (held : List (Client Body)) (g : Gateway Proof Encoded Body) (s : State Proof Encoded Body) :
    Prop where
  service : s.quiet = g.service
  placed : (held ++ g.clients).Perm g.accepted
  distinct : (g.accepted.map Client.id).Nodup
  known : ∀ entry ∈ g.sent, entry.1 ∈ g.accepted.map Client.id
  inbound : ∀ entering ∈ g.inbound, Authorized node entering.client.request entering.thread.submission.origin ∧
    g.sentFor entering.client.id = []
  outbound : ∀ leaving ∈ g.outbound, Authorized node leaving.client.request leaving.plaintextReq ∧
    (leaving.plaintextReq,.ok (some leaving.wrappedReq)) ∈ s.served ∧ g.sentFor leaving.client.id = [leaving.wrappedReq]
  replies : ∀ entry ∈ g.replies, ServedBy deps node g.heard s.served entry.1 ⟨g.sentFor entry.1.id,entry.2⟩
  lost : ∀ client ∈ g.lost, (g.sentFor client.id).length ≤ 1

end

variable {deps : Dependencies Proof Encoded Body} {node : Upstream}

theorem background_step {s t : State Proof Encoded Body} {action : Action Proof Body} (background : action.Background)
    (stepped : s.step deps action = some t) : t.served = s.served ∧ t.requests = s.requests := by
  cases step_cases stepped with
  | receive | callNext | callReturned | callPanicked | exit | crash => exact background.elim
  | _ => exact ⟨rfl,rfl⟩

theorem ending_step {s t : State Proof Encoded Body} {action : Action Proof Body} (ending : action.Ending)
    (stepped : s.step deps action = some t) : ∃ found, t = s.stop found := by
  cases step_cases stepped with
  | exit up => exact ⟨_,rfl⟩
  | crash lost found up left => exact ⟨found,rfl⟩
  | _ => exact ending.elim

theorem quiet_step (s : State Proof Encoded Body) {action : Action Proof Body}
    (unnoticed : action.Background ∨ action.Ending) :
    s.quiet.step deps action = (s.step deps action).map State.quiet := by
  cases action with
  | receive | request => exact unnoticed.elim False.elim False.elim
  | recv =>
    simp only [State.step,State.workerStep,State.quiet]
    split <;> rfl
  | task i answer =>
    simp only [State.step,State.quiet,Option.map_bind]
    congr 1
    funext task
    simp only [State.taskStep,Function.comp]
    split
    next => rfl
    next => split <;> rfl
  | shutdown | exit =>
    simp only [State.step,apply_ite (Option.map State.quiet)]
    rfl
  | crash lost =>
    simp only [State.step,apply_ite (Option.map State.quiet),Option.map_map]
    rfl
  | restart config =>
    have restarted : s.quiet.restartStep deps config = (s.restartStep deps config).quiet := by
      simp only [State.restartStep,State.quiet]
      split <;> rfl
    simp only [State.step,apply_ite (Option.map State.quiet),restarted]
    rfl

theorem FromClients.grows {accepted later : List (Client Body)} (grown : accepted ⊆ later) (s : State Proof Encoded Body)
    (action : Action Proof Body) (known : FromClients node accepted s action) : FromClients node later s action := by
  cases action with
  | receive req =>
    obtain ⟨client,member,authorized⟩ := known
    exact ⟨client,grown member,authorized⟩
  | _ => trivial

theorem ServedBy.grows {heard more : List (Heard Body)} {served later : List (IncomingRequest Body × InboundResult Body)}
    (grows : heard ⊆ more) (grown : served ⊆ later) {client : Client Body} {exchange : Exchange Body}
    (made : ServedBy deps node heard served client exchange) : ServedBy deps node more later client exchange := by
  obtain ⟨config,setups,result,answer,exchanged,entry,asked⟩ := made
  exact ⟨config,setups,result,answer,exchanged,fun origin authorized => grown (entry origin authorized),
    fun sent => grows (asked sent)⟩

section
variable {held : List (Client Body)} {g : Gateway Proof Encoded Body} {s t : State Proof Encoded Body} {client : Client Body}

theorem Gateway.sentFor_forward (wrappedReq : Request Body) (id : Nat) :
    ({ g with sent := g.sent ++ [(client.id,wrappedReq)] } : Gateway Proof Encoded Body).sentFor id =
      if client.id = id then g.sentFor id ++ [wrappedReq] else g.sentFor id := by
  unfold Gateway.sentFor
  by_cases same : client.id = id <;> simp [same]

/-- What a client in hand is not mixed up with. -/
theorem Gateway.Carries.other (carries : Gateway.Carries deps node (client :: held) g s) {other : Client Body}
    (member : other ∈ held ++ g.clients) : client.id ≠ other.id := by
  have distinct : ((client :: (held ++ g.clients)).map Client.id).Nodup :=
    (carries.placed.map Client.id).nodup_iff.mpr carries.distinct
  intro same
  rw [List.map_cons,List.nodup_cons] at distinct
  exact distinct.1 (same ▸ List.mem_map_of_mem member)

theorem Gateway.Carries.accepted_mem (carries : Gateway.Carries deps node (client :: held) g s) : client ∈ g.accepted :=
  carries.placed.subset List.mem_cons_self

/-- The closures of some clients move, are taken in hand or are let go, and nothing ends. -/
theorem Gateway.Carries.moves (carries : Gateway.Carries deps node held g s) {config : Config} {process : Process}
    {runner : PdaRunner Encoded} {tasks : List (ProveTask Proof)} {network : Network}
    {inbound : List (Entering Proof Body)} {outbound : List (Leaving Body)} (hands : List (Client Body))
    (service : t.quiet =
      ({ g with config, process, runner, tasks, network, inbound, outbound } : Gateway Proof Encoded Body).service)
    (served : s.served ⊆ t.served)
    (entering : ∀ entering ∈ inbound, ∃ old ∈ g.inbound, entering.client = old.client ∧
      entering.thread.submission.origin = old.thread.submission.origin)
    (leaving : outbound ⊆ g.outbound)
    (placed : (hands ++ (inbound.map Entering.client ++ outbound.map Leaving.client)).Perm
      (held ++ (g.inbound.map Entering.client ++ g.outbound.map Leaving.client))) :
    Gateway.Carries deps node hands { g with config, process, runner, tasks, network, inbound, outbound } t := by
  refine ⟨service,?_,carries.distinct,carries.known,?_,?_,?_,carries.lost⟩
  · have ended := placed.append_right (g.replies.map Prod.fst ++ g.lost)
    refine List.Perm.trans ?_ (ended.trans ?_)
    · simp [Gateway.clients]
    · simpa [Gateway.clients] using carries.placed
  · intro moved member
    obtain ⟨old,present,client,origin⟩ := entering moved member
    rw [client,origin]
    exact carries.inbound old present
  · intro moved member
    obtain ⟨authorized,result,sent⟩ := carries.outbound moved (leaving member)
    exact ⟨authorized,served result,sent⟩
  · exact fun entry member => (carries.replies entry member).grows (List.Subset.refl _) served

theorem Gateway.Carries.reply (carries : Gateway.Carries deps node (client :: held) g s) {response : Response Body}
    (made : ServedBy deps node g.heard s.served client ⟨g.sentFor client.id,response⟩) :
    Gateway.Carries deps node held (g.reply client response) s := by
  refine ⟨carries.service,?_,carries.distinct,carries.known,carries.inbound,carries.outbound,
    forall_concat carries.replies made,carries.lost⟩
  have middle := @List.perm_middle _ client (held ++ (g.inbound.map Entering.client ++ g.outbound.map Leaving.client ++
    g.replies.map Prod.fst)) g.lost
  refine List.Perm.trans ?_ (middle.trans ?_)
  · simp [Gateway.clients,Gateway.reply]
  · simpa [Gateway.clients,Gateway.reply] using carries.placed

theorem Gateway.Carries.lose {clients : List (Client Body)} (carries : Gateway.Carries deps node (clients ++ held) g s)
    (sizes : ∀ client ∈ clients, (g.sentFor client.id).length ≤ 1) :
    Gateway.Carries deps node held { g with lost := g.lost ++ clients } s := by
  refine ⟨carries.service,?_,carries.distinct,carries.known,carries.inbound,carries.outbound,carries.replies,
    List.forall_mem_append.mpr ⟨carries.lost,sizes⟩⟩
  have swapped := (@List.perm_append_comm _ (held ++ g.clients) clients).trans
    (List.append_assoc clients held g.clients ▸ carries.placed)
  simpa [Gateway.clients] using swapped

theorem Gateway.Carries.loseOne (carries : Gateway.Carries deps node [client] g s) (size : (g.sentFor client.id).length ≤ 1) :
    Gateway.Carries deps node [] (g.lose client) s := by
  have taken : Gateway.Carries deps node ([client] ++ []) g s := carries
  exact taken.lose fun other member => List.mem_singleton.mp member ▸ size

theorem Gateway.Carries.enter (carries : Gateway.Carries deps node (client :: held) g s) {submission : Submission Body}
    (authorized : Authorized node client.request submission.origin) (unsent : g.sentFor client.id = []) :
    Gateway.Carries deps node held { g with inbound := g.inbound ++ [⟨client,⟨submission,.readFinished⟩⟩] }
      { s with requests := s.requests ++ [⟨submission,.readFinished⟩] } := by
  refine ⟨?_,?_,carries.distinct,carries.known,forall_concat carries.inbound ?_,carries.outbound,carries.replies,
    carries.lost⟩
  · have requests : s.requests = g.inbound.map Entering.thread := congrArg State.requests carries.service
    have others := carries.service
    simp_all [State.quiet,Gateway.service]
  · have middle := @List.perm_middle _ client (held ++ g.inbound.map Entering.client)
      (g.outbound.map Leaving.client ++ g.replies.map Prod.fst ++ g.lost)
    refine List.Perm.trans ?_ (middle.trans ?_)
    · simp [Gateway.clients]
    · simpa [Gateway.clients] using carries.placed
  · exact ⟨authorized,unsent⟩

/-- What is sent for a client in hand does not show at the others. -/
theorem Gateway.Carries.forward (carries : Gateway.Carries deps node (client :: held) g s)
    {plaintextReq : IncomingRequest Body} {wrappedReq : Request Body}
    (authorized : Authorized node client.request plaintextReq) (unsent : g.sentFor client.id = [])
    (served : (plaintextReq,.ok (some wrappedReq)) ∈ s.served) :
    Gateway.Carries deps node held { g with
      sent := g.sent ++ [(client.id,wrappedReq)]
      outbound := g.outbound ++ [⟨client,plaintextReq,wrappedReq⟩] } s := by
  have others {other : Client Body} (member : other ∈ g.clients) :
      ({ g with sent := g.sent ++ [(client.id,wrappedReq)] } : Gateway Proof Encoded Body).sentFor other.id =
        g.sentFor other.id := by
    rw [Gateway.sentFor_forward,if_neg (carries.other (List.mem_append_right _ member))]
  refine ⟨carries.service,?_,carries.distinct,forall_concat carries.known (List.mem_map_of_mem carries.accepted_mem),
    ?_,forall_concat ?_ ⟨authorized,served,?_⟩,?_,?_⟩
  · have middle := @List.perm_middle _ client (held ++ (g.inbound.map Entering.client ++ g.outbound.map Leaving.client))
      (g.replies.map Prod.fst ++ g.lost)
    refine List.Perm.trans ?_ (middle.trans ?_)
    · simp [Gateway.clients]
    · simpa [Gateway.clients] using carries.placed
  · intro entering member
    have place : entering.client ∈ g.clients := by simp [Gateway.clients,List.mem_map_of_mem member]
    exact ⟨(carries.inbound entering member).1,(others place).trans (carries.inbound entering member).2⟩
  · intro leaving member
    have place : leaving.client ∈ g.clients := by simp [Gateway.clients,List.mem_map_of_mem member]
    obtain ⟨authorized,served,sent⟩ := carries.outbound leaving member
    exact ⟨authorized,served,(others place).trans sent⟩
  · exact (Gateway.sentFor_forward wrappedReq client.id).trans (by rw [if_pos rfl,unsent,List.nil_append])
  · intro entry member
    have place : entry.1 ∈ g.clients := by simp [Gateway.clients,List.mem_map_of_mem member]
    exact (others place).symm ▸ carries.replies entry member
  · intro client member
    have place : client ∈ g.clients := by simp [Gateway.clients,member]
    exact (congrArg List.length (others place)).trans_le (carries.lost client member)

/-- The service moves on with the closure that it has come to an answer for. -/
theorem Gateway.Carries.proceed (carries : Gateway.Carries deps node (client :: held) g s)
    {plaintextReq : IncomingRequest Body} (authorized : Authorized node client.request plaintextReq)
    (unsent : g.sentFor client.id = []) (inbound : Inbound Body)
    (same : ∀ submission, inbound = .encrypt submission → submission.origin = plaintextReq) :
    Gateway.Carries deps node held (g.proceed deps client plaintextReq inbound) (s.deliver plaintextReq inbound) := by
  cases inbound with
  | encrypt submission => exact carries.enter (same submission rfl ▸ authorized) unsent
  | done result =>
    have served : (plaintextReq,result) ∈ s.served ++ [(plaintextReq,result)] := by simp
    have ended : Gateway.Carries deps node (client :: held) g { s with served := s.served ++ [(plaintextReq,result)] } :=
      carries.moves _ carries.service (List.subset_append_left _ _) (fun entering member => ⟨entering,member,rfl,rfl⟩)
        (fun _ member => member) (List.Perm.refl _)
    have bearer := rewriteUri_headers authorized.rewritten ▸ authorized.bearer
    have entry (origin : IncomingRequest Body) (again : Authorized node client.request origin) :
        (origin,result) ∈ s.served ++ [(plaintextReq,result)] := by
      obtain rfl := Option.some.inj (again.rewritten.symm.trans authorized.rewritten)
      exact served
    have setups : Nat → Except PdaRunnerError SP1ProofSetup := fun _ => .error (.internalError "")
    cases result with
    | error e =>
      refine ended.reply ⟨g.config,setups,_,.error "",?_,entry,fun sent => absurd unsent sent⟩
      rw [unsent]
      exact serve_error authorized.rewritten bearer e
    | ok wrapped =>
      cases wrapped with
      | none =>
        refine ended.reply ⟨g.config,setups,_,.error "",?_,entry,fun sent => absurd unsent sent⟩
        rw [unsent]
        exact serve_pending authorized.rewritten bearer
      | some wrappedReq => exact ended.forward authorized unsent served

theorem Gateway.Carries.accept (carries : Gateway.Carries deps node [] g s) (fresh : client.id ∉ g.accepted.map Client.id) :
    Gateway.Carries deps node [client] { g with accepted := g.accepted ++ [client] } s ∧ g.sentFor client.id = [] := by
  refine ⟨⟨carries.service,?_,?_,?_,carries.inbound,carries.outbound,carries.replies,carries.lost⟩,?_⟩
  · exact (carries.placed.cons client).trans (List.perm_append_singleton client g.accepted).symm
  · rw [List.map_append,List.nodup_append]
    exact ⟨carries.distinct,List.nodup_singleton _,by simpa using fresh⟩
  · intro entry member
    rw [List.map_append]
    exact List.mem_append_left _ (carries.known entry member)
  · simp only [Gateway.sentFor,List.map_eq_nil_iff,List.filter_eq_nil_iff,beq_iff_eq]
    intro entry member same
    exact fresh (same ▸ carries.known entry member)

theorem Gateway.Carries.entered (carries : Gateway.Carries deps node [] g s) (up : s.process ≠ .stopped)
    (fresh : client.id ∉ g.accepted.map Client.id) :
    ∃ t, Reaches (State.step deps) (FromClients node (g.accepted ++ [client])) s t ∧
      Gateway.Carries deps node [] (g.acceptStep deps node client) t := by
  obtain ⟨taken,unsent⟩ := carries.accept fresh
  unfold Gateway.acceptStep
  cases rewritten : rewriteUri node client.request with
  | none =>
    exact ⟨s,.refl,taken.loseOne (unsent ▸ Nat.zero_le 1)⟩
  | some plaintextReq =>
    dsimp only
    split
    next bearer =>
      refine ⟨_,.single ⟨.receive plaintextReq,⟨client,by simp,rewritten,bearer⟩,if_neg up⟩,?_⟩
      exact taken.proceed ⟨rewritten,bearer⟩ unsent _ fun submission waits => inboundHandler_origin waits
    next bearer =>
      refine ⟨s,.refl,taken.reply ⟨g.config,fun _ => .error (.internalError ""),.ok none,.error "",?_,?_,
        fun sent => absurd unsent sent⟩⟩
      · simp only [serve,rewritten,if_neg bearer]
        exact congrArg (fun forwarded => some (Exchange.mk forwarded _)) unsent.symm
      · intro origin authorized
        obtain rfl := Option.some.inj (rewritten.symm.trans authorized.rewritten)
        exact absurd authorized.bearer bearer

theorem Gateway.Carries.called (carries : Gateway.Carries deps node [] g s) {i : Nat} (fault : Fault)
    {entering : Entering Proof Body} (found : g.inbound[i]? = some entering) :
    ∃ t, s.step deps (.request i fault) = some t ∧
      Gateway.Carries deps node [] (g.requestStep deps i entering fault) t := by
  have config : s.config = g.config := congrArg State.config carries.service
  have runner : s.runner = g.runner := congrArg State.runner carries.service
  have requests : s.requests = g.inbound.map Entering.thread := congrArg State.requests carries.service
  have located : s.requests[i]? = some entering.thread := by simp [requests,found]
  have moved : s.step deps (.request i fault) = some (s.requestStep deps i entering.thread fault) := by
    simp [State.step,located]
  refine ⟨_,moved,?_⟩
  obtain ⟨before,after,pool,replaced,removed⟩ := split_at found
  have member : entering ∈ g.inbound := List.mem_of_getElem? found
  obtain ⟨authorized,unsent⟩ := carries.inbound entering member
  simp only [Gateway.requestStep,State.requestStep,config,runner]
  cases made : getVerifiableEncryption deps g.config (entering.thread.submission.job deps) fault g.runner
      entering.thread.call with
  | mk runner progress =>
    -- The closure whose call ends is in hand until it is known where it goes.
    have taken (t : State Proof Encoded Body) (answered : t.served = s.served)
        (service : t.quiet = ({ g with runner, inbound := g.inbound.eraseIdx i } : Gateway Proof Encoded Body).service) :
        Gateway.Carries deps node [entering.client] { g with runner, inbound := g.inbound.eraseIdx i } t := by
      refine carries.moves _ service (fun _ => answered ▸ id) ?_ (fun _ => id) ?_
      · intro other inside
        exact ⟨other,List.mem_of_mem_eraseIdx inside,rfl,rfl⟩
      · rw [removed,pool]
        simp only [List.map_append,List.map_cons,List.append_assoc,List.cons_append,List.nil_append]
        exact List.perm_middle.symm
    have others := carries.service
    simp only [State.quiet,Gateway.service,State.mk.injEq] at others
    cases progress with
    | next call =>
      dsimp only
      refine carries.moves _ ?_ (fun _ => id) ?_ (fun _ => id) ?_
      · simp [State.quiet,Gateway.service,others,List.map_set]
      · intro moved inside
        rw [replaced] at inside
        rcases List.mem_append.mp inside with old | new
        · exact ⟨moved,by simp [pool,old],rfl,rfl⟩
        · rcases List.mem_cons.mp new with rfl | old
          · exact ⟨entering,member,rfl,rfl⟩
          · exact ⟨moved,by simp [pool,old],rfl,rfl⟩
      · rw [replaced,pool]
        simp
    | panicked =>
      dsimp only
      refine (taken _ ?_ ?_).loseOne (unsent ▸ Nat.zero_le 1)
      · rfl
      · simp [State.quiet,Gateway.service,others,List.eraseIdx_map]
    | returned result =>
      dsimp only
      refine (taken _ ?_ ?_).proceed authorized unsent _ ?_
      · rfl
      · simp [State.quiet,Gateway.service,others,List.eraseIdx_map]
      · exact fun submission resumed => (resume_next resumed).2

theorem Gateway.Carries.leave (carries : Gateway.Carries deps node [] g s) {i : Nat} {leaving : Leaving Body}
    (found : g.outbound[i]? = some leaving) :
    Gateway.Carries deps node [leaving.client] { g with outbound := g.outbound.eraseIdx i } s := by
  obtain ⟨before,after,pool,_,removed⟩ := split_at found
  refine carries.moves _ carries.service (fun _ => id) (fun entering member => ⟨entering,member,rfl,rfl⟩) ?_ ?_
  · exact fun _ inside => List.mem_of_mem_eraseIdx inside
  · rw [removed,pool]
    simp only [List.map_append,List.map_cons,List.cons_append,List.nil_append]
    have middle := @List.perm_middle _ leaving.client (g.inbound.map Entering.client ++ before.map Leaving.client)
      (after.map Leaving.client)
    simpa using middle.symm

theorem Gateway.Carries.hear (carries : Gateway.Carries deps node held g s) (answered : Heard Body) :
    Gateway.Carries deps node held { g with heard := g.heard ++ [answered] } s :=
  ⟨carries.service,carries.placed,carries.distinct,carries.known,carries.inbound,carries.outbound,
    fun entry member => (carries.replies entry member).grows (List.subset_append_left _ _) (List.Subset.refl _),
    carries.lost⟩

theorem Gateway.Carries.responded (carries : Gateway.Carries deps node [] g s) {i : Nat} {leaving : Leaving Body}
    (found : g.outbound[i]? = some leaving) (setups : Nat → Except PdaRunnerError SP1ProofSetup)
    (answer : Except String (IncomingResponse Body)) :
    Gateway.Carries deps node [] (g.respondStep deps i leaving setups answer) s := by
  obtain ⟨authorized,served,sent⟩ := carries.outbound leaving (List.mem_of_getElem? found)
  have taken := (carries.leave found).hear ⟨leaving.client.id,g.config,setups,answer⟩
  unfold Gateway.respondStep
  cases made : returned deps g.config setups (leaving.plaintextReq.requestMethod deps) answer with
  | none => exact taken.loseOne (congrArg List.length sent).le
  | some response =>
    refine taken.reply ⟨g.config,setups,.ok (some leaving.wrappedReq),answer,?_,?_,fun _ => by simp⟩
    · rw [serve_forwarded authorized.rewritten (rewriteUri_headers authorized.rewritten ▸ authorized.bearer),made]
      exact congrArg (fun forwarded => some (Exchange.mk forwarded response)) sent.symm
    · intro origin again
      obtain rfl := Option.some.inj (again.rewritten.symm.trans authorized.rewritten)
      exact served

theorem Gateway.Carries.worked (carries : Gateway.Carries deps node [] g s) {action : Action Proof Body}
    (background : action.Background) {h : Gateway Proof Encoded Body} (moved : g.work deps action = some h) :
    ∃ t, s.step deps action = some t ∧ Gateway.Carries deps node [] h t := by
  obtain ⟨u,stepped,rfl⟩ := Option.map_eq_some_iff.mp moved
  rw [← carries.service,quiet_step s (.inl background)] at stepped
  obtain ⟨t,advanced,rfl⟩ := Option.map_eq_some_iff.mp stepped
  obtain ⟨served,requests⟩ := background_step background advanced
  have others := carries.service
  simp only [State.quiet,Gateway.service,State.mk.injEq] at others
  refine ⟨t,advanced,carries.moves _ ?_ (fun _ => served ▸ id) (fun entering member => ⟨entering,member,rfl,rfl⟩)
    (fun _ => id) (List.Perm.refl _)⟩
  simp [State.quiet,Gateway.service,requests,others]

/-- The end of the process ends every closure. -/
theorem Gateway.Carries.stopped (carries : Gateway.Carries deps node [] g s) {action : Action Proof Body}
    (ending : action.Ending) {h : Gateway Proof Encoded Body} (moved : g.work deps action = some h) :
    ∃ t, s.step deps action = some t ∧ Gateway.Carries deps node [] h.abandon t := by
  obtain ⟨u,stepped,rfl⟩ := Option.map_eq_some_iff.mp moved
  rw [← carries.service,quiet_step s (.inr ending)] at stepped
  obtain ⟨t,advanced,rfl⟩ := Option.map_eq_some_iff.mp stepped
  obtain ⟨found,rfl⟩ := ending_step ending advanced
  refine ⟨_,advanced,?_⟩
  have taken : Gateway.Carries deps node (g.inbound.map Entering.client ++ g.outbound.map Leaving.client ++ [])
      { g with
        config := (s.stop found).quiet.config
        process := (s.stop found).quiet.process
        runner := (s.stop found).quiet.runner
        inbound := []
        outbound := []
        tasks := (s.stop found).quiet.tasks
        network := (s.stop found).quiet.network } (s.stop found) :=
    carries.moves _ rfl (fun _ => id) (by simp) (by simp) (by simp)
  have sizes : ∀ client ∈ g.inbound.map Entering.client ++ g.outbound.map Leaving.client,
      (g.sentFor client.id).length ≤ 1 := by
    intro client inside
    rcases List.mem_append.mp inside with entered | left
    · obtain ⟨entering,member,rfl⟩ := List.mem_map.mp entered
      exact (carries.inbound entering member).2 ▸ Nat.zero_le 1
    · obtain ⟨leaving,member,rfl⟩ := List.mem_map.mp left
      exact (congrArg List.length (carries.outbound leaving member).2.2).le
  have ended := taken.lose sizes
  rw [← List.append_assoc] at ended
  exact ended

theorem Gateway.proceed_keeps (client : Client Body) (plaintextReq : IncomingRequest Body) (inbound : Inbound Body) :
    let h := g.proceed deps client plaintextReq inbound
    h.config = g.config ∧ h.accepted = g.accepted ∧ h.lost = g.lost := by
  dsimp only [Gateway.proceed]
  split <;> exact ⟨rfl,rfl,rfl⟩

theorem Gateway.acceptStep_accepted (client : Client Body) :
    (g.acceptStep deps node client).accepted = g.accepted ++ [client] := by
  unfold Gateway.acceptStep
  dsimp only
  split
  next => rfl
  next =>
    split
    next => exact (Gateway.proceed_keeps client _ _).2.1
    next => rfl

theorem Gateway.requestStep_accepted (i : Nat) (entering : Entering Proof Body) (fault : Fault) :
    (g.requestStep deps i entering fault).accepted = g.accepted := by
  simp only [Gateway.requestStep]
  split
  next => rfl
  next => rfl
  next => exact (Gateway.proceed_keeps entering.client _ _).2.1

theorem Gateway.respondStep_accepted (i : Nat) (leaving : Leaving Body)
    (setups : Nat → Except PdaRunnerError SP1ProofSetup) (answer : Except String (IncomingResponse Body)) :
    (g.respondStep deps i leaving setups answer).accepted = g.accepted := by
  unfold Gateway.respondStep
  dsimp only
  split <;> rfl

theorem Gateway.work_accepted {h : Gateway Proof Encoded Body} {action : Action Proof Body}
    (moved : g.work deps action = some h) :
    h.accepted = g.accepted := by
  obtain ⟨_,_,rfl⟩ := Option.map_eq_some_iff.mp moved
  rfl

/-- One step of the gateway is none or one of the service, and accepts at most one request. -/
theorem Gateway.Carries.step (carries : Gateway.Carries deps node [] g s) {action : GatewayAction Proof Body}
    {h : Gateway Proof Encoded Body} (moved : g.step deps node action = some h) :
    g.accepted ⊆ h.accepted ∧
      ∃ t, Reaches (State.step deps) (FromClients node h.accepted) s t ∧ Gateway.Carries deps node [] h t := by
  have background (own : Action Proof Body) (background : own.Background) (moved : g.work deps own = some h)
      (known : FromClients node h.accepted s own) : g.accepted ⊆ h.accepted ∧
      ∃ t, Reaches (State.step deps) (FromClients node h.accepted) s t ∧ Gateway.Carries deps node [] h t := by
    obtain ⟨t,stepped,carried⟩ := carries.worked background moved
    exact ⟨Gateway.work_accepted moved ▸ List.Subset.refl _,t,.single ⟨own,known,stepped⟩,carried⟩
  have ending (own : Action Proof Body) (ending : own.Ending) (moved : (g.work deps own).map Gateway.abandon = some h)
      (known : FromClients node h.accepted s own) : g.accepted ⊆ h.accepted ∧
      ∃ t, Reaches (State.step deps) (FromClients node h.accepted) s t ∧ Gateway.Carries deps node [] h t := by
    obtain ⟨last,worked,rfl⟩ := Option.map_eq_some_iff.mp moved
    obtain ⟨t,stepped,carried⟩ := carries.stopped ending worked
    exact ⟨Gateway.work_accepted worked ▸ List.Subset.refl _,t,.single ⟨own,known,stepped⟩,carried⟩
  cases action with
  | accept client =>
    obtain ⟨allowed,same⟩ := Option.ite_none_left_eq_some.mp moved
    cases same
    obtain ⟨up,fresh⟩ := not_or.mp allowed
    have running : s.process ≠ .stopped := congrArg State.process carries.service ▸ up
    rw [Gateway.acceptStep_accepted]
    exact ⟨List.subset_append_left _ _,carries.entered running fresh⟩
  | request i fault =>
    obtain ⟨entering,found,rfl⟩ := Option.map_eq_some_iff.mp moved
    obtain ⟨t,stepped,carried⟩ := carries.called fault found
    rw [Gateway.requestStep_accepted]
    exact ⟨List.Subset.refl _,t,.single ⟨.request i fault,trivial,stepped⟩,carried⟩
  | respond i setups answer =>
    obtain ⟨leaving,found,rfl⟩ := Option.map_eq_some_iff.mp moved
    rw [Gateway.respondStep_accepted]
    exact ⟨List.Subset.refl _,s,.refl,carries.responded found setups answer⟩
  | disconnect i =>
    obtain ⟨leaving,found,rfl⟩ := Option.map_eq_some_iff.mp moved
    have sent := (carries.outbound leaving (List.mem_of_getElem? found)).2.2
    exact ⟨List.Subset.refl _,s,.refl,(carries.leave found).loseOne (congrArg List.length sent).le⟩
  | recv => exact background .recv trivial moved trivial
  | task i answer => exact background (.task i answer) trivial moved trivial
  | shutdown => exact background .shutdown trivial moved trivial
  | restart config => exact background (.restart config) trivial moved trivial
  | exit => exact ending .exit trivial moved trivial
  | crash lost => exact ending (.crash lost) trivial moved trivial

theorem Gateway.Carries.initial (config : Config) :
    Gateway.Carries deps node [] (Gateway.initial config : Gateway Proof Encoded Body) (State.initial config) := by
  refine ⟨rfl,List.Perm.refl _,List.nodup_nil,?_,?_,?_,?_,?_⟩
  all_goals simp [Gateway.initial]

theorem gateway_carries {guard : Gateway Proof Encoded Body → GatewayAction Proof Body → Prop} {config : Config}
    (run : Reaches (Gateway.step deps node) guard (Gateway.initial config) g) :
    ∃ s, Reaches (State.step deps) (FromClients node g.accepted) (State.initial config) s ∧
      Gateway.Carries deps node [] g s := by
  induction run with
  | refl => exact ⟨_,.refl,.initial config⟩
  | tail _ last ih =>
    obtain ⟨s,reached,carries⟩ := ih
    obtain ⟨action,_,moved⟩ := last
    obtain ⟨grown,t,later,carried⟩ := carries.step moved
    exact ⟨t,(reached.weaken (FromClients.grows grown)).trans later,carried⟩

/-- Every run of the gateway is one of the service on the requests that get past the check, and
what each client is answered and what was sent to the node for it are what `serve` makes of its
request, of what the service served for it and of what was heard of the node for it. -/
theorem gateway_refines (deps : Dependencies Proof Encoded Body) (node : Upstream) (config : Config)
    (g : Gateway Proof Encoded Body) (run : Reaches (Gateway.step deps node) Free (Gateway.initial config) g) :
    ∃ s, Reaches (State.step deps) (FromClients node g.accepted) (State.initial config) s ∧ s.quiet = g.service ∧
      ∀ entry ∈ g.replies, ServedBy deps node g.heard s.served entry.1 ⟨g.sentFor entry.1.id,entry.2⟩ := by
  obtain ⟨s,reached,carries⟩ := gateway_carries run
  exact ⟨s,reached,carries.service,carries.replies⟩

end

namespace Tabulated

def gatewayRun (config : Config) (actions : List (GatewayAction Bytes Json)) : Gateway Bytes (JobStatus Bytes) Json :=
  final (Gateway.step dependencies Tabulated.node) (.initial config) actions

theorem gatewayRun_eq (config : Config) (actions : List (GatewayAction Bytes Json)) :
    gatewayRun config actions = final (Gateway.step quick Tabulated.node) (.initial config) actions := by
  rw [gatewayRun,dependencies_eq]

theorem gatewayRun_reaches {guard : Gateway Bytes (JobStatus Bytes) Json → GatewayAction Bytes Json → Prop} (config : Config)
    (actions : List (GatewayAction Bytes Json))
    (executes : Executes (Gateway.step quick Tabulated.node) guard (.initial config) actions) :
    Reaches (Gateway.step dependencies Tabulated.node) guard (.initial config) (gatewayRun config actions) := by
  rw [← dependencies_eq] at executes
  exact final_reaches _ actions executes

def submitting (id : Nat) : Client Json := ⟨id,⟨"POST",some "/",bearer,.ok (call "blob.Submit" [plainBlob])⟩⟩

/-- A client is put off, and one that asks again after the proof is made gets the node's answer. -/
def clientReturns : List (GatewayAction Bytes Json) :=
  [.accept (submitting 0),.request 0 none,.request 0 none,.request 0 none,.request 0 none,.recv,.task 0 (.storage none),
    .task 0 (.proved zeroNonce (.ok (plainProof zeroKey zeroNonce))),.task 0 (.storage none),.accept (submitting 1),
    .request 0 none,.respond 0 (fun _ => ready) (.ok ⟨⟨200,[]⟩,.ok (answer .null)⟩)]

end Tabulated

set_option maxRecDepth 2048 in
theorem gateway_refines_returns :
    let g := Tabulated.gatewayRun Tabulated.localConfig Tabulated.clientReturns
    ∃ s, Reaches (State.step Tabulated.dependencies) (FromClients Tabulated.node g.accepted)
        (State.initial Tabulated.localConfig) s ∧ s.quiet = g.service ∧
      ∀ entry ∈ g.replies, ServedBy Tabulated.dependencies Tabulated.node g.heard s.served entry.1
        ⟨g.sentFor entry.1.id,entry.2⟩ :=
  gateway_refines Tabulated.dependencies Tabulated.node Tabulated.localConfig _
    (Tabulated.gatewayRun_reaches _ Tabulated.clientReturns (by decide +kernel))

set_option maxRecDepth 2048 in
example : (Tabulated.gatewayRun Tabulated.localConfig Tabulated.clientReturns).replies.map
    (fun entry => (entry.1.id,entry.2.parts.status)) = [(0,202),(1,200)] := by
  rw [Tabulated.gatewayRun_eq]
  rfl

end PdaProxy
