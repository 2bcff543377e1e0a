import PdaProxy.Gateway

/-! What becomes of the clients of the gateway. None is answered twice or sent to the node
twice, and where nothing panics and no connection is cut, each schedule of the closures, the
worker and its tasks answers all of them. -/
namespace PdaProxy
open PdaProxy.Semantics.Serialization PdaProxy.Semantics.Transition PdaProxy.Semantics.Quiescence

variable {Proof Encoded Body : Type}

/-- What the process and the node do once the requests are there. -/
def GatewayAction.Internal : GatewayAction Proof Body → Prop
  | .request _ _ | .respond _ _ _ | .disconnect _ | .recv | .task _ _ | .exit => True
  | .accept _ | .shutdown | .crash _ | .restart _ => False

section
variable (deps : Dependencies Proof Encoded Body) (node : Upstream)

def Progress.panics {Point Result : Type} : Progress Point Result → Bool
  | .panicked => true
  | .next _ | .returned _ => false

/-- No connection is cut, and neither the new URI, nor a call, nor the node's answer makes a
closure panic. -/
def Untroubled (g : Gateway Proof Encoded Body) : GatewayAction Proof Body → Prop
  | .accept client => rewriteUri node client.request ≠ none
  | .respond i setups answer => ∀ leaving ∈ g.outbound[i]?,
      returned deps g.config setups (leaving.plaintextReq.requestMethod deps) answer ≠ none
  | .request i fault => ∀ entering ∈ g.inbound[i]?, (getVerifiableEncryption deps g.config
      (entering.thread.submission.job deps) fault g.runner entering.thread.call).2.panics = false
  | .recv | .task _ _ | .shutdown => True
  | .disconnect _ | .exit | .crash _ | .restart _ => False

/-- The process and the node finish what is there. -/
def Finishing (g : Gateway Proof Encoded Body) (action : GatewayAction Proof Body) : Prop :=
  action.Internal ∧ Untroubled deps node g action

/-- A bound on the steps of the process and the node, where each request can be sent on. -/
def Gateway.potential (g : Gateway Proof Encoded Body) : Nat := 2 * g.service.potential deps + g.outbound.length

end

variable {deps : Dependencies Proof Encoded Body} {node : Upstream}

instance (g : Gateway Proof Encoded Body) : DecidablePred (Untroubled deps node g)
  | .accept client => inferInstanceAs (Decidable (rewriteUri node client.request ≠ none))
  | .respond i setups answer => inferInstanceAs (Decidable (∀ leaving ∈ g.outbound[i]?,
      returned deps g.config setups (leaving.plaintextReq.requestMethod deps) answer ≠ none))
  | .request i fault => inferInstanceAs (Decidable (∀ entering ∈ g.inbound[i]?, (getVerifiableEncryption deps g.config
      (entering.thread.submission.job deps) fault g.runner entering.thread.call).2.panics = false))
  | .recv | .task _ _ | .shutdown => inferInstanceAs (Decidable True)
  | .disconnect _ | .exit | .crash _ | .restart _ => inferInstanceAs (Decidable False)

theorem serve_sends {config : Config} {setups : Nat → Except PdaRunnerError SP1ProofSetup}
    {inbound : IncomingRequest Body → InboundResult Body} {answer : Except String (IncomingResponse Body)}
    {request : ClientRequest Body} {exchange : Exchange Body}
    (made : serve deps node config setups inbound answer request = some exchange) : exchange.forwarded.length ≤ 1 := by
  unfold serve at made
  split at made
  next => cases made
  next plaintextReq rewritten =>
    split at made
    next bearer =>
      split at made
      next e failed => cases made; exact Nat.zero_le 1
      next pending => cases made; exact Nat.zero_le 1
      next wrappedReq forwarded =>
        obtain ⟨response,_,rfl⟩ := Option.map_eq_some_iff.mp made
        exact le_rfl
    next => cases made; exact Nat.zero_le 1

section
variable {g h : Gateway Proof Encoded Body} {s : State Proof Encoded Body}

theorem Gateway.Carries.sends (carries : Gateway.Carries deps node [] g s) (id : Nat) : (g.sentFor id).length ≤ 1 := by
  by_cases known : id ∈ g.accepted.map Client.id
  · obtain ⟨client,accepted,rfl⟩ := List.mem_map.mp known
    have place : client ∈ g.clients := carries.placed.mem_iff.mpr accepted
    simp only [Gateway.clients,List.mem_append,List.mem_map] at place
    rcases place with ((⟨entering,member,rfl⟩ | ⟨leaving,member,rfl⟩) | ⟨entry,member,rfl⟩) | lost
    · exact (carries.inbound entering member).2 ▸ Nat.zero_le 1
    · exact (congrArg List.length (carries.outbound leaving member).2.2).le
    · obtain ⟨_,_,_,_,made,_⟩ := carries.replies entry member
      exact serve_sends made
    · exact carries.lost client lost
  · have unsent : g.sentFor id = [] := by
      simp only [Gateway.sentFor,List.map_eq_nil_iff,List.filter_eq_nil_iff,beq_iff_eq]
      exact fun entry member same => known (same ▸ carries.known entry member)
    exact unsent ▸ Nat.zero_le 1

/-- In every run each request that came in is in one place, inside the proxy, with the node,
answered or lost, and goes to the node at most once. -/
theorem answered_once (deps : Dependencies Proof Encoded Body) (node : Upstream) (config : Config)
    (g : Gateway Proof Encoded Body) (run : Reaches (Gateway.step deps node) Free (Gateway.initial config) g) :
    (g.clients.map Client.id).Nodup ∧ (∀ client, client ∈ g.clients ↔ client ∈ g.accepted) ∧
      ∀ id, (g.sentFor id).length ≤ 1 := by
  obtain ⟨s,_,carries⟩ := gateway_carries run
  have placed : g.clients.Perm g.accepted := carries.placed
  exact ⟨(placed.map Client.id).nodup_iff.mpr carries.distinct,fun _ => placed.mem_iff,carries.sends⟩

set_option maxRecDepth 2048 in
theorem answered_once_returns :
    let g := Tabulated.gatewayRun Tabulated.localConfig Tabulated.clientReturns
    (g.clients.map Client.id).Nodup ∧ (∀ client, client ∈ g.clients ↔ client ∈ g.accepted) ∧
      ∀ id, (g.sentFor id).length ≤ 1 :=
  answered_once Tabulated.dependencies Tabulated.node Tabulated.localConfig _
    (Tabulated.gatewayRun_reaches _ Tabulated.clientReturns (by decide +kernel))

theorem Gateway.Carries.potential (carries : Gateway.Carries deps node [] g s) :
    s.potential deps = g.service.potential deps := by
  rw [← carries.service]
  rfl

theorem Gateway.proceed_outbound (client : Client Body) (plaintextReq : IncomingRequest Body) (inbound : Inbound Body) :
    (g.proceed deps client plaintextReq inbound).outbound.length ≤ g.outbound.length + 1 := by
  unfold Gateway.proceed
  split <;> simp [Gateway.reply]

theorem Gateway.requestStep_outbound (i : Nat) (entering : Entering Proof Body) (fault : Fault) :
    (g.requestStep deps i entering fault).outbound.length ≤ g.outbound.length + 1 := by
  simp only [Gateway.requestStep]
  split
  next => exact Nat.le_succ _
  next => exact Nat.le_succ _
  next => exact Gateway.proceed_outbound entering.client _ _

theorem Gateway.respondStep_outbound {i : Nat} {leaving : Leaving Body} (found : g.outbound[i]? = some leaving)
    (setups : Nat → Except PdaRunnerError SP1ProofSetup) (answer : Except String (IncomingResponse Body)) :
    (g.respondStep deps i leaving setups answer).outbound.length < g.outbound.length ∧
      (g.respondStep deps i leaving setups answer).service = g.service := by
  have bound : i < g.outbound.length := (List.getElem?_eq_some_iff.mp found).1
  unfold Gateway.respondStep
  dsimp only
  split
  all_goals
    refine ⟨?_,rfl⟩
    simp only [Gateway.lose,Gateway.reply,List.length_eraseIdx,bound,if_true]
    omega

theorem gateway_lowers :
    Lowers (Gateway.step deps node) (fun _ action => action.Internal)
      (fun g => ∃ s, Gateway.Carries deps node [] g s ∧ (updatesPending : Assertions Proof Encoded Body).Holds s)
      (Gateway.potential deps) := by
  intro g action h established internal moved
  obtain ⟨s,carries,holds⟩ := established
  -- A step of the service pays for the request that it may send on.
  have serviceStep (own : Action Proof Body) (internal : own.Internal) {t : State Proof Encoded Body}
      (stepped : s.step deps own = some t)
      (carried : Gateway.Carries deps node [] h t) (sends : h.outbound.length ≤ g.outbound.length + 1) :
      (∃ s, Gateway.Carries deps node [] h s ∧ (updatesPending : Assertions Proof Encoded Body).Holds s) ∧
        h.potential deps < g.potential deps := by
    obtain ⟨kept,lower⟩ := service_lowers s own t holds internal stepped
    refine ⟨⟨t,carried,kept⟩,?_⟩
    unfold Gateway.potential
    rw [← carries.potential,← carried.potential]
    omega
  have background (own : Action Proof Body) (background : own.Background) (internal : own.Internal)
      (moved : g.work deps own = some h) :
      (∃ s, Gateway.Carries deps node [] h s ∧ (updatesPending : Assertions Proof Encoded Body).Holds s) ∧
        h.potential deps < g.potential deps := by
    obtain ⟨t,stepped,carried⟩ := carries.worked background moved
    obtain ⟨_,_,rfl⟩ := Option.map_eq_some_iff.mp moved
    exact serviceStep own internal stepped carried (Nat.le_succ _)
  cases action with
  | accept | shutdown | crash | restart => exact internal.elim
  | request i fault =>
    obtain ⟨entering,found,rfl⟩ := Option.map_eq_some_iff.mp moved
    obtain ⟨t,stepped,carried⟩ := carries.called fault found
    exact serviceStep (.request i fault) trivial stepped carried (Gateway.requestStep_outbound i entering fault)
  | respond i setups answer =>
    obtain ⟨leaving,found,rfl⟩ := Option.map_eq_some_iff.mp moved
    obtain ⟨fewer,same⟩ := @Gateway.respondStep_outbound _ _ _ deps _ _ _ found setups answer
    refine ⟨⟨s,carries.responded found setups answer,holds⟩,?_⟩
    unfold Gateway.potential
    rw [same]
    omega
  | disconnect i =>
    obtain ⟨leaving,found,rfl⟩ := Option.map_eq_some_iff.mp moved
    have sent := (carries.outbound leaving (List.mem_of_getElem? found)).2.2
    refine ⟨⟨s,(carries.leave found).loseOne (congrArg List.length sent).le,holds⟩,?_⟩
    have bound : i < g.outbound.length := (List.getElem?_eq_some_iff.mp found).1
    simp only [Gateway.potential,Gateway.lose,Gateway.service,List.length_eraseIdx,bound,if_true]
    omega
  | recv => exact background .recv trivial trivial moved
  | task i answer => exact background (.task i answer) trivial trivial moved
  | exit =>
    obtain ⟨last,worked,rfl⟩ := Option.map_eq_some_iff.mp moved
    have ending : (Action.exit : Action Proof Body).Ending := trivial
    obtain ⟨t,stepped,carried⟩ := carries.stopped ending worked
    exact serviceStep .exit trivial stepped carried (Nat.zero_le _)

/-- A call whose database fails does not panic. -/
theorem getVerifiableEncryption_fault (config : Config) (job : Job) (e : String) (runner : PdaRunner Encoded)
    (call : Call Proof) : (getVerifiableEncryption deps config job (some e) runner call).2.panics = false := by
  cases call <;> rfl

/-- Without trouble no client is lost. -/
theorem untroubled_step {action : GatewayAction Proof Body} (none : g.lost = []) (allowed : Untroubled deps node g action)
    (moved : g.step deps node action = some h) : h.lost = [] := by
  have background (own : Action Proof Body) (moved : g.work deps own = some h) : h.lost = [] := by
    obtain ⟨t,stepped,rfl⟩ := Option.map_eq_some_iff.mp moved
    exact none
  cases action with
  | disconnect | exit | crash | restart => exact allowed.elim
  | accept client =>
    obtain ⟨_,same⟩ := Option.ite_none_left_eq_some.mp moved
    cases same
    unfold Gateway.acceptStep
    dsimp only
    split
    next unparsed => exact absurd unparsed allowed
    next plaintextReq rewritten =>
      split
      next =>
        obtain ⟨_,_,lost⟩ := Gateway.proceed_keeps client _ _
        exact lost.trans none
      next => exact none
  | request i fault =>
    obtain ⟨entering,found,rfl⟩ := Option.map_eq_some_iff.mp moved
    simp only [Gateway.requestStep]
    split
    next => exact none
    next panics =>
      have calm := allowed entering (Option.mem_def.mpr found)
      rw [panics] at calm
      cases calm
    next =>
      obtain ⟨_,_,lost⟩ := Gateway.proceed_keeps entering.client _ _
      exact lost.trans none
  | respond i setups answer =>
    obtain ⟨leaving,found,rfl⟩ := Option.map_eq_some_iff.mp moved
    unfold Gateway.respondStep
    dsimp only
    split
    next panics => exact absurd panics (allowed leaving (Option.mem_def.mpr found))
    next => exact none
  | recv => exact background .recv moved
  | task i answer => exact background (.task i answer) moved
  | shutdown => exact background .shutdown moved

theorem internal_accepted {action : GatewayAction Proof Body} (internal : action.Internal)
    (moved : g.step deps node action = some h) : h.accepted = g.accepted := by
  cases action with
  | accept | shutdown | crash | restart => exact internal.elim
  | request i fault =>
    obtain ⟨entering,found,rfl⟩ := Option.map_eq_some_iff.mp moved
    exact Gateway.requestStep_accepted i entering fault
  | respond i setups answer =>
    obtain ⟨leaving,found,rfl⟩ := Option.map_eq_some_iff.mp moved
    exact Gateway.respondStep_accepted i leaving setups answer
  | disconnect i =>
    obtain ⟨leaving,found,rfl⟩ := Option.map_eq_some_iff.mp moved
    rfl
  | recv | task => exact Gateway.work_accepted moved
  | exit =>
    obtain ⟨last,worked,rfl⟩ := Option.map_eq_some_iff.mp moved
    have same : last.accepted = g.accepted := Gateway.work_accepted worked
    exact same

/-- Where no closure can go on, there is none. -/
theorem rest_closures (rested : AtRest (Gateway.step deps node) (Finishing deps node) g) :
    g.inbound = [] ∧ g.outbound = [] := by
  constructor
  · cases entered : g.inbound with
    | nil => rfl
    | cons entering rest =>
      have stuck := rested (.request 0 (some "")) ⟨trivial,fun _ _ => getVerifiableEncryption_fault _ _ _ _ _⟩
      simp [Gateway.step,entered] at stuck
  · cases waiting : g.outbound with
    | nil => rfl
    | cons leaving rest =>
      have stuck := rested (.respond 0 (fun _ => .error (.internalError "")) (.error ""))
        ⟨trivial,fun leaving _ => by simp [returned]⟩
      simp [Gateway.step,waiting] at stuck

/-- Where nothing panics and no connection is cut, every schedule answers every request that came
in after a bounded number of steps, and answers it once. -/
theorem all_answered (deps : Dependencies Proof Encoded Body) (node : Upstream) (config : Config)
    (g : Gateway Proof Encoded Body)
    (run : Reaches (Gateway.step deps node) (Untroubled deps node) (Gateway.initial config) g) :
    (∀ actions, Executes (Gateway.step deps node) (Finishing deps node) g actions → actions.length ≤ g.potential deps) ∧
    (∃ t, Reaches (Gateway.step deps node) (Finishing deps node) g t ∧
      AtRest (Gateway.step deps node) (Finishing deps node) t) ∧
    ∀ t, Reaches (Gateway.step deps node) (Finishing deps node) g t → AtRest (Gateway.step deps node) (Finishing deps node) t →
      (t.replies.map Prod.fst).Perm g.accepted := by
  have lowers : Lowers (Gateway.step deps node) (Finishing deps node) _ (Gateway.potential deps) :=
    gateway_lowers.weaken fun _ _ finishing => finishing.1
  obtain ⟨s,reached,carries⟩ := gateway_carries run
  have holds := updatesPending_reaches reached
  refine ⟨fun _ executes => bounded lowers ⟨s,carries,holds⟩ executes,comes_to_rest lowers g ⟨s,carries,holds⟩,?_⟩
  intro t later rested
  have whole : Reaches (Gateway.step deps node) (Untroubled deps node) (Gateway.initial config) t :=
    run.trans (later.weaken fun _ _ finishing => finishing.2)
  obtain ⟨u,_,carried⟩ := gateway_carries whole
  have none : t.lost = [] :=
    whole.invariant (fun _ _ _ kept allowed moved => untroubled_step kept allowed moved) rfl
  have same : t.accepted = g.accepted := later.invariant
    (fun _ _ _ kept finishing moved => (internal_accepted finishing.1 moved).trans kept) rfl
  obtain ⟨entered,left⟩ := rest_closures rested
  have placed := carried.placed
  simpa [Gateway.clients,none,entered,left,same] using placed

end

set_option maxRecDepth 2048 in
theorem all_answered_returns :
    let g := Tabulated.gatewayRun Tabulated.localConfig (Tabulated.clientReturns.take 10)
    ∃ t, Reaches (Gateway.step Tabulated.dependencies Tabulated.node) (Finishing Tabulated.dependencies Tabulated.node) g t ∧
      (t.replies.map Prod.fst).Perm g.accepted := by
  obtain ⟨_,⟨t,later,rested⟩,answered⟩ := all_answered Tabulated.dependencies Tabulated.node Tabulated.localConfig _
    (Tabulated.gatewayRun_reaches _ (Tabulated.clientReturns.take 10) (by decide +kernel))
  exact ⟨t,later,answered t later rested⟩

end PdaProxy
