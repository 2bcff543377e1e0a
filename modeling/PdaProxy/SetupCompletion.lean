import PdaProxy.SetupCache
import PdaProxy.Semantics.Quiescence
import PdaProxy.Semantics.Tracking

/-! What the callers of the setup wait for. Every call that is made ends, each with one answer,
however many wait at the cell and whatever fails. And a setup that is on disk is not computed
again, in no process of the program. -/
namespace PdaProxy
open PdaProxy.Semantics.Serialization PdaProxy.Semantics.OnceCell PdaProxy.Semantics.Transition PdaProxy.Semantics.Pool
  PdaProxy.Semantics.Quiescence PdaProxy.Semantics.Tracking

variable {Proof Encoded Body EncodedSetup : Type}

/-- The calls that were made go on, and no others come. -/
def Serving (_ : SetupState EncodedSetup) : SetupAction → Prop
  | .enter _ | .advance _ => True
  | .start _ | .stop _ | .call _ | .cancel _ | .abandon => False

def Unfailing (_ : SetupState EncodedSetup) : SetupAction → Prop
  | .enter _ => True
  | .advance fault => fault = none
  | .start _ | .stop _ | .call _ | .cancel _ | .abandon => False

def SetupStage.steps : SetupStage → Nat
  | .readConfig => 3
  | .computing => 2
  | .storing _ => 1

namespace SetupState

def attempting (s : SetupState EncodedSetup) : List SetupAttempt :=
  match s.chachaSetup with
  | .initialising attempt => [attempt]
  | .empty | .filled _ => []

/-- The calls without an answer. -/
def pending (s : SetupState EncodedSetup) : List ZkClient := s.attempting.map SetupAttempt.client ++ s.waiting

/-- The operations that are left of the calls without an answer. -/
def potential (s : SetupState EncodedSetup) : Nat :=
  match s.chachaSetup with
  | .initialising attempt => 4 * s.waiting.length + attempt.stage.steps
  | .empty | .filled _ => 4 * s.waiting.length

/-- A setup was computed and is not stored yet. -/
def storing (s : SetupState EncodedSetup) : Bool :=
  match s.chachaSetup with
  | .initialising ⟨_,.storing _⟩ => true
  | _ => false

end SetupState

/-- The answers that were given on the way from one state to another. -/
def Returns (s t : SetupState EncodedSetup) (results : List SetupReturn) : Prop := t.returned = s.returned ++ results

section
variable (deps : Dependencies Proof Encoded Body)

/-- A setup that was computed is stored before its call is given up, and on disk before its
process ends. -/
def KeepsComputed (s : SetupState EncodedSetup) : SetupAction → Prop
  | .stop lost => s.storing = false ∧ ∀ found ∈ s.contents[lost]?, ∀ key ∈ s.configDb.keys, key ∈ found
  | .abandon | .advance (some _) => s.storing = false
  | .start _ | .call _ | .enter _ | .cancel _ | .advance none => True

instance (s : SetupState EncodedSetup) : ∀ action, Decidable (KeepsComputed s action)
  | .stop lost => inferInstanceAs (Decidable (s.storing = false ∧
      ∀ found ∈ s.contents[lost]?, ∀ key ∈ s.configDb.keys, key ∈ found))
  | .abandon | .advance (some _) => inferInstanceAs (Decidable (s.storing = false))
  | .start _ | .call _ | .enter _ | .cancel _ | .advance none => inferInstanceAs (Decidable True)

/-- The programs whose setups have been computed. -/
def computed (s : SetupState EncodedSetup) (action : SetupAction) (_ : SetupState EncodedSetup) (elfs : List Bytes) :
    List Bytes :=
  match action with
  | .advance none =>
    match s.chachaElf,s.chachaSetup with
    | some elf,.initialising ⟨_,.computing⟩ => elfs ++ [elf]
    | _,_ => elfs
  | _ => elfs

/-- What was computed is in the tree or about to be, and what is computed is not. -/
structure ComputedOnce (state : SetupState EncodedSetup × List Bytes) : Prop where
  kept : ∀ elf ∈ state.2, getProgramId deps elf ∈ state.1.configDb ∨ state.1.chachaElf = some elf ∧ state.1.storing = true
  missing : ∀ elf client, state.1.chachaElf = some elf → state.1.chachaSetup = .initialising ⟨client,.computing⟩ →
    getProgramId deps elf ∉ state.1.configDb
  nodup : (state.2.map (getProgramId deps)).Nodup

end

variable {deps : Dependencies Proof Encoded Body} {codec : Codec SP1ProofSetup EncodedSetup}
  {clients : ZkClient → Bytes → SP1ProofSetup} {s t : SetupState EncodedSetup}

theorem enter_cases {i : Nat} (stepped : s.step deps codec clients (.enter i) = some t) :
    ∃ elf client, s.chachaElf = some elf ∧ s.waiting[i]? = some client ∧
      ((∃ setup, s.chachaSetup = .filled setup ∧ t = { s with
          waiting := s.waiting.eraseIdx i
          returned := s.returned ++ [⟨client,elf,.ok setup⟩] }) ∨
        (s.chachaSetup = .empty ∧ t = { s with
          chachaSetup := .initialising ⟨client,.readConfig⟩
          waiting := s.waiting.eraseIdx i })) := by
  obtain ⟨elf,running,found⟩ := Option.bind_eq_some_iff.mp stepped
  obtain ⟨client,listed,moved⟩ := Option.bind_eq_some_iff.mp found
  refine ⟨elf,client,running,listed,?_⟩
  unfold SetupState.enterStep at moved
  cases cell : s.chachaSetup with
  | filled setup =>
    rw [cell] at moved
    cases moved
    exact .inl ⟨setup,rfl,rfl⟩
  | empty =>
    rw [cell] at moved
    cases moved
    exact .inr ⟨rfl,rfl⟩
  | initialising attempt =>
    rw [cell] at moved
    cases moved

/-- An operation of an attempt either comes to the next or ends the attempt. -/
theorem initProofSetup_steps {setup : Bytes → SP1ProofSetup} {elf key : Bytes} {fault : Fault}
    {configDb after : SledTree EncodedSetup} {stage next : SetupStage}
    (made : initProofSetup codec setup elf key fault configDb stage = (after,.inl next)) : next.steps < stage.steps := by
  cases fault with
  | some e => cases stage <;> cases made
  | none =>
    cases stage with
    | readConfig =>
      simp only [initProofSetup] at made
      split at made <;> cases made
      decide
    | computing =>
      cases made
      exact Nat.lt_succ_self 1
    | storing => cases made

/-- A step of a call that was made: it is answered, or has fewer steps left. -/
theorem serving_step {action : SetupAction} (serving : Serving s action)
    (stepped : s.step deps codec clients action = some t) :
    t.potential < s.potential ∧ t.chachaElf = s.chachaElf ∧
      ∃ results, Returns s t results ∧ (results.map SetupReturn.client ++ t.pending).Perm s.pending ∧
        ∀ call ∈ results, s.chachaElf = some call.elf := by
  cases action with
  | start | stop | call | cancel | abandon => exact serving.elim
  | enter i =>
    obtain ⟨elf,client,running,listed,moved⟩ := enter_cases stepped
    obtain ⟨before,after,split,_,removed⟩ := split_at listed
    have fewer : (s.waiting.eraseIdx i).length + 1 = s.waiting.length := by
      rw [removed,split]
      simp [Nat.add_assoc]
    rcases moved with ⟨setup,filled,rfl⟩ | ⟨empty,rfl⟩
    · refine ⟨?_,rfl,_,rfl,?_,?_⟩
      · simp only [SetupState.potential,filled]
        omega
      · simp only [SetupState.pending,SetupState.attempting,filled,removed]
        simpa [split] using (List.perm_middle).symm
      · intro call member
        obtain rfl := List.mem_singleton.mp member
        exact running
    · refine ⟨?_,rfl,[],(List.append_nil _).symm,?_,by simp⟩
      · simp only [SetupState.potential,empty,SetupStage.steps]
        omega
      · simp only [SetupState.pending,SetupState.attempting,empty,removed]
        simpa [split] using (List.perm_middle).symm
  | advance fault =>
    cases setupStep_cases stepped with
    | advanced _ elf attempt configDb stage chachaSetup running working made moved =>
      rw [getProofSetup_eq] at made
      have fewer := initProofSetup_steps made
      rw [working] at moved
      cases moved
      refine ⟨?_,rfl,[],(List.append_nil _).symm,?_,by simp⟩
      · simp only [SetupState.potential,working]
        exact Nat.add_lt_add_left fewer _
      · simp [SetupState.pending,SetupState.attempting,working]
    | finished _ elf attempt configDb result chachaSetup running working made moved =>
      rw [working] at moved
      have steps : 0 < attempt.stage.steps := by
        cases attempt.stage <;> exact Nat.succ_pos _
      refine ⟨?_,rfl,[⟨attempt.client,elf,result⟩],rfl,?_,?_⟩
      · simp only [SetupState.potential,working]
        cases result <;> cases moved <;> exact Nat.lt_add_of_pos_right steps
      · simp only [SetupState.pending,SetupState.attempting,working]
        cases result <;> cases moved <;> exact .refl _
      · intro call member
        obtain rfl := List.mem_singleton.mp member
        exact running

theorem setups_lower :
    Lowers (SetupState.step deps codec clients) Serving (fun _ => True) fun s : SetupState EncodedSetup => s.potential :=
  fun _ _ _ _ serving stepped => ⟨trivial,(serving_step serving stepped).1⟩

theorem serving_run (run : Reaches (SetupState.step deps codec clients) Serving s t) :
    t.chachaElf = s.chachaElf ∧ ∃ results, Returns s t results ∧
      (results.map SetupReturn.client ++ t.pending).Perm s.pending ∧ ∀ call ∈ results, s.chachaElf = some call.elf := by
  induction run with
  | refl => exact ⟨rfl,[],(List.append_nil _).symm,.refl _,by simp⟩
  | tail _ last ih =>
    obtain ⟨same,results,returns,answered,own⟩ := ih
    obtain ⟨_,serving,stepped⟩ := last
    obtain ⟨_,kept,others,later,left,known⟩ := serving_step serving stepped
    refine ⟨kept.trans same,results ++ others,?_,?_,List.forall_mem_append.mpr ⟨own,fun call member => ?_⟩⟩
    · rw [Returns,later,returns,List.append_assoc]
    · rw [List.map_append,List.append_assoc]
      exact (left.append_left _).trans answered
    · exact same ▸ known call member

theorem rest_pending {elf : Bytes} (running : s.chachaElf = some elf)
    (rested : AtRest (SetupState.step deps codec clients) Serving s) : s.pending = [] := by
  have noWaiting (free : ∀ attempt, s.chachaSetup ≠ .initialising attempt) : s.waiting = [] := by
    have stuck := rested (.enter 0) trivial
    cases waiting : s.waiting with
    | nil => rfl
    | cons client rest =>
      cases cell : s.chachaSetup with
      | initialising attempt => exact absurd cell (free attempt)
      | empty | filled _ => simp [SetupState.step,running,waiting,SetupState.enterStep,cell,Cell.step] at stuck
  cases cell : s.chachaSetup with
  | initialising attempt =>
    have stuck := rested (.advance none) trivial
    simp only [SetupState.step,running,cell,SetupState.advanceStep] at stuck
    split at stuck
    next => cases stuck
    next result _ => cases result <;> cases stuck
  | empty | filled _ =>
    have free : ∀ attempt, s.chachaSetup ≠ .initialising attempt := by simp [cell]
    simp [SetupState.pending,SetupState.attempting,cell,noWaiting free]

section
variable {elfs : Set Bytes}

theorem initProofSetup_succeeds {setup : Bytes → SP1ProofSetup} {elf key : Bytes} {configDb after : SledTree EncodedSetup}
    {stage : SetupStage} {result : Except PdaRunnerError SP1ProofSetup}
    (stored : ∀ data, configDb.lookup key = some data → data = codec.serialize (setup elf))
    (working : stage.Sound (setup elf))
    (made : initProofSetup codec setup elf key none configDb stage = (after,.inr result)) : result = .ok (setup elf) := by
  cases stage with
  | readConfig =>
    simp only [initProofSetup] at made
    cases found : configDb.lookup key with
    | none =>
      rw [found] at made
      cases made
    | some data =>
      rw [found] at made
      cases made
      rw [stored data found,codec.round_trip]
      rfl
  | computing => cases made
  | storing newProofSetup =>
    cases made
    exact congrArg Except.ok working

theorem Unfailing.startsIn {action : SetupAction} (unfailing : Unfailing s action) : StartsIn elfs s action := by
  cases action with
  | start => exact unfailing.elim
  | _ => trivial

theorem unfailing_step (shared : ∀ client elf, clients client elf = deps.setup elf) {action : SetupAction}
    (coherent : s.Coherent deps codec elfs) (unfailing : Unfailing s action)
    (stepped : s.step deps codec clients action = some t) :
    ∃ results, Returns s t results ∧ ∀ call ∈ results, call.result = .ok (deps.setup call.elf) := by
  cases action with
  | start | stop | call | cancel | abandon => exact unfailing.elim
  | enter i =>
    obtain ⟨elf,client,running,_,moved⟩ := enter_cases stepped
    rcases moved with ⟨setup,filled,rfl⟩ | ⟨_,rfl⟩
    · have good := coherent.cell elf running
      rw [filled] at good
      exact ⟨_,rfl,List.forall_mem_singleton.mpr (congrArg Except.ok good)⟩
    · exact ⟨[],(List.append_nil _).symm,by simp⟩
  | advance fault =>
    obtain rfl : fault = none := unfailing
    cases setupStep_cases stepped with
    | advanced => exact ⟨[],(List.append_nil _).symm,by simp⟩
    | finished _ elf attempt configDb result chachaSetup running working made moved =>
      have here := coherent.cell elf running
      rw [working] at here
      have same : clients attempt.client = deps.setup := funext (shared attempt.client)
      rw [getProofSetup_eq,same] at made
      have succeeds := initProofSetup_succeeds (coherent.current elf (coherent.running elf running)) here made
      exact ⟨_,rfl,List.forall_mem_singleton.mpr succeeds⟩

/-- From any point of any history, the calls that wait for the setup of the running program end
in a bounded number of steps, whatever fails, each with one answer; and where nothing fails
every answer is the setup. -/
theorem setups_settle (deps : Dependencies Proof Encoded Body) (codec : Codec SP1ProofSetup EncodedSetup)
    (clients : ZkClient → Bytes → SP1ProofSetup) (shared : ∀ client elf, clients client elf = deps.setup elf)
    (elfs : Set Bytes) (collisionFree : Set.InjOn deps.sha256 elfs) (s : SetupState EncodedSetup)
    (run : Reaches (SetupState.step deps codec clients) (StartsIn elfs) SetupState.initial s)
    (elf : Bytes) (running : s.chachaElf = some elf) :
    (∀ actions, Executes (SetupState.step deps codec clients) Serving s actions →
      actions.length ≤ 4 * s.pending.length) ∧
    (∀ t, Reaches (SetupState.step deps codec clients) Serving s t → AtRest (SetupState.step deps codec clients) Serving t →
      ∃ results, Returns s t results ∧ (results.map SetupReturn.client).Perm s.pending ∧ ∀ call ∈ results, call.elf = elf) ∧
    ∀ t, Reaches (SetupState.step deps codec clients) Unfailing s t →
      ∃ results, Returns s t results ∧ ∀ call ∈ results, call.result = .ok (deps.setup call.elf) := by
  refine ⟨fun actions executes => ?_,fun t served rested => ?_,fun t served => ?_⟩
  · have potential : s.potential ≤ 4 * s.pending.length := by
      cases cell : s.chachaSetup with
      | initialising attempt =>
        have steps : attempt.stage.steps ≤ 3 := by
          cases attempt.stage <;> simp [SetupStage.steps]
        simp only [SetupState.potential,SetupState.pending,SetupState.attempting,cell,List.length_append,List.map_cons,
          List.map_nil,List.length_cons,List.length_nil]
        omega
      | empty | filled _ => simp [SetupState.potential,SetupState.pending,SetupState.attempting,cell]
    exact Nat.le_trans (bounded setups_lower trivial executes) potential
  · obtain ⟨same,results,returns,answered,own⟩ := serving_run served
    rw [rest_pending (same.trans running) rested,List.append_nil] at answered
    exact ⟨results,returns,answered,fun call member => Option.some.inj ((own call member).symm.trans running)⟩
  · induction served with
    | refl => exact ⟨[],(List.append_nil _).symm,by simp⟩
    | tail before last ih =>
      obtain ⟨results,returns,good⟩ := ih
      obtain ⟨action,unfailing,stepped⟩ := last
      have coherent := coherent_reaches shared collisionFree (run.trans (Reaches.weaken before fun _ _ => Unfailing.startsIn))
      obtain ⟨others,later,fine⟩ := unfailing_step shared coherent unfailing stepped
      refine ⟨results ++ others,?_,List.forall_mem_append.mpr ⟨good,fine⟩⟩
      rw [Returns,later,returns,List.append_assoc]

end

/-- Two calls while one of them is about to store what it computed. -/
theorem setups_settle_storing :
    let s := Tabulated.setupAfter Tabulated.failInsert
    s.pending.length = 2 ∧ ∀ actions, Executes (SetupState.step Tabulated.dependencies (.plain _) Tabulated.setupClients)
      Serving s actions → actions.length ≤ 4 * s.pending.length :=
  ⟨rfl,(setups_settle Tabulated.dependencies (.plain _) Tabulated.setupClients (fun _ _ => rfl) Tabulated.elfs
    Tabulated.elfs_collisionFree _ (final_reaches _ _ (by decide +kernel)) [1,2,3] rfl).1⟩

section
variable {elfs : List Bytes}

theorem ComputedOnce.same (once : ComputedOnce deps (s,elfs)) (running : t.chachaElf = s.chachaElf)
    (cell : t.chachaSetup = s.chachaSetup) (tree : t.configDb = s.configDb) : ComputedOnce deps (t,elfs) := by
  obtain ⟨kept,missing,nodup⟩ := once
  simp only [SetupState.storing,← running,← cell,← tree] at kept missing
  exact ⟨kept,missing,nodup⟩

/-- Where no computed setup is on its way to the tree, all of them are in it. -/
theorem ComputedOnce.stored (once : ComputedOnce deps (s,elfs)) (idle : s.storing = false) :
    ∀ elf ∈ elfs, getProgramId deps elf ∈ s.configDb := by
  intro elf listed
  rcases once.kept elf listed with stored | ⟨_,storing⟩
  · exact stored
  · cases idle.symm.trans storing

theorem ComputedOnce.idle (once : ComputedOnce deps (s,elfs)) (idle : s.storing = false)
    (free : ∀ client, t.chachaSetup ≠ .initialising ⟨client,.computing⟩) (tree : ∀ key ∈ s.configDb, key ∈ t.configDb) :
    ComputedOnce deps (t,elfs) :=
  ⟨fun elf listed => .inl (tree _ (once.stored idle elf listed)),
    fun _ client _ computing => absurd computing (free client),once.nodup⟩

/-- What an operation of an attempt does to the tree and to what has been computed. -/
theorem ComputedOnce.advance (once : ComputedOnce deps (s,elfs)) {fault : Fault} (keeps : KeepsComputed s (.advance fault))
    {elf : Bytes} {attempt : SetupAttempt} (running : s.chachaElf = some elf)
    (working : s.chachaSetup = .initialising attempt) (stepped : s.step deps codec clients (.advance fault) = some t) :
    ComputedOnce deps (t,computed s (.advance fault) t elfs) := by
  obtain ⟨client,stage⟩ := attempt
  simp only [SetupState.step,running,working,SetupState.advanceStep,getProofSetup_eq] at stepped
  cases stage with
  | readConfig =>
    have idle : s.storing = false := by simp only [SetupState.storing,working]
    have same : computed s (.advance fault) t elfs = elfs := by
      cases fault <;> simp only [computed,running,working]
    rw [same]
    cases fault with
    | some e =>
      cases stepped
      exact once.idle idle (by simp) fun _ held => held
    | none =>
      cases found : s.configDb.lookup (getProgramId deps elf) with
      | none =>
        simp only [initProofSetup,found] at stepped
        cases stepped
        refine ⟨fun other listed => .inl (once.stored idle other listed),?_,once.nodup⟩
        intro other _ here _
        cases here
        exact AList.lookup_eq_none.mp found
      | some precomputed =>
        simp only [initProofSetup,found] at stepped
        cases read : codec.deserialize precomputed with
        | ok _ | error _ =>
          rw [read] at stepped
          cases stepped
          exact once.idle idle (by simp) fun _ held => held
  | computing =>
    have idle : s.storing = false := by simp only [SetupState.storing,working]
    cases fault with
    | some e =>
      cases stepped
      exact once.idle idle (by simp) fun _ held => held
    | none =>
      have added : computed s (.advance none) t elfs = elfs ++ [elf] := by simp only [computed,running,working]
      rw [added]
      cases stepped
      refine ⟨?_,by simp,?_⟩
      · exact forall_concat (fun other listed => .inl (once.stored idle other listed)) (.inr ⟨rfl,rfl⟩)
      · rw [List.map_append,List.nodup_append]
        refine ⟨once.nodup,List.nodup_singleton _,?_⟩
        rintro key listed _ here rfl
        obtain ⟨other,member,rfl⟩ := List.mem_map.mp listed
        have absent := once.missing elf client running working
        rw [← List.mem_singleton.mp here] at absent
        exact absent (once.stored idle other member)
  | storing newProofSetup =>
    cases fault with
    | some e =>
      have idle : s.storing = false := keeps
      simp [SetupState.storing,working] at idle
    | none =>
      have same : computed s (.advance none) t elfs = elfs := by simp only [computed,running,working]
      rw [same]
      cases stepped
      refine ⟨?_,by simp,once.nodup⟩
      intro other listed
      rcases once.kept other listed with stored | ⟨here,_⟩
      · exact .inl ((AList.mem_insert _).mpr (.inr stored))
      · cases running.symm.trans here
        exact .inl ((AList.mem_insert _).mpr (.inl rfl))

theorem computedOnce_step {action : SetupAction} (once : ComputedOnce deps (s,elfs)) (keeps : KeepsComputed s action)
    (stepped : s.step deps codec clients action = some t) : ComputedOnce deps (t,computed s action t elfs) := by
  cases setupStep_cases stepped with
  | started elf =>
    obtain ⟨down,_⟩ := Option.ite_none_right_eq_some.mp stepped
    refine ⟨fun other listed => ?_,fun _ _ _ cell => (by cases cell),once.nodup⟩
    rcases once.kept other listed with stored | ⟨running,_⟩
    · exact .inl stored
    · cases down.symm.trans running
  | stopped lost found left =>
    obtain ⟨idle,kept⟩ := keeps
    exact once.idle idle (by simp [SetupState.reset]) fun key held => kept found left key (AList.mem_keys.mp held)
  | called | cancelled | cached => exact once.same rfl rfl rfl
  | entered i client chachaSetup moved =>
    cases cell : s.chachaSetup with
    | empty =>
      rw [cell] at moved
      cases moved
      exact once.idle (by simp only [SetupState.storing,cell]) (by simp) fun _ held => held
    | initialising | filled =>
      rw [cell] at moved
      cases moved
  | advanced fault elf attempt configDb stage chachaSetup running working made moved =>
    exact once.advance keeps running working stepped
  | finished fault elf attempt configDb result chachaSetup running working made moved =>
    exact once.advance keeps running working stepped
  | abandoned chachaSetup moved =>
    refine once.idle keeps ?_ fun _ held => held
    cases cell : s.chachaSetup with
    | initialising attempt =>
      rw [cell] at moved
      cases moved
      simp
    | empty | filled =>
      rw [cell] at moved
      cases moved

/-- Over all processes, the setup of a program is computed at most once, if no computed setup
is lost on its way to the disk. -/
theorem setup_computed_once (deps : Dependencies Proof Encoded Body) (codec : Codec SP1ProofSetup EncodedSetup)
    (clients : ZkClient → Bytes → SP1ProofSetup) (s : SetupState EncodedSetup) (elfs : List Bytes)
    (run : Reaches (tracked (SetupState.step deps codec clients) computed) (fun state => KeepsComputed state.1)
      (SetupState.initial,[]) (s,elfs)) : (elfs.map (getProgramId deps)).Nodup := by
  have once : ComputedOnce deps (s,elfs) := by
    refine run.invariant (fun before action after once keeps moved => ?_) ⟨by simp,by simp [SetupState.initial],by simp⟩
    obtain ⟨stepped,recorded⟩ := tracked_eq_some.mp moved
    rw [← Prod.mk.eta (p := after),recorded]
    exact computedOnce_step once keeps stepped
  exact once.nodup

end

namespace Tabulated

/-- A setup is computed, reread by the next process, and another program's computed by a third. -/
def reread : List SetupAction :=
  [.start [1,2,3],.call .envProver,.call .networkProver,.enter 0,.advance none,.advance none,.advance none,.enter 0,.stop 0,
    .start [1,2,3],.call .envProver,.enter 0,.advance none,.stop 0,.start zeroKey.toList,.call .networkProver,.enter 0,
    .advance none,.advance none,.advance none]

end Tabulated

theorem setup_computed_once_reread :
    let state := final (tracked (SetupState.step Tabulated.dependencies (.plain _) Tabulated.setupClients) computed)
      (.initial,[]) Tabulated.reread
    state.2 = [[1,2,3],Tabulated.zeroKey.toList] ∧ (state.2.map (getProgramId Tabulated.dependencies)).Nodup :=
  ⟨rfl,setup_computed_once Tabulated.dependencies (.plain _) Tabulated.setupClients _ _
    (final_reaches _ _ (by decide +kernel))⟩

end PdaProxy
