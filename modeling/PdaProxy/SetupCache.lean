import PdaProxy.Decryption
import PdaProxy.Semantics.OnceCell
import PdaProxy.Semantics.Pool
import PdaProxy.Semantics.Transition

/-! The setup of the running program's proofs. It is kept in `config_db` under the program's
hash, across processes whose programs may differ, and for the life of a process in one cell
that the calls of both provers fill. -/
namespace PdaProxy
open PdaProxy.Semantics.Serialization PdaProxy.Semantics.OnceCell PdaProxy.Semantics.Transition PdaProxy.Semantics.Pool

inductive ZkClient
  | envProver
  | networkProver

/-- Where the closure that fills the cell is: before the read of the tree, in the thread that
computes the setup, or before it is serialized and inserted. -/
inductive SetupStage
  | readConfig
  | computing
  | storing (newProofSetup : SP1ProofSetup)

structure SetupAttempt where
  client : ZkClient
  stage : SetupStage

structure SetupReturn where
  client : ZkClient
  elf : Bytes
  result : Except PdaRunnerError SP1ProofSetup

/-- `chachaElf` is the program of the process, if one runs, `unflushed` has what the tree held
before each operation since its writes were last put on disk, the latest first, and `returned`
records what the calls of all processes have returned. -/
structure SetupState (EncodedSetup : Type) where
  chachaElf : Option Bytes
  chachaSetup : Cell SetupAttempt SP1ProofSetup
  waiting : List ZkClient
  configDb : SledTree EncodedSetup
  unflushed : List (SledTree EncodedSetup)
  returned : List SetupReturn

/-- After `stop` the next process finds what a crash can leave in the tree; an exit flushes first
and loses nothing. -/
inductive SetupAction
  | start (elf : Bytes)
  | stop (lost : Nat)
  | call (client : ZkClient)
  | enter (i : Nat)
  | advance (fault : Fault)
  | cancel (i : Nat)
  | abandon

variable {Proof Encoded Body EncodedSetup : Type}

section
variable (deps : Dependencies Proof Encoded Body) (codec : Codec SP1ProofSetup EncodedSetup)
  (clients : ZkClient → Bytes → SP1ProofSetup)

def getProgramId (elf : Bytes) : Bytes := (deps.sha256 elf).toList

/-- The closure in both functions, from one of its operations to the next. The `fault` is
the operation's: any of its errors becomes an `InternalError`. -/
def initProofSetup (setup : Bytes → SP1ProofSetup) (elf zkProgramElfSha2 : Bytes) (fault : Fault)
    (configDb : SledTree EncodedSetup) :
    SetupStage → SledTree EncodedSetup × (SetupStage ⊕ Except PdaRunnerError SP1ProofSetup)
  | .readConfig =>
    match fault with
    | some e => (configDb,.inr (.error (.internalError e)))
    | none =>
      match configDb.lookup zkProgramElfSha2 with
      | some precomputed => (configDb,.inr ((codec.deserialize precomputed).mapError .internalError))
      | none => (configDb,.inl .computing)
  | .computing =>
    match fault with
    | some e => (configDb,.inr (.error (.internalError e)))
    | none => (configDb,.inl (.storing (setup elf)))
  | .storing newProofSetup =>
    match fault with
    | some e => (configDb,.inr (.error (.internalError e)))
    | none => (configDb.insert zkProgramElfSha2 (codec.serialize newProofSetup),.inr (.ok newProofSetup))

def getProofSetupLocal (elf : Bytes) : Fault → SledTree EncodedSetup → SetupStage →
    SledTree EncodedSetup × (SetupStage ⊕ Except PdaRunnerError SP1ProofSetup) :=
  initProofSetup codec (clients .envProver) elf (getProgramId deps elf)

def getProofSetupRemote (elf : Bytes) : Fault → SledTree EncodedSetup → SetupStage →
    SledTree EncodedSetup × (SetupStage ⊕ Except PdaRunnerError SP1ProofSetup) :=
  initProofSetup codec (clients .networkProver) elf (getProgramId deps elf)

def getProofSetup : ZkClient → Bytes → Fault → SledTree EncodedSetup → SetupStage →
    SledTree EncodedSetup × (SetupStage ⊕ Except PdaRunnerError SP1ProofSetup)
  | .envProver => getProofSetupLocal deps codec clients
  | .networkProver => getProofSetupRemote deps codec clients

namespace SetupState

def initial : SetupState EncodedSetup := ⟨none,.empty,[],∅,[],[]⟩

/-- What the next process can find in the tree when this one is killed. -/
def contents (s : SetupState EncodedSetup) : List (SledTree EncodedSetup) := s.configDb :: s.unflushed

/-- A process begins with nothing in memory, and leaves nothing there. -/
def reset (s : SetupState EncodedSetup) (chachaElf : Option Bytes) (configDb : SledTree EncodedSetup) :
    SetupState EncodedSetup :=
  { s with chachaElf, chachaSetup := .empty, waiting := [], configDb, unflushed := [] }

/-- A call finds the cell filled or fills it; while another call does, it waits. -/
def enterStep (s : SetupState EncodedSetup) (elf : Bytes) (i : Nat) (client : ZkClient) :
    Option (SetupState EncodedSetup) :=
  match s.chachaSetup with
  | .filled setup => some { s with
      waiting := s.waiting.eraseIdx i
      returned := s.returned ++ [⟨client,elf,.ok setup⟩] }
  | cell => (cell.step (.enter ⟨client,.readConfig⟩ : Event SetupAttempt SP1ProofSetup PdaRunnerError)).map
      fun chachaSetup => { s with chachaSetup, waiting := s.waiting.eraseIdx i }

def advanceStep (s : SetupState EncodedSetup) (elf : Bytes) (attempt : SetupAttempt) (fault : Fault) :
    Option (SetupState EncodedSetup) :=
  let (configDb,progress) := getProofSetup deps codec clients attempt.client elf fault s.configDb attempt.stage
  match progress with
  | .inl stage => (s.chachaSetup.step (.advance { attempt with stage } : Event _ _ PdaRunnerError)).map
      fun chachaSetup => { s with chachaSetup, configDb, unflushed := s.contents }
  | .inr result => (s.chachaSetup.step (.finish result)).map
      fun chachaSetup => { s with
        chachaSetup
        configDb
        unflushed := s.contents
        returned := s.returned ++ [⟨attempt.client,elf,result⟩] }

/-- The future of a call can be dropped while it waits or in the middle of its attempt, and
the process can end at any point. -/
def step (s : SetupState EncodedSetup) : SetupAction → Option (SetupState EncodedSetup)
  | .start elf => if s.chachaElf = none then some (s.reset (some elf) s.configDb) else none
  | .stop lost => if s.chachaElf = none then none else s.contents[lost]?.map (s.reset none)
  | .call client => if s.chachaElf = none then none else some { s with waiting := s.waiting ++ [client] }
  | .enter i => s.chachaElf.bind fun elf => s.waiting[i]?.bind fun client => s.enterStep elf i client
  | .advance fault =>
    match s.chachaElf,s.chachaSetup with
    | some elf,.initialising attempt => s.advanceStep deps codec clients elf attempt fault
    | _,_ => none
  | .cancel i => if i < s.waiting.length then some { s with waiting := s.waiting.eraseIdx i } else none
  | .abandon => (s.chachaSetup.step (.abandon : Event _ _ PdaRunnerError)).map fun chachaSetup => { s with chachaSetup }

end SetupState

end

section
variable (deps : Dependencies Proof Encoded Body) (codec : Codec SP1ProofSetup EncodedSetup)

def SetupStage.Sound (setup : SP1ProofSetup) : SetupStage → Prop
  | .storing newProofSetup => newProofSetup = setup
  | _ => True

def SoundProgress (setup : SP1ProofSetup) : SetupStage ⊕ Except PdaRunnerError SP1ProofSetup → Prop
  | .inl stage => stage.Sound setup
  | .inr (.ok value) => value = setup
  | .inr (.error _) => True

def StoresSetup (configDb : SledTree EncodedSetup) (elf : Bytes) : Prop :=
  ∀ data, configDb.lookup (getProgramId deps elf) = some data → data = codec.serialize (deps.setup elf)

/-- Everything in the tree, in what a crash can leave of it, in the cell and on its way there is
the setup of its program. -/
structure SetupState.Coherent (elfs : Set Bytes) (s : SetupState EncodedSetup) : Prop where
  running : ∀ elf, s.chachaElf = some elf → elf ∈ elfs
  stored : ∀ configDb ∈ s.contents, ∀ elf ∈ elfs, StoresSetup deps codec configDb elf
  cell : ∀ elf, s.chachaElf = some elf →
    s.chachaSetup.Holds (fun attempt => attempt.stage.Sound (deps.setup elf)) (· = deps.setup elf)
  returned : ∀ call ∈ s.returned, call.elf ∈ elfs ∧ ∀ setup, call.result = .ok setup → setup = deps.setup call.elf

/-- The programs of all processes are among `elfs`. -/
def StartsIn (elfs : Set Bytes) (_ : SetupState EncodedSetup) : SetupAction → Prop
  | .start elf => elf ∈ elfs
  | _ => True

end

variable {deps : Dependencies Proof Encoded Body} {codec : Codec SP1ProofSetup EncodedSetup}
  {clients : ZkClient → Bytes → SP1ProofSetup} {s t : SetupState EncodedSetup}

theorem initProofSetup_sound {setup : Bytes → SP1ProofSetup} {elf key : Bytes} {fault : Fault}
    {configDb after : SledTree EncodedSetup} {stage : SetupStage}
    {progress : SetupStage ⊕ Except PdaRunnerError SP1ProofSetup}
    (stored : ∀ data, configDb.lookup key = some data → data = codec.serialize (setup elf))
    (working : stage.Sound (setup elf))
    (made : initProofSetup codec setup elf key fault configDb stage = (after,progress)) :
    (after = configDb ∨ after = configDb.insert key (codec.serialize (setup elf))) ∧
      SoundProgress (setup elf) progress := by
  cases fault with
  | some e => cases stage <;> cases made <;> exact ⟨.inl rfl,trivial⟩
  | none =>
    cases stage with
    | readConfig =>
      simp only [initProofSetup] at made
      cases found : configDb.lookup key with
      | none =>
        rw [found] at made
        cases made
        exact ⟨.inl rfl,trivial⟩
      | some data =>
        rw [found] at made
        cases made
        rw [stored data found,codec.round_trip]
        exact ⟨.inl rfl,rfl⟩
    | computing =>
      cases made
      exact ⟨.inl rfl,rfl⟩
    | storing newProofSetup =>
      cases made
      obtain rfl : newProofSetup = setup elf := working
      exact ⟨.inr rfl,rfl⟩

theorem getProofSetup_eq (client : ZkClient) (elf : Bytes) :
    getProofSetup deps codec clients client elf = initProofSetup codec (clients client) elf (getProgramId deps elf) := by
  cases client <;> rfl

/-- What one step can do to the cell, the tree and the returned calls. -/
inductive SetupStep (deps : Dependencies Proof Encoded Body) (codec : Codec SP1ProofSetup EncodedSetup)
    (clients : ZkClient → Bytes → SP1ProofSetup) (s : SetupState EncodedSetup) :
    SetupAction → SetupState EncodedSetup → Prop
  | started (elf) : SetupStep deps codec clients s (.start elf) (s.reset (some elf) s.configDb)
  | stopped (lost found) (left : s.contents[lost]? = some found) :
      SetupStep deps codec clients s (.stop lost) (s.reset none found)
  | called (client) : SetupStep deps codec clients s (.call client) { s with waiting := s.waiting ++ [client] }
  | cached (i elf client setup) (running : s.chachaElf = some elf) (filled : s.chachaSetup = .filled setup) :
      SetupStep deps codec clients s (.enter i) { s with
        waiting := s.waiting.eraseIdx i
        returned := s.returned ++ [⟨client,elf,.ok setup⟩] }
  | entered (i client chachaSetup)
      (moved : s.chachaSetup.step (.enter ⟨client,.readConfig⟩ : Event _ _ PdaRunnerError) = some chachaSetup) :
      SetupStep deps codec clients s (.enter i) { s with chachaSetup, waiting := s.waiting.eraseIdx i }
  | advanced (fault elf attempt configDb stage chachaSetup) (running : s.chachaElf = some elf)
      (working : s.chachaSetup = .initialising attempt)
      (made : getProofSetup deps codec clients attempt.client elf fault s.configDb attempt.stage = (configDb,.inl stage))
      (moved : s.chachaSetup.step (.advance { attempt with stage } : Event _ _ PdaRunnerError) = some chachaSetup) :
      SetupStep deps codec clients s (.advance fault) { s with chachaSetup, configDb, unflushed := s.contents }
  | finished (fault elf attempt configDb result chachaSetup) (running : s.chachaElf = some elf)
      (working : s.chachaSetup = .initialising attempt)
      (made : getProofSetup deps codec clients attempt.client elf fault s.configDb attempt.stage = (configDb,.inr result))
      (moved : s.chachaSetup.step (.finish result) = some chachaSetup) :
      SetupStep deps codec clients s (.advance fault) { s with
        chachaSetup
        configDb
        unflushed := s.contents
        returned := s.returned ++ [⟨attempt.client,elf,result⟩] }
  | cancelled (i) : SetupStep deps codec clients s (.cancel i) { s with waiting := s.waiting.eraseIdx i }
  | abandoned (chachaSetup) (moved : s.chachaSetup.step (.abandon : Event _ _ PdaRunnerError) = some chachaSetup) :
      SetupStep deps codec clients s .abandon { s with chachaSetup }

theorem setupStep_cases {action : SetupAction} (stepped : s.step deps codec clients action = some t) :
    SetupStep deps codec clients s action t := by
  cases action with
  | start elf =>
    obtain ⟨_,same⟩ := Option.ite_none_right_eq_some.mp stepped
    cases same
    exact .started elf
  | stop lost =>
    obtain ⟨_,same⟩ := Option.ite_none_left_eq_some.mp stepped
    obtain ⟨found,left,rfl⟩ := Option.map_eq_some_iff.mp same
    exact .stopped lost found left
  | call client =>
    obtain ⟨_,same⟩ := Option.ite_none_left_eq_some.mp stepped
    cases same
    exact .called client
  | enter i =>
    obtain ⟨elf,running,found⟩ := Option.bind_eq_some_iff.mp stepped
    obtain ⟨client,_,moved⟩ := Option.bind_eq_some_iff.mp found
    unfold SetupState.enterStep at moved
    split at moved
    next setup filled =>
      cases moved
      exact .cached i elf client setup running filled
    next =>
      obtain ⟨chachaSetup,entered,same⟩ := Option.map_eq_some_iff.mp moved
      cases same
      exact .entered i client chachaSetup entered
  | advance fault =>
    simp only [SetupState.step] at stepped
    split at stepped
    next elf attempt running working =>
      unfold SetupState.advanceStep at stepped
      cases made : getProofSetup deps codec clients attempt.client elf fault s.configDb attempt.stage with
      | mk configDb progress =>
        rw [made] at stepped
        cases progress with
        | inl stage =>
          obtain ⟨chachaSetup,moved,same⟩ := Option.map_eq_some_iff.mp stepped
          cases same
          exact .advanced fault elf attempt configDb stage chachaSetup running working made moved
        | inr result =>
          obtain ⟨chachaSetup,moved,same⟩ := Option.map_eq_some_iff.mp stepped
          cases same
          exact .finished fault elf attempt configDb result chachaSetup running working made moved
    next => contradiction
  | cancel i =>
    obtain ⟨_,same⟩ := Option.ite_none_right_eq_some.mp stepped
    cases same
    exact .cancelled i
  | abandon =>
    obtain ⟨chachaSetup,moved,same⟩ := Option.map_eq_some_iff.mp stepped
    cases same
    exact .abandoned chachaSetup moved

section
variable {elfs : Set Bytes}

/-- An attempt's operation adds at most the setup of its own program to the tree. -/
theorem getProofSetup_sound (shared : ∀ client elf, clients client elf = deps.setup elf)
    (collisionFree : Set.InjOn deps.sha256 elfs) {client : ZkClient} {elf : Bytes} {fault : Fault}
    {configDb after : SledTree EncodedSetup} {stage : SetupStage}
    {progress : SetupStage ⊕ Except PdaRunnerError SP1ProofSetup} (own : elf ∈ elfs)
    (stored : ∀ other ∈ elfs, StoresSetup deps codec configDb other) (working : stage.Sound (deps.setup elf))
    (made : getProofSetup deps codec clients client elf fault configDb stage = (after,progress)) :
    (∀ other ∈ elfs, StoresSetup deps codec after other) ∧ SoundProgress (deps.setup elf) progress := by
  have same : clients client = deps.setup := funext (shared client)
  rw [getProofSetup_eq,same] at made
  obtain ⟨written,sound⟩ := initProofSetup_sound (stored elf own) working made
  refine ⟨?_,sound⟩
  rcases written with rfl | rfl
  · exact stored
  · intro other listed data found
    by_cases key : getProgramId deps other = getProgramId deps elf
    · have equal : other = elf := collisionFree listed own (List.Vector.toList_injective key)
      subst equal
      rw [AList.lookup_insert] at found
      exact (Option.some.inj found).symm
    · rw [AList.lookup_insert_ne key] at found
      exact stored other listed data found

theorem SetupState.Coherent.current (coherent : s.Coherent deps codec elfs) :
    ∀ elf ∈ elfs, StoresSetup deps codec s.configDb elf :=
  coherent.stored _ List.mem_cons_self

theorem coherent_step (shared : ∀ client elf, clients client elf = deps.setup elf)
    (collisionFree : Set.InjOn deps.sha256 elfs) {action : SetupAction} (coherent : s.Coherent deps codec elfs)
    (started : StartsIn elfs s action) (stepped : s.step deps codec clients action = some t) :
    t.Coherent deps codec elfs := by
  have current := coherent.current
  obtain ⟨running,stored,cell,returned⟩ := coherent
  cases setupStep_cases stepped with
  | started elf =>
    refine ⟨?_,List.forall_mem_singleton.mpr current,fun _ _ => trivial,returned⟩
    intro other same
    cases same
    exact started
  | stopped lost found left =>
    have kept := stored found (List.mem_of_getElem? left)
    exact ⟨fun _ same => (by cases same),List.forall_mem_singleton.mpr kept,fun _ _ => trivial,returned⟩
  | called client => exact ⟨running,stored,cell,returned⟩
  | cancelled i => exact ⟨running,stored,cell,returned⟩
  | entered i client chachaSetup moved => exact ⟨running,stored,fun _ _ => step_holds moved trivial,returned⟩
  | abandoned chachaSetup moved => exact ⟨running,stored,fun _ _ => step_holds moved trivial,returned⟩
  | cached i elf client setup up filled =>
    refine ⟨running,stored,cell,?_⟩
    have good := cell elf up
    rw [filled] at good
    refine forall_concat returned ⟨running elf up,?_⟩
    intro value result
    cases result
    exact good
  | advanced fault elf attempt configDb stage chachaSetup up working made moved =>
    have here := cell elf up
    rw [working] at here
    obtain ⟨written,sound⟩ := getProofSetup_sound shared collisionFree (running elf up) current here made
    refine ⟨running,List.forall_mem_cons.mpr ⟨written,stored⟩,?_,returned⟩
    intro other again
    cases up.symm.trans again
    exact step_holds moved sound
  | finished fault elf attempt configDb result chachaSetup up working made moved =>
    have here := cell elf up
    rw [working] at here
    obtain ⟨written,sound⟩ := getProofSetup_sound shared collisionFree (running elf up) current here made
    refine ⟨running,List.forall_mem_cons.mpr ⟨written,stored⟩,?_,?_⟩
    · intro other again
      cases up.symm.trans again
      exact step_holds moved (by cases result <;> exact sound)
    · refine forall_concat returned ⟨running elf up,?_⟩
      intro value ok
      cases ok
      exact sound

theorem coherent_reaches (shared : ∀ client elf, clients client elf = deps.setup elf)
    (collisionFree : Set.InjOn deps.sha256 elfs)
    (run : Reaches (SetupState.step deps codec clients) (StartsIn elfs) SetupState.initial s) :
    s.Coherent deps codec elfs := by
  apply run.invariant fun _ _ _ coherent started stepped => coherent_step shared collisionFree coherent started stepped
  refine ⟨fun _ same => (by cases same),List.forall_mem_singleton.mpr fun _ _ _ found => ?_,fun _ _ => trivial,
    fun _ listed => (by cases listed)⟩
  cases found

end

/-- If the setups of the programs verify the guest, so does everything the calls return: what
decryption supposes of the setups it is given holds of those it gets. -/
theorem returned_verifiesGuest {elfs : Set Bytes} (shared : ∀ client elf, clients client elf = deps.setup elf)
    (collisionFree : Set.InjOn deps.sha256 elfs) (guest : ∀ elf ∈ elfs, VerifiesGuest deps (.ok (deps.setup elf)))
    (run : Reaches (SetupState.step deps codec clients) (StartsIn elfs) SetupState.initial s) :
    ∀ call ∈ s.returned, VerifiesGuest deps call.result := by
  intro call listed proofSetup returned
  obtain ⟨own,sound⟩ := (coherent_reaches shared collisionFree run).returned call listed
  obtain rfl := sound proofSetup returned
  exact guest call.elf own _ rfl

/-- No operation fails, no future is dropped and the process goes on. -/
def FaultFree (_ : SetupState EncodedSetup) : SetupAction → Prop
  | .call _ | .enter _ => True
  | .advance fault => fault = none
  | _ => False

section
variable (deps : Dependencies Proof Encoded Body) (codec : Codec SP1ProofSetup EncodedSetup)
  (clients : ZkClient → Bytes → SP1ProofSetup)

/-- If nothing fails, the next call to return is one of this client, with the program's setup. -/
def Finishes (s : SetupState EncodedSetup) (elf : Bytes) (client : ZkClient) : Prop :=
  ∃ t, Reaches (SetupState.step deps codec clients) FaultFree s t ∧
    t.returned = s.returned ++ [⟨client,elf,.ok (deps.setup elf)⟩]

def CanSucceed (s : SetupState EncodedSetup) (elf : Bytes) (client : ZkClient) : Prop :=
  ∃ called, s.step deps codec clients (.call client) = some called ∧ Finishes deps codec clients called elf client

end

section
variable {elf : Bytes} {client : ZkClient} {action : SetupAction}

theorem finishes_now (stepped : s.step deps codec clients action = some t) (allowed : FaultFree s action)
    (returned : t.returned = s.returned ++ [⟨client,elf,.ok (deps.setup elf)⟩]) : Finishes deps codec clients s elf client :=
  ⟨t,.single ⟨action,allowed,stepped⟩,returned⟩

theorem finishes_later (stepped : s.step deps codec clients action = some t) (allowed : FaultFree s action)
    (quiet : t.returned = s.returned) (later : Finishes deps codec clients t elf client) :
    Finishes deps codec clients s elf client := by
  obtain ⟨u,run,returned⟩ := later
  rw [quiet] at returned
  exact ⟨u,.head ⟨action,allowed,stepped⟩ run,returned⟩

theorem storing_finishes (running : s.chachaElf = some elf)
    (busy : s.chachaSetup = .initialising ⟨client,.storing (deps.setup elf)⟩) : Finishes deps codec clients s elf client := by
  have stepped : s.step deps codec clients (.advance none) = some { s with
      chachaSetup := .filled (deps.setup elf)
      configDb := s.configDb.insert (getProgramId deps elf) (codec.serialize (deps.setup elf))
      unflushed := s.contents
      returned := s.returned ++ [⟨client,elf,.ok (deps.setup elf)⟩] } := by
    simp only [SetupState.step,running,busy,SetupState.advanceStep,getProofSetup_eq,initProofSetup,Cell.step,Option.map_some]
  exact finishes_now stepped rfl rfl

theorem computing_finishes (shared : ∀ client elf, clients client elf = deps.setup elf) (running : s.chachaElf = some elf)
    (busy : s.chachaSetup = .initialising ⟨client,.computing⟩) : Finishes deps codec clients s elf client := by
  have stepped : s.step deps codec clients (.advance none) = some { s with
      chachaSetup := .initialising ⟨client,.storing (deps.setup elf)⟩
      unflushed := s.contents } := by
    simp only [SetupState.step,running,busy,SetupState.advanceStep,getProofSetup_eq,initProofSetup,Cell.step,Option.map_some,
      shared]
  apply finishes_later stepped rfl rfl
  exact storing_finishes running rfl

theorem reading_finishes (shared : ∀ client elf, clients client elf = deps.setup elf) (running : s.chachaElf = some elf)
    (stored : StoresSetup deps codec s.configDb elf) (busy : s.chachaSetup = .initialising ⟨client,.readConfig⟩) :
    Finishes deps codec clients s elf client := by
  cases found : s.configDb.lookup (getProgramId deps elf) with
  | none =>
    have stepped : s.step deps codec clients (.advance none) = some { s with
        chachaSetup := .initialising ⟨client,.computing⟩
        unflushed := s.contents } := by
      simp only [SetupState.step,running,busy,SetupState.advanceStep,getProofSetup_eq,initProofSetup,found,Cell.step,
        Option.map_some]
    apply finishes_later stepped rfl rfl
    exact computing_finishes shared running rfl
  | some data =>
    have stepped : s.step deps codec clients (.advance none) = some { s with
        chachaSetup := .filled (deps.setup elf)
        unflushed := s.contents
        returned := s.returned ++ [⟨client,elf,.ok (deps.setup elf)⟩] } := by
      simp only [SetupState.step,running,busy,SetupState.advanceStep,getProofSetup_eq,initProofSetup,found,
        stored data found,codec.round_trip,Except.mapError,Cell.step,Option.map_some]
    exact finishes_now stepped rfl rfl

theorem empty_can_succeed (shared : ∀ client elf, clients client elf = deps.setup elf) (running : s.chachaElf = some elf)
    (stored : StoresSetup deps codec s.configDb elf) (empty : s.chachaSetup = .empty) (client : ZkClient) :
    CanSucceed deps codec clients s elf client := by
  let called : SetupState EncodedSetup := { s with waiting := s.waiting ++ [client] }
  have up : s.chachaElf ≠ none := by simp [running]
  have calls : s.step deps codec clients (.call client) = some called := by rw [SetupState.step,if_neg up]
  have enters : called.step deps codec clients (.enter s.waiting.length) = some { s with
      chachaSetup := .initialising ⟨client,.readConfig⟩ } := by
    simp [called,SetupState.step,running,SetupState.enterStep,empty,Cell.step,List.eraseIdx_append_of_length_le]
  refine ⟨called,calls,?_⟩
  apply finishes_later enters trivial rfl
  exact reading_finishes shared running stored rfl

end

theorem failed_step {action : SetupAction} {client : ZkClient} {elf : Bytes} {e : PdaRunnerError}
    (stepped : s.step deps codec clients action = some t) (failed : t.returned = s.returned ++ [⟨client,elf,.error e⟩]) :
    (∃ fault, action = .advance fault) ∧ t.chachaElf = some elf ∧ t.chachaSetup = .empty := by
  cases setupStep_cases stepped with
  | finished fault own attempt configDb result chachaSetup running working made moved =>
    cases List.append_cancel_left failed
    exact ⟨⟨fault,rfl⟩,running,failed_empty moved⟩
  | cached i own other setup running filled => cases List.append_cancel_left failed
  | _ => simp [SetupState.reset] at failed

/-- Along every history of processes, the tree holds the setup of a program or nothing, a call
that succeeds returns the setup of its own process's program, and a call that fails leaves the
cell empty, so that the next can succeed. -/
theorem setup_cache_coherent (deps : Dependencies Proof Encoded Body) (codec : Codec SP1ProofSetup EncodedSetup)
    (clients : ZkClient → Bytes → SP1ProofSetup) (shared : ∀ client elf, clients client elf = deps.setup elf)
    (elfs : Set Bytes) (collisionFree : Set.InjOn deps.sha256 elfs) (s : SetupState EncodedSetup)
    (run : Reaches (SetupState.step deps codec clients) (StartsIn elfs) SetupState.initial s) :
    (∀ elf ∈ elfs, s.configDb.lookup (getProgramId deps elf) = none ∨
      s.configDb.lookup (getProgramId deps elf) = some (codec.serialize (deps.setup elf))) ∧
    (∀ call ∈ s.returned, ∀ setup, call.result = .ok setup → setup = deps.setup call.elf) ∧
    ∀ action t client elf e, s.step deps codec clients action = some t →
      t.returned = s.returned ++ [⟨client,elf,.error e⟩] →
        t.chachaSetup = .empty ∧ ∀ later, CanSucceed deps codec clients t elf later := by
  have coherent := coherent_reaches shared collisionFree run
  refine ⟨?_,fun call listed => (coherent.returned call listed).2,?_⟩
  · intro elf listed
    cases found : s.configDb.lookup (getProgramId deps elf) with
    | none => exact .inl rfl
    | some data => exact .inr (congrArg some (coherent.current elf listed data found))
  · intro action t client elf e stepped failed
    obtain ⟨⟨fault,rfl⟩,running,empty⟩ := failed_step stepped failed
    have started : StartsIn elfs s (.advance fault) := trivial
    have after : t.Coherent deps codec elfs := coherent_step shared collisionFree coherent started stepped
    exact ⟨empty,fun later => empty_can_succeed shared running (after.current elf (after.running elf running)) empty later⟩

namespace Tabulated

def setupClients (_ : ZkClient) (elf : Bytes) : SP1ProofSetup := dependencies.setup elf

/-- The programs of two processes. -/
def elfs : Set Bytes := {[1,2,3],zeroKey.toList}

theorem elfs_collisionFree : Set.InjOn dependencies.sha256 elfs := by
  intro first firstListed second secondListed same
  rcases firstListed with rfl | rfl
  · rcases secondListed with rfl | rfl
    · rfl
    · exact absurd same (by decide)
  · rcases secondListed with rfl | rfl
    · exact absurd same (by decide)
    · rfl

instance (s : SetupState SP1ProofSetup) : ∀ action, Decidable (StartsIn elfs s action)
  | .start elf => decidable_of_iff (elf = [1,2,3] ∨ elf = zeroKey.toList) Iff.rfl
  | .stop _ | .call _ | .enter _ | .advance _ | .cancel _ | .abandon => inferInstanceAs (Decidable True)

/-- Two calls, and the first cannot store what it computed. -/
def failInsert : List SetupAction :=
  [.start [1,2,3],.call .envProver,.call .networkProver,.enter 0,.advance none,.advance none]

/-- The second call stores it, and the next process runs another program. -/
def upgrade : List SetupAction :=
  failInsert ++ [.advance (some "io"),.enter 0,.advance none,.advance none,.advance none,.stop 0,.start zeroKey.toList,
    .call .networkProver,.call .envProver,.enter 0,.advance none,.advance none,.advance none,.enter 0]

def setupAfter (actions : List SetupAction) : SetupState SP1ProofSetup :=
  final (SetupState.step dependencies (.plain _) setupClients) .initial actions

end Tabulated

theorem setup_cache_coherent_upgrade :
    let s := Tabulated.setupAfter Tabulated.upgrade
    let failed := Tabulated.setupAfter (Tabulated.failInsert ++ [.advance (some "io")])
    s.returned.length = 4 ∧
    (∀ elf ∈ Tabulated.elfs, s.configDb.lookup (getProgramId Tabulated.dependencies elf) = none ∨
      s.configDb.lookup (getProgramId Tabulated.dependencies elf) = some (Tabulated.dependencies.setup elf)) ∧
    (∀ call ∈ s.returned, ∀ setup, call.result = .ok setup → setup = Tabulated.dependencies.setup call.elf) ∧
    failed.chachaSetup = .empty ∧
    ∀ later, CanSucceed Tabulated.dependencies (.plain _) Tabulated.setupClients failed [1,2,3] later := by
  intro s failed
  have coherent := setup_cache_coherent Tabulated.dependencies (.plain _) Tabulated.setupClients (fun _ _ => rfl)
    Tabulated.elfs Tabulated.elfs_collisionFree s (final_reaches _ _ (by decide +kernel))
  have recovers := (setup_cache_coherent Tabulated.dependencies (.plain _) Tabulated.setupClients (fun _ _ => rfl)
    Tabulated.elfs Tabulated.elfs_collisionFree (Tabulated.setupAfter Tabulated.failInsert)
    (final_reaches _ _ (by decide +kernel))).2.2 (.advance (some "io")) failed .envProver [1,2,3] (.internalError "io") rfl rfl
  exact ⟨rfl,coherent.1,coherent.2.1,recovers⟩

end PdaProxy
