import PdaProxy.Egress

/-! What `inbound_handler` keeps of a submission. The request is put back together around
its new blobs, and those are built from a namespace and data alone. -/
namespace PdaProxy
open PdaProxy.Semantics.Serialization PdaProxy.Semantics.Transition

variable {Proof Encoded Body : Type} {deps : Dependencies Proof Encoded Body} {answered : List (Answered Proof)}

def paramsEntry (object : Json) (i : Nat) : Option Json :=
  ((object.get "params").bind Json.asArray).bind fun params => params[i]?

def SameOrigin (blob sent : Blob) : Prop :=
  sent.nmtNamespace = blob.nmtNamespace ∧ sent.shareVersion = blob.shareVersion ∧ sent.signer = blob.signer

/-- Of a submission, nothing but the data, commitments and indices of its blobs differs in
what the node reads. -/
structure OnlyEncrypts (deps : Dependencies Proof Encoded Body) (clientJson forwardedJson : Json) : Prop where
  members : ∀ name, name ≠ "params" → forwardedJson.get name = clientJson.get name
  params : ∀ i, 1 ≤ i → paramsEntry forwardedJson i = paramsEntry clientJson i
  blobs : ∀ blobs, submittedBlobs deps clientJson = some blobs →
    ∃ sent, submittedBlobs deps forwardedJson = some sent ∧ List.Forall₂ SameOrigin blobs sent

/-- A blob that its constructor could have made: of share version 0 and without a signer. -/
def Unsigned (blob : Blob) : Prop := blob.shareVersion = 0 ∧ blob.signer = none

theorem OnlyEncrypts.refl (object : Json) : OnlyEncrypts deps object object :=
  ⟨fun _ _ => rfl,fun _ _ => rfl,fun blobs submitted =>
    ⟨blobs,submitted,List.forall₂_same.mpr fun _ _ => ⟨rfl,rfl,rfl⟩⟩⟩

theorem paramsEntry_overwriteBlobs (object blobsValue : Json) {i : Nat} (later : 1 ≤ i) :
    paramsEntry (overwriteBlobs object blobsValue) i = paramsEntry object i := by
  unfold overwriteBlobs
  split
  next first others params =>
    obtain ⟨j,rfl⟩ := Nat.exists_eq_add_of_le' later
    simp [paramsEntry,Json.get_set _ _ _ _ params,params,Json.asArray]
  next => rfl

theorem overwriteBlobs_get (object blobsValue : Json) {name : String} (other : name ≠ "params") :
    (overwriteBlobs object blobsValue).get name = object.get name := by
  unfold overwriteBlobs
  split
  next => exact Json.get_set_ne _ _ _ _ other
  next => rfl

theorem sameOrigin_iff
    (builds : ∀ {ns data blob}, deps.blobNew ns data = .ok blob → blob.shareVersion = 0 ∧ blob.signer = none)
    {blobs encryptedBlobs : List Blob} (replaced : List.Forall₂ (Encrypted deps answered) blobs encryptedBlobs) :
    List.Forall₂ SameOrigin blobs encryptedBlobs ↔ ∀ blob ∈ blobs, Unsigned blob := by
  induction replaced with
  | nil => simp
  | cons encrypted _ ih =>
    obtain ⟨proof,_,made⟩ := encrypted
    obtain ⟨version,signer⟩ := builds made
    rw [List.forall₂_cons,List.forall_mem_cons,ih,SameOrigin,(deps.blobNew_fields made).1,version,signer,Unsigned]
    simp only [true_and,eq_comm]

theorem overwriteBlobs_onlyEncrypts {clientJson : Json} {blobs encryptedBlobs : List Blob}
    (submitted : submittedBlobs deps clientJson = some blobs)
    (replaced : List.Forall₂ (Encrypted deps answered) blobs encryptedBlobs) :
    OnlyEncrypts deps clientJson (overwriteBlobs clientJson (deps.blobsToValue encryptedBlobs)) ↔
      List.Forall₂ SameOrigin blobs encryptedBlobs := by
  have resubmitted := submittedBlobs_overwriteBlobs submitted replaced
  constructor
  · intro only
    obtain ⟨sent,found,same⟩ := only.blobs blobs submitted
    obtain rfl := Option.some.inj (resubmitted.symm.trans found)
    exact same
  · intro same
    refine ⟨fun name other => overwriteBlobs_get _ _ other,fun i later => paramsEntry_overwriteBlobs _ _ later,?_⟩
    intro others found
    obtain rfl := Option.some.inj (submitted.symm.trans found)
    exact ⟨encryptedBlobs,resubmitted,same⟩

/-- In every run a forwarded submission differs from its client's in no more than encryption
must change if and only if the client's blobs are all of share version 0 and unsigned. -/
theorem submission_only_encrypted_iff (config : Config) (s : State Proof Encoded Body)
    (run : Reaches (State.step deps) Free (State.initial config) s)
    (req : IncomingRequest Body) (forwarded : Request Body) (served : (req,.ok (some forwarded)) ∈ s.served)
    (clientJson : Json) (parsed : req.json deps = .ok clientJson)
    (inverse : deps.ReadsPrinted)
    (builds : ∀ {ns data blob}, deps.blobNew ns data = .ok blob → blob.shareVersion = 0 ∧ blob.signer = none) :
    (∃ forwardedJson, deps.fromSlice forwarded.body = .ok forwardedJson ∧ OnlyEncrypts deps clientJson forwardedJson) ↔
      ∀ blobs, submittedBlobs deps clientJson = some blobs → ∀ blob ∈ blobs, Unsigned blob := by
  have printed : ∀ {json}, deps.Printed json → forwarded.body = deps.toVec json →
      ((∃ forwardedJson, deps.fromSlice forwarded.body = .ok forwardedJson ∧ OnlyEncrypts deps clientJson forwardedJson) ↔
        OnlyEncrypts deps clientJson json) := by
    intro json printed body
    simp [body,inverse json printed]
  obtain ⟨bodyBytes,slice⟩ := req.json_read parsed
  obtain ⟨_,sound⟩ := forwarded_reaches run (fun _ action _ => receives_any action) served
  cases sound with
  | unchanged bodyJson read other =>
    cases parsed.symm.trans read
    rw [printed (.parsed _ _ slice) rfl]
    exact iff_of_true (.refl clientJson) (fun blobs submitted => by rw [other] at submitted; cases submitted)
  | encrypted bodyJson blobs encryptedBlobs read submitted replaced =>
    cases parsed.symm.trans read
    rw [printed (.submission _ _ encryptedBlobs slice) rfl,overwriteBlobs_onlyEncrypts submitted replaced,
      sameOrigin_iff builds replaced]
    simp [submitted]

namespace Tabulated

theorem blobNew_builds {ns data : Bytes} {blob : Blob} (made : blobNew ns data = .ok blob) :
    blob.shareVersion = 0 ∧ blob.signer = none := by
  rw [(blobNew_success made).1]
  exact ⟨rfl,rfl⟩

end Tabulated

theorem submission_only_encrypted_plain :
    (∃ forwardedJson, Tabulated.dependencies.fromSlice Tabulated.forwardedPlain.body = .ok forwardedJson ∧
        OnlyEncrypts Tabulated.dependencies (Tabulated.call "blob.Submit" [Tabulated.plainBlob]) forwardedJson) ↔
      ∀ blobs, submittedBlobs Tabulated.dependencies (Tabulated.call "blob.Submit" [Tabulated.plainBlob]) = some blobs →
        ∀ blob ∈ blobs, Unsigned blob :=
  submission_only_encrypted_iff Tabulated.localConfig _ (Tabulated.run_reaches _ Tabulated.returnPlain (by decide +kernel))
    _ _ Tabulated.returnPlain_served _ rfl (fun _ _ => rfl) Tabulated.blobNew_builds

namespace Tabulated

/-- A blob of share version 1 with its author's address. -/
def signedBlob : Blob := ⟨List.replicate 29 0,[1,2,3],1,[],none,some (List.replicate 20 7)⟩

def signedRequest : IncomingRequest Json := post (call "blob.Submit" [blobToValue signedBlob])

def returnSigned : List (Action Bytes Json) :=
  [.receive signedRequest,.request 0 none,.request 0 none,.request 0 none,.request 0 none] ++
    provePlain zeroKey zeroNonce ++ [.receive signedRequest,.request 0 none]

def forwardedJson : Json :=
  call "blob.Submit" [blobToValue ⟨List.replicate 29 0,plainProof zeroKey zeroNonce,0,[],none,none⟩]

set_option maxRecDepth 2048 in
theorem returnSigned_served :
    (signedRequest,.ok (some (forward dependencies signedRequest forwardedJson))) ∈ (run localConfig returnSigned).served := by
  rw [run_eq]
  exact List.mem_of_getElem? (i := 1) rfl

theorem signedBlob_submitted :
    submittedBlobs dependencies (call "blob.Submit" [blobToValue signedBlob]) = some [signedBlob] := by
  decide +kernel

theorem forwardedJson_submitted : submittedBlobs dependencies forwardedJson =
    some [⟨List.replicate 29 0,plainProof zeroKey zeroNonce,0,[],none,none⟩] :=
  unsigned_submitted _ _

end Tabulated

/-- The author of a signed blob is dropped from the one that is forwarded. -/
theorem signed_submission_loses_signer :
    let s := Tabulated.run Tabulated.localConfig Tabulated.returnSigned
    Reaches (State.step Tabulated.dependencies) Free (.initial Tabulated.localConfig) s ∧
      ∃ forwarded, (Tabulated.signedRequest,.ok (some forwarded)) ∈ s.served ∧
        ¬ ∃ forwardedJson, Tabulated.dependencies.fromSlice forwarded.body = .ok forwardedJson ∧
          OnlyEncrypts Tabulated.dependencies (Tabulated.call "blob.Submit" [Tabulated.blobToValue Tabulated.signedBlob])
            forwardedJson := by
  refine ⟨Tabulated.run_reaches _ _ (by decide +kernel),_,Tabulated.returnSigned_served,?_⟩
  intro only
  obtain ⟨forwardedJson,read,encrypts⟩ := only
  have forwarded : Tabulated.forwardedJson = forwardedJson := Except.ok.inj read
  subst forwarded
  obtain ⟨sent,found,same⟩ := encrypts.blobs _ Tabulated.signedBlob_submitted
  obtain rfl := Option.some.inj (Tabulated.forwardedJson_submitted.symm.trans found)
  obtain ⟨_,_,signer⟩ := (List.forall₂_cons.mp same).1
  cases signer

end PdaProxy
