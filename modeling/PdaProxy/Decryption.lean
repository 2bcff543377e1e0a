import PdaProxy.System
import PdaProxy.Semantics.Outcome

/-! What `outbound_handler` makes of the blobs a node returns. A blob is decrypted if the
proof in its data is one that the verifier accepts, whichever key it was made with, and a
list of blobs is decrypted as a whole or handed on as it came. -/
namespace PdaProxy
open PdaProxy.Semantics.Serialization PdaProxy.Semantics.Outcome

variable {Proof Encoded Body : Type}

section
variable (deps : Dependencies Proof Encoded Body)

/-- The blob's data is a proof that the verifier accepts under the setup. -/
def Accepted (setup : Except PdaRunnerError SP1ProofSetup) (blob : Blob) (proof : Proof) : Prop :=
  deps.proofCodec.deserialize blob.data = .ok proof ∧
    ∃ proofSetup, setup = .ok proofSetup ∧ deps.verify proof proofSetup.vk = .ok ()

def GuestProof (key : Block KEY_LEN) (proof : Proof) : Prop :=
  ∃ nonce : Block NONCE_LEN, ∃ plaintext,
    guestMain deps.sha256 deps.cipher [key.toList,nonce.toList,plaintext] = .ok (deps.publicValues proof)

/-- The verifier accepts under the setup only what the guest has made, with whatever key. -/
def VerifiesGuest (setup : Except PdaRunnerError SP1ProofSetup) : Prop :=
  ∀ proofSetup, setup = .ok proofSetup → ∀ proof, deps.verify proof proofSetup.vk = .ok () →
    ∃ key, GuestProof deps key proof

/-- The keystream lasts for each ciphertext that a proof accepted under the setup commits to. -/
def WithinKeystream (setup : Except PdaRunnerError SP1ProofSetup) : Prop :=
  ∀ proofSetup, setup = .ok proofSetup → ∀ proof, deps.verify proof proofSetup.vk = .ok () →
    ∀ output, ZkvmOutput.fromBytes (deps.publicValues proof) = .ok output → output.ciphertext.length ≤ deps.cipher.limit

/-- A plaintext is the one that the blob's verified proof commits to, under this key. -/
def DecryptsSoundly (key : Block KEY_LEN) (setup : Except PdaRunnerError SP1ProofSetup) (blob : Blob) : Prop :=
  ∀ plain, verifyDecryptBlob deps key setup blob = pure plain →
    ∃ proof output, Accepted deps setup blob proof ∧ ZkvmOutput.fromBytes (deps.publicValues proof) = .ok output ∧
      deps.sha256 plain.data = output.plaintextHash ∧ deps.sha256 key.toList = output.privkeyHash

/-- A blob in a response and what it is replaced by: its data is decrypted with the key and
the committed nonce from the ciphertext that its own verified proof commits to. -/
def Decrypted (key : Block KEY_LEN) (setup : Except PdaRunnerError SP1ProofSetup) (value mutated : Json) : Prop :=
  ∃ blob proof output data, deps.blobFromValue value = .ok blob ∧ Accepted deps setup blob proof ∧
    ZkvmOutput.fromBytes (deps.publicValues proof) = .ok output ∧
    chacha deps.cipher key output.nonce output.ciphertext = .ok data ∧
    mutated = deps.blobToValue { blob with data }

def decryptValue (key : Block KEY_LEN) (setup : Except PdaRunnerError SP1ProofSetup) (value : Json) :
    Fallible Json := do
  let blob ← deps.blobFromValue value
  let plaintextOnlyBlob ← verifyDecryptBlob deps key setup blob
  return deps.blobToValue plaintextOnlyBlob

end

variable {deps : Dependencies Proof Encoded Body} {key : Block KEY_LEN}
  {setup : Except PdaRunnerError SP1ProofSetup} {blob : Blob} {proof : Proof} {output : ZkvmOutput}

theorem Accepted.unique {other : Proof} (accepted : Accepted deps setup blob proof)
    (again : Accepted deps setup blob other) : proof = other :=
  Except.ok.inj (accepted.1.symm.trans again.1)

theorem extractVerifiedProofOutput_ok :
    extractVerifiedProofOutput deps setup proof = .ok output ↔
      (∃ proofSetup, setup = .ok proofSetup ∧ deps.verify proof proofSetup.vk = .ok ()) ∧
        ZkvmOutput.fromBytes (deps.publicValues proof) = .ok output := by
  unfold extractVerifiedProofOutput
  split
  next e => simp
  next proofSetup =>
    split
    next e rejected => simp [rejected]
    next verified => simp [verified]

theorem verifyDecryptBlob_eq_pure {plain : Blob} :
    verifyDecryptBlob deps key setup blob = pure plain ↔
      ∃ proof output data, Accepted deps setup blob proof ∧ ZkvmOutput.fromBytes (deps.publicValues proof) = .ok output ∧
        chacha deps.cipher key output.nonce output.ciphertext = .ok data ∧ plain = { blob with data } := by
  simp only [verifyDecryptBlob,bind_eq_pure,lift_eq_pure,extractVerifiedProofOutput_ok]
  constructor
  · intro decrypted
    obtain ⟨proof,read,output,⟨verified,parsed⟩,applied⟩ := decrypted
    split at applied
    next => cases applied
    next data same => exact ⟨proof,output,data,⟨read,verified⟩,parsed,same,(pure_inj applied).symm⟩
  · intro decrypted
    obtain ⟨proof,output,data,⟨read,verified⟩,parsed,applied,same⟩ := decrypted
    refine ⟨proof,read,output,⟨verified,parsed⟩,?_⟩
    rw [applied,same]

theorem decryptValue_eq_pure {value mutated : Json} :
    decryptValue deps key setup value = pure mutated ↔ Decrypted deps key setup value mutated := by
  simp only [decryptValue,bind_eq_pure,lift_eq_pure,verifyDecryptBlob_eq_pure]
  constructor
  · intro decrypted
    obtain ⟨blob,read,_,⟨proof,output,data,accepted,parsed,applied,rfl⟩,same⟩ := decrypted
    exact ⟨blob,proof,output,data,read,accepted,parsed,applied,(pure_inj same).symm⟩
  · intro decrypted
    obtain ⟨blob,proof,output,data,read,accepted,parsed,applied,rfl⟩ := decrypted
    exact ⟨blob,read,_,⟨proof,output,data,accepted,parsed,applied,rfl⟩,rfl⟩

theorem GuestProof.decryptable (made : GuestProof deps key proof)
    (parsed : ZkvmOutput.fromBytes (deps.publicValues proof) = .ok output) (other : Block KEY_LEN) :
    ∃ data, chacha deps.cipher other output.nonce output.ciphertext = .ok data := by
  obtain ⟨nonce,plaintext,ran⟩ := made
  obtain ⟨ciphertext,applied,commits⟩ := guestMain_success ran
  rw [commits,fromBytes_commits] at parsed
  obtain rfl := Except.ok.inj parsed
  have bound := (chacha_success (chacha_involutive applied)).1
  exact ⟨_,if_pos bound⟩

theorem VerifiesGuest.withinKeystream (guest : VerifiesGuest deps setup) : WithinKeystream deps setup := by
  intro proofSetup ready proof verified output parsed
  obtain ⟨maker,made⟩ := guest proofSetup ready proof verified
  obtain ⟨data,applied⟩ := made.decryptable parsed maker
  exact (chacha_success applied).1

theorem verifyDecryptBlob_settles (bounded : WithinKeystream deps setup) : Settles (verifyDecryptBlob deps key setup blob) := by
  apply (settles_lift _).bind
  intro proof _
  apply (settles_lift _).bind
  intro output extracted
  obtain ⟨⟨proofSetup,ready,verified⟩,parsed⟩ := extractVerifiedProofOutput_ok.mp (lift_eq_pure.mp extracted)
  have applied : chacha deps.cipher key output.nonce output.ciphertext = .ok _ :=
    if_pos (bounded proofSetup ready proof verified output parsed)
  rw [applied]
  exact settles_pure _

theorem decryptValue_settles (bounded : WithinKeystream deps setup) (value : Json) :
    Settles (decryptValue deps key setup value) := by
  apply (settles_lift _).bind
  intro blob _
  apply (verifyDecryptBlob_settles bounded).bind
  intro plain _
  exact settles_pure _

theorem decryptAll_eq (setups : Nat → Except PdaRunnerError SP1ProofSetup) (position : Nat) (items : List Json) :
    decryptAll deps key setups position items =
      mapFrom (fun i value => decryptValue deps key (setups i) value) position items := by
  induction items generalizing position with
  | nil => rfl
  | cons value others ih => simp only [decryptAll,mapFrom,ih,decryptValue,bind_assoc,pure_bind]

namespace Tabulated

/-- The guest run again with a key of the table on what an output decrypts to. -/
def remake (output : ZkvmOutput) (key : Block KEY_LEN) : Except String Bytes := do
  let plaintext ← chacha dependencies.cipher key output.nonce output.ciphertext
  guestMain sha256 dependencies.cipher [key.toList,output.nonce.toList,plaintext]

def verify (proof : Bytes) : Except String Unit :=
  match ZkvmOutput.fromBytes proof with
  | .error e => .error e
  | .ok output =>
    if remake output zeroKey = .ok proof ∨ remake output oneKey = .ok proof then .ok () else .error "invalid proof"

/-- Dependencies whose verifier accepts what the guest makes with the keys of the table. -/
def checked : Dependencies Bytes (JobStatus Bytes) Json := { dependencies with verify proof _ := verify proof }

theorem remake_guest {output : ZkvmOutput} {key : Block KEY_LEN} {proof : Bytes}
    (remade : remake output key = .ok proof) : GuestProof checked key proof := by
  unfold remake at remade
  cases applied : chacha dependencies.cipher key output.nonce output.ciphertext with
  | error e =>
    rw [applied] at remade
    cases remade
  | ok plaintext =>
    rw [applied] at remade
    exact ⟨output.nonce,plaintext,remade⟩

theorem checked_guest (setup : Except PdaRunnerError SP1ProofSetup) : VerifiesGuest checked setup := by
  intro proofSetup _ proof verified
  change verify proof = .ok () at verified
  unfold verify at verified
  split at verified
  next => cases verified
  next output parsed =>
    split at verified
    next remade => exact remade.elim (fun same => ⟨zeroKey,remake_guest same⟩) (fun same => ⟨oneKey,remake_guest same⟩)
    next => cases verified

def proofBlob (key : Block KEY_LEN) (nonce : Block NONCE_LEN) : Blob :=
  ⟨List.replicate 29 0,plainProof key nonce,0,[],none,none⟩

def ready : Except PdaRunnerError SP1ProofSetup := .ok ⟨[0],[0]⟩

end Tabulated

/-- If and only if the proof in a blob, where it is accepted, was made with the configured key
is the decryption of the blob what its proof commits to. -/
theorem decryption_sound_iff (deps : Dependencies Proof Encoded Body) (key : Block KEY_LEN)
    (setup : Except PdaRunnerError SP1ProofSetup) (blob : Blob) (guest : VerifiesGuest deps setup) :
    DecryptsSoundly deps key setup blob ↔
      ∀ proof, Accepted deps setup blob proof → GuestProof deps key proof := by
  constructor
  · intro sound proof accepted
    obtain ⟨proofSetup,ready,verified⟩ := accepted.2
    obtain ⟨maker,made⟩ := guest proofSetup ready proof verified
    obtain ⟨nonce,plaintext,ran⟩ := made
    obtain ⟨ciphertext,_,commits⟩ := guestMain_success ran
    have parsed := fromBytes_commits (deps.sha256 maker.toList) (deps.sha256 plaintext) nonce ciphertext
    rw [← commits] at parsed
    obtain ⟨data,applied⟩ := GuestProof.decryptable ⟨nonce,plaintext,ran⟩ parsed key
    obtain ⟨other,output,again,reparsed,hashed,keyed⟩ :=
      sound { blob with data } (verifyDecryptBlob_eq_pure.mpr ⟨proof,_,data,accepted,parsed,applied,rfl⟩)
    obtain rfl := accepted.unique again
    obtain rfl := Except.ok.inj (parsed.symm.trans reparsed)
    refine ⟨nonce,data,?_⟩
    rw [guestMain_decrypted applied,fromBytes_success parsed,hashed,keyed]
  · intro own plain decrypted
    obtain ⟨proof,output,data,accepted,parsed,applied,rfl⟩ := verifyDecryptBlob_eq_pure.mp decrypted
    obtain ⟨nonce,plaintext,ran⟩ := own proof accepted
    obtain ⟨ciphertext,encrypted,commits⟩ := guestMain_success ran
    have same := parsed
    rw [commits,fromBytes_commits] at same
    obtain rfl := Except.ok.inj same
    -- ChaCha20 is its own inverse, so under the same key the plaintext comes back.
    obtain rfl := Except.ok.inj (applied.symm.trans (chacha_involutive encrypted))
    exact ⟨proof,_,accepted,parsed,rfl,rfl⟩

theorem decryption_sound_own_key :
    DecryptsSoundly Tabulated.checked Tabulated.zeroKey Tabulated.ready
        (Tabulated.proofBlob Tabulated.zeroKey Tabulated.zeroNonce) ↔
      ∀ proof, Accepted Tabulated.checked Tabulated.ready (Tabulated.proofBlob Tabulated.zeroKey Tabulated.zeroNonce) proof →
        GuestProof Tabulated.checked Tabulated.zeroKey proof :=
  decryption_sound_iff Tabulated.checked Tabulated.zeroKey Tabulated.ready _ (Tabulated.checked_guest _)

/-- A blob that another party encrypted with its own key is presented as decrypted. -/
theorem foreign_key_presents_garbage :
    VerifiesGuest Tabulated.checked Tabulated.ready ∧
      GuestProof Tabulated.checked Tabulated.oneKey (Tabulated.plainProof Tabulated.oneKey Tabulated.zeroNonce) ∧
      ¬ DecryptsSoundly Tabulated.checked Tabulated.zeroKey Tabulated.ready
        (Tabulated.proofBlob Tabulated.oneKey Tabulated.zeroNonce) := by
  refine ⟨Tabulated.checked_guest _,⟨Tabulated.zeroNonce,[1,2,3],by decide +kernel⟩,?_⟩
  intro sound
  have accepted : Accepted Tabulated.checked Tabulated.ready (Tabulated.proofBlob Tabulated.oneKey Tabulated.zeroNonce)
      (Tabulated.plainProof Tabulated.oneKey Tabulated.zeroNonce) := ⟨rfl,_,rfl,by decide +kernel⟩
  have commits : ZkvmOutput.fromBytes (Tabulated.plainProof Tabulated.oneKey Tabulated.zeroNonce) =
      .ok ⟨Tabulated.sha256 Tabulated.oneKey.toList,Tabulated.zeroNonce,Tabulated.sha256 [1,2,3],[3,61,52]⟩ :=
    fromBytes_commits _ _ _ _
  obtain ⟨proof,output,again,parsed,_,keyed⟩ := sound _ (verifyDecryptBlob_eq_pure.mpr
    ⟨_,_,_,accepted,commits,rfl,rfl⟩)
  obtain rfl := accepted.unique again
  obtain rfl := Except.ok.inj (commits.symm.trans parsed)
  have differ : Tabulated.sha256 Tabulated.zeroKey.toList ≠ Tabulated.sha256 Tabulated.oneKey.toList := by decide
  exact differ keyed

/-- A result and what replaces it: one blob, or an array of as many in the same order. -/
inductive OnBlobs (related : Nat → Json → Json → Prop) (requestMethod : String) : Json → Json → Prop
  | single (value mutated) (asked : requestMethod = "blob.Get") (holds : related 0 value mutated) :
      OnBlobs related requestMethod value mutated
  | each (values blobs) (asked : requestMethod = "blob.GetAll")
      (holds : List.Forall₂ (fun entry blob => related entry.2 entry.1 blob) values.zipIdx blobs) :
      OnBlobs related requestMethod (.array values) (.array blobs)

def resultBlobs (requestMethod : String) (bodyJson : Json) : List Json :=
  match bodyJson.get "result" with
  | none => []
  | some result => if requestMethod = "blob.Get" then [result] else result.asArray.getD []

section
variable {config : Config} {setups : Nat → Except PdaRunnerError SP1ProofSetup} {requestMethod : String}
  {resp : IncomingResponse Body} {bodyBytes : Body} {bodyJson result : Json}

theorem tryMutateResponse_get (found : bodyJson.get "result" = some result) :
    tryMutateResponse deps key setups "blob.Get" bodyJson =
      decryptValue deps key (setups 0) result >>= fun mutated => pure (bodyJson.set "result" mutated) := by
  simp only [tryMutateResponse,found,decryptValue,bind_assoc,pure_bind]

theorem tryMutateResponse_getAll {values : List Json} (found : bodyJson.get "result" = some (.array values)) :
    tryMutateResponse deps key setups "blob.GetAll" bodyJson =
      mapFrom (fun position value => decryptValue deps key (setups position) value) 0 values >>= fun blobs =>
        pure (bodyJson.set "result" (.array blobs)) := by
  simp only [tryMutateResponse,found,Json.asArray,decryptAll_eq]

theorem tryMutateResponse_settles (asked : requestMethod = "blob.Get" ∨ requestMethod = "blob.GetAll")
    (bounded : ∀ position, WithinKeystream deps (setups position)) :
    Settles (tryMutateResponse deps key setups requestMethod bodyJson) := by
  cases found : bodyJson.get "result" with
  | none =>
    rw [tryMutateResponse,found]
    exact settles_throw _
  | some result =>
    obtain rfl | rfl := asked
    · rw [tryMutateResponse_get found]
      apply (decryptValue_settles (bounded 0) result).bind
      intro mutated _
      exact settles_pure _
    · cases result with
      | array values =>
        rw [tryMutateResponse_getAll found]
        apply (mapFrom_settles fun entry _ => decryptValue_settles (bounded entry.2) entry.1).bind
        intro blobs _
        exact settles_pure _
      | _ =>
        rw [tryMutateResponse,found]
        exact settles_throw _

theorem tryMutateResponse_success {mutatedJson : Json}
    (asked : requestMethod = "blob.Get" ∨ requestMethod = "blob.GetAll")
    (rewritten : tryMutateResponse deps key setups requestMethod bodyJson = pure mutatedJson) :
    ∃ result mutated, bodyJson.get "result" = some result ∧ mutatedJson = bodyJson.set "result" mutated ∧
      OnBlobs (fun position => Decrypted deps key (setups position)) requestMethod result mutated := by
  cases found : bodyJson.get "result" with
  | none =>
    rw [tryMutateResponse,found] at rewritten
    exact absurd rewritten.symm (pure_ne_throw _ _)
  | some result =>
    obtain rfl | rfl := asked
    · rw [tryMutateResponse_get found,bind_eq_pure] at rewritten
      obtain ⟨mutated,decrypted,same⟩ := rewritten
      exact ⟨result,mutated,rfl,(pure_inj same).symm,.single _ _ rfl (decryptValue_eq_pure.mp decrypted)⟩
    · cases result with
      | array values =>
        rw [tryMutateResponse_getAll found,bind_eq_pure] at rewritten
        obtain ⟨blobs,looped,same⟩ := rewritten
        have each := (mapFrom_eq_pure.mp looped).imp fun _ _ decrypted => decryptValue_eq_pure.mp decrypted
        exact ⟨_,.array blobs,rfl,(pure_inj same).symm,.each _ _ rfl each⟩
      | _ =>
        rw [tryMutateResponse,found] at rewritten
        exact absurd rewritten.symm (pure_ne_throw _ _)

theorem outboundHandler_mutated (authorized : resp.parts.status ≠ 401) (collected : resp.body = .ok bodyBytes)
    (parsed : deps.fromSlice bodyBytes = .ok bodyJson) {mutatedJson : Json}
    (rewritten : tryMutateResponse deps config.encryptionKey setups requestMethod bodyJson = pure mutatedJson) :
    outboundHandler deps config setups resp requestMethod = pure {
      parts := { resp.parts with headers := withoutContentLength resp.parts.headers }
      body := deps.toVec mutatedJson } := by
  simp only [outboundHandler,collected,liftM_ok,pure_bind,if_neg authorized,parsed,rewritten]
  rfl

theorem outboundHandler_unchanged (authorized : resp.parts.status ≠ 401) (collected : resp.body = .ok bodyBytes)
    (parsed : deps.fromSlice bodyBytes = .ok bodyJson) {e : String}
    (failed : tryMutateResponse deps config.encryptionKey setups requestMethod bodyJson = throw e) :
    outboundHandler deps config setups resp requestMethod = pure ⟨resp.parts,bodyBytes⟩ := by
  simp only [outboundHandler,collected,liftM_ok,pure_bind,if_neg authorized,parsed,failed]
  rfl

end

theorem withoutContentLength_idempotent (headers : List (String × String)) :
    withoutContentLength (withoutContentLength headers) = withoutContentLength headers := by
  simp [withoutContentLength]

/-- A response to `blob.Get` or `blob.GetAll` goes back with its status and headers, and either
byte for byte or with only its blobs' data decrypted. -/
theorem response_rewriting_preserves (deps : Dependencies Proof Encoded Body) (config : Config)
    (setups : Nat → Except PdaRunnerError SP1ProofSetup) (resp : IncomingResponse Body) (requestMethod : String)
    (bodyBytes : Body) (bodyJson : Json) (asked : requestMethod = "blob.Get" ∨ requestMethod = "blob.GetAll")
    (authorized : resp.parts.status ≠ 401) (collected : resp.body = .ok bodyBytes)
    (parsed : deps.fromSlice bodyBytes = .ok bodyJson)
    (roundTrips : ∀ value ∈ resultBlobs requestMethod bodyJson, ∀ blob, deps.blobFromValue value = .ok blob →
      deps.blobToValue blob = value)
    (fieldwise : ∀ (blob : Blob) data name, name ≠ "data" →
      (deps.blobToValue { blob with data }).get name = (deps.blobToValue blob).get name)
    (bounded : ∀ position, WithinKeystream deps (setups position)) :
    ∃ response, outboundHandler deps config setups resp requestMethod = pure response ∧
      response.parts.status = resp.parts.status ∧
      withoutContentLength response.parts.headers = withoutContentLength resp.parts.headers ∧
      (response.body = bodyBytes ∨ ∃ result mutated, bodyJson.get "result" = some result ∧
        response.body = deps.toVec (bodyJson.set "result" mutated) ∧
        OnBlobs (fun position value blobValue =>
          Decrypted deps config.encryptionKey (setups position) value blobValue ∧
            ∀ name, name ≠ "data" → blobValue.get name = value.get name) requestMethod result mutated) := by
  have sameMembers : ∀ {setup value blobValue}, value ∈ resultBlobs requestMethod bodyJson →
      Decrypted deps config.encryptionKey setup value blobValue →
      ∀ name, name ≠ "data" → blobValue.get name = value.get name := by
    intro setup value blobValue listed decrypted name other
    obtain ⟨blob,_,_,data,read,_,_,_,rfl⟩ := decrypted
    rw [fieldwise blob data name other,roundTrips value listed blob read]
  have settles : Settles (tryMutateResponse deps config.encryptionKey setups requestMethod bodyJson) :=
    tryMutateResponse_settles asked bounded
  obtain ⟨mutatedJson,rewritten⟩ | ⟨e,failed⟩ := settles
  · refine ⟨_,outboundHandler_mutated authorized collected parsed rewritten,rfl,
      withoutContentLength_idempotent _,.inr ?_⟩
    obtain ⟨result,mutated,found,rfl,related⟩ := tryMutateResponse_success asked rewritten
    refine ⟨result,mutated,found,rfl,?_⟩
    cases related with
    | single _ _ get decrypted =>
      have listed : result ∈ resultBlobs requestMethod bodyJson := by simp [resultBlobs,found,get]
      exact .single _ _ get ⟨decrypted,sameMembers listed decrypted⟩
    | each values blobs getAll decrypted =>
      have listed : ∀ entry ∈ values.zipIdx, entry.1 ∈ resultBlobs requestMethod bodyJson := by
        intro entry member
        simpa [resultBlobs,found,getAll,Json.asArray] using List.fst_mem_of_mem_zipIdx member
      have both := (List.forall₂_and_left values.zipIdx blobs).mpr ⟨listed,decrypted⟩
      exact .each _ _ getAll (both.imp fun _ _ holds => ⟨holds.2,sameMembers holds.1 holds.2⟩)
  · exact ⟨_,outboundHandler_unchanged authorized collected parsed failed,rfl,rfl,.inl rfl⟩

namespace Tabulated

theorem blobToValue_fieldwise (blob : Blob) (data : Bytes) (name : String) (other : name ≠ "data") :
    (blobToValue { blob with data }).get name = (blobToValue blob).get name := by
  simp [blobToValue,Json.get,Json.member,List.find?_cons,Ne.symm other]

def answer (result : Json) : Json := .object [("id",.number (.posInt 1)),("jsonrpc",.string "2.0"),("result",result)]

def ok (bodyJson : Json) : IncomingResponse Json := ⟨⟨200,[("content-type","application/json")]⟩,.ok bodyJson⟩

def proofValue : Json := blobToValue (proofBlob zeroKey zeroNonce)

theorem proofValue_read : blobFromValue proofValue = .ok (proofBlob zeroKey zeroNonce) :=
  blobFromValue_unsigned _ _

theorem proofValue_decrypted : Decrypted checked zeroKey ready proofValue
    (blobToValue { proofBlob zeroKey zeroNonce with data := [1,2,3] }) :=
  ⟨_,plainProof zeroKey zeroNonce,_,[1,2,3],proofValue_read,⟨rfl,_,rfl,by decide +kernel⟩,fromBytes_commits
    (sha256 zeroKey.toList) (sha256 [1,2,3]) zeroNonce [119,186,227],by decide +kernel,rfl⟩

theorem plainBlob_stuck (mutated : Json) : ¬ Decrypted checked zeroKey ready plainBlob mutated := by
  intro decrypted
  obtain ⟨blob,proof,output,data,read,⟨deserialized,_⟩,parsed,_⟩ := decrypted
  have plain : blobFromValue plainBlob = .ok ⟨List.replicate 29 0,[1,2,3],0,[],none,none⟩ :=
    blobFromValue_unsigned _ _
  obtain rfl := Except.ok.inj (plain.symm.trans read)
  obtain rfl := Except.ok.inj deserialized
  cases parsed

end Tabulated

theorem response_rewriting_preserves_proof :
    let sent := Tabulated.answer Tabulated.proofValue
    ∃ response, outboundHandler Tabulated.checked Tabulated.localConfig (fun _ => Tabulated.ready) (Tabulated.ok sent)
        "blob.Get" = pure response ∧
      response.parts.status = 200 ∧
      withoutContentLength response.parts.headers = [("content-type","application/json")] ∧
      (response.body = sent ∨ ∃ result mutated, sent.get "result" = some result ∧
        response.body = sent.set "result" mutated ∧
        OnBlobs (fun _ value blobValue => Decrypted Tabulated.checked Tabulated.zeroKey Tabulated.ready value blobValue ∧
          ∀ name, name ≠ "data" → blobValue.get name = value.get name) "blob.Get" result mutated) := by
  refine response_rewriting_preserves Tabulated.checked Tabulated.localConfig (fun _ => Tabulated.ready) _ "blob.Get"
    _ _ (.inl rfl) (by decide) rfl rfl ?_ Tabulated.blobToValue_fieldwise fun _ =>
    (Tabulated.checked_guest _).withinKeystream
  intro value listed blob read
  obtain rfl := List.mem_singleton.mp listed
  rw [Except.ok.inj (read.symm.trans Tabulated.proofValue_read)]
  rfl

section
variable (deps)

/-- What a blob of a response becomes if it is the only one. -/
def decryptedAlone (key : Block KEY_LEN) (setup : Except PdaRunnerError SP1ProofSetup) (value : Json) : Json :=
  match (decryptValue deps key setup value).run with
  | some (.ok mutated) => mutated
  | _ => value

/-- The client is given at each position what the blob there becomes on its own. -/
def DecryptsIndependently (config : Config) (setups : Nat → Except PdaRunnerError SP1ProofSetup)
    (resp : IncomingResponse Body) (values : List Json) : Prop :=
  ∃ response delivered, outboundHandler deps config setups resp "blob.GetAll" = pure response ∧
    deps.fromSlice response.body = .ok delivered ∧
    delivered.get "result" = some (.array (values.zipIdx.map fun entry =>
      decryptedAlone deps config.encryptionKey (setups entry.2) entry.1))

end

theorem decryptedAlone_eq {value mutated : Json} (decrypted : Decrypted deps key setup value mutated) :
    decryptedAlone deps key setup value = mutated := by
  rw [decryptedAlone,decryptValue_eq_pure.mpr decrypted]
  rfl

theorem decryptedAlone_unchanged {value : Json} :
    decryptedAlone deps key setup value = value ↔ ∀ mutated, Decrypted deps key setup value mutated → mutated = value := by
  constructor
  · intro same mutated decrypted
    exact (decryptedAlone_eq decrypted).symm.trans same
  · intro unchanged
    unfold decryptedAlone
    split
    next mutated same => exact unchanged mutated (decryptValue_eq_pure.mp same)
    next => rfl

theorem decryptedAlone_forall₂ {setups : Nat → Except PdaRunnerError SP1ProofSetup} {entries : List (Json × Nat)}
    {blobs : List Json}
    (each : List.Forall₂ (fun entry blob => Decrypted deps key (setups entry.2) entry.1 blob) entries blobs) :
    entries.map (fun entry => decryptedAlone deps key (setups entry.2) entry.1) = blobs := by
  induction each with
  | nil => rfl
  | cons decrypted _ ih => rw [List.map_cons,decryptedAlone_eq decrypted,ih]

theorem decryptedAlone_map {setups : Nat → Except PdaRunnerError SP1ProofSetup} {values : List Json} :
    values = values.zipIdx.map (fun entry => decryptedAlone deps key (setups entry.2) entry.1) ↔
      ∀ entry ∈ values.zipIdx, ∀ mutated, Decrypted deps key (setups entry.2) entry.1 mutated → mutated = entry.1 := by
  have own : values.zipIdx.map Prod.fst = values := List.zipIdx_map_fst 0 values
  have each := @List.map_inj_left _ _ values.zipIdx Prod.fst
    (fun entry => decryptedAlone deps key (setups entry.2) entry.1)
  rw [own] at each
  rw [each]
  apply forall₂_congr
  intro entry member
  rw [eq_comm,decryptedAlone_unchanged]

section
variable {config : Config} {setups : Nat → Except PdaRunnerError SP1ProofSetup} {resp : IncomingResponse Body}
  {bodyBytes : Body} {bodyJson : Json} {values : List Json}

theorem mapFrom_decryptValue :
    (∃ blobs, mapFrom (fun position value => decryptValue deps key (setups position) value) 0 values = pure blobs) ↔
      ∀ entry ∈ values.zipIdx, ∃ mutated, Decrypted deps key (setups entry.2) entry.1 mutated := by
  simp only [mapFrom_total,decryptValue_eq_pure]

theorem outboundHandler_getAll_stuck (authorized : resp.parts.status ≠ 401) (collected : resp.body = .ok bodyBytes)
    (parsed : deps.fromSlice bodyBytes = .ok bodyJson) (found : bodyJson.get "result" = some (.array values))
    (bounded : ∀ position, WithinKeystream deps (setups position))
    (stuck : ¬ ∀ entry ∈ values.zipIdx, ∃ mutated,
      Decrypted deps config.encryptionKey (setups entry.2) entry.1 mutated) :
    outboundHandler deps config setups resp "blob.GetAll" = pure ⟨resp.parts,bodyBytes⟩ := by
  have looped := @tryMutateResponse_getAll Proof Encoded Body deps config.encryptionKey setups bodyJson values found
  have settles : Settles (mapFrom (fun position value =>
      decryptValue deps config.encryptionKey (setups position) value) 0 values) :=
    mapFrom_settles fun entry _ => decryptValue_settles (bounded entry.2) entry.1
  obtain ⟨blobs,succeeded⟩ | ⟨e,failed⟩ := settles
  · exact absurd (mapFrom_decryptValue.mp ⟨blobs,succeeded⟩) stuck
  · rw [failed,throw_bind] at looped
    exact outboundHandler_unchanged authorized collected parsed looped

end

theorem decrypted_blobs {setups : Nat → Except PdaRunnerError SP1ProofSetup} {entries : List (Json × Nat)}
    {values : List Json}
    (each : List.Forall₂ (fun entry mutated => Decrypted deps key (setups entry.2) entry.1 mutated) entries values) :
    ∃ blobs : List Blob, values = blobs.map deps.blobToValue := by
  induction each with
  | nil => exact ⟨[],rfl⟩
  | cons decrypted _ ih =>
    obtain ⟨blob,_,_,data,_,_,_,_,rfl⟩ := decrypted
    obtain ⟨blobs,rfl⟩ := ih
    exact ⟨{ blob with data } :: blobs,rfl⟩

/-- Each blob of an array is decrypted on its own if and only if all of them decrypt, or no
blob that does would change. -/
theorem getAll_independent_iff (deps : Dependencies Proof Encoded Body) (config : Config)
    (setups : Nat → Except PdaRunnerError SP1ProofSetup) (resp : IncomingResponse Body) (bodyBytes : Body)
    (bodyJson : Json) (values : List Json) (authorized : resp.parts.status ≠ 401) (collected : resp.body = .ok bodyBytes)
    (parsed : deps.fromSlice bodyBytes = .ok bodyJson) (found : bodyJson.get "result" = some (.array values))
    (inverse : deps.ReadsPrinted) (bounded : ∀ position, WithinKeystream deps (setups position)) :
    DecryptsIndependently deps config setups resp values ↔
      (∀ entry ∈ values.zipIdx, ∃ mutated,
        Decrypted deps config.encryptionKey (setups entry.2) entry.1 mutated) ∨
      (∀ entry ∈ values.zipIdx, ∀ mutated,
        Decrypted deps config.encryptionKey (setups entry.2) entry.1 mutated → mutated = entry.1) := by
  by_cases each : ∀ entry ∈ values.zipIdx, ∃ mutated,
      Decrypted deps config.encryptionKey (setups entry.2) entry.1 mutated
  · obtain ⟨blobs,succeeded⟩ := mapFrom_decryptValue.mpr each
    have decrypted := (mapFrom_eq_pure.mp succeeded).imp fun _ _ same => decryptValue_eq_pure.mp same
    have rewritten := @tryMutateResponse_getAll Proof Encoded Body deps config.encryptionKey setups bodyJson values found
    rw [succeeded,pure_bind] at rewritten
    have delivers : DecryptsIndependently deps config setups resp values := by
      obtain ⟨plain,rfl⟩ := decrypted_blobs decrypted
      refine ⟨_,_,outboundHandler_mutated authorized collected parsed rewritten,inverse _ (.blobs _ _ plain parsed),?_⟩
      rw [decryptedAlone_forall₂ decrypted,Json.get_set _ _ _ _ found]
    exact iff_of_true delivers (.inl each)
  · have answered := outboundHandler_getAll_stuck authorized collected parsed found bounded each
    rw [or_iff_right each,← decryptedAlone_map]
    constructor
    · intro delivers
      obtain ⟨response,delivered,same,read,result⟩ := delivers
      obtain rfl := pure_inj (answered.symm.trans same)
      obtain rfl := Except.ok.inj (parsed.symm.trans read)
      exact Json.array.inj (Option.some.inj (found.symm.trans result))
    · intro unchanged
      exact ⟨_,bodyJson,answered,parsed,by rw [← unchanged,found]⟩

theorem getAll_independent_proofs :
    let values := [Tabulated.proofValue,Tabulated.proofValue]
    DecryptsIndependently Tabulated.checked Tabulated.localConfig (fun _ => Tabulated.ready)
        (Tabulated.ok (Tabulated.answer (.array values))) values ↔
      (∀ entry ∈ values.zipIdx, ∃ mutated,
        Decrypted Tabulated.checked Tabulated.zeroKey Tabulated.ready entry.1 mutated) ∨
      (∀ entry ∈ values.zipIdx, ∀ mutated,
        Decrypted Tabulated.checked Tabulated.zeroKey Tabulated.ready entry.1 mutated → mutated = entry.1) :=
  getAll_independent_iff Tabulated.checked Tabulated.localConfig (fun _ => Tabulated.ready) _ _ _ _ (by decide) rfl rfl
    rfl (fun _ _ => rfl) fun _ => (Tabulated.checked_guest _).withinKeystream

/-- A blob that decrypts on its own is handed on encrypted because of one beside it that is
no proof. -/
theorem foreign_blob_hides_others :
    let values := [Tabulated.proofValue,Tabulated.plainBlob]
    Decrypted Tabulated.checked Tabulated.zeroKey Tabulated.ready Tabulated.proofValue
        (Tabulated.blobToValue { Tabulated.proofBlob Tabulated.zeroKey Tabulated.zeroNonce with data := [1,2,3] }) ∧
      ¬ DecryptsIndependently Tabulated.checked Tabulated.localConfig (fun _ => Tabulated.ready)
        (Tabulated.ok (Tabulated.answer (.array values))) values := by
  refine ⟨Tabulated.proofValue_decrypted,?_⟩
  intro delivers
  obtain ⟨response,delivered,same,read,result⟩ := delivers
  have stuck : ¬ ∀ entry ∈ [Tabulated.proofValue,Tabulated.plainBlob].zipIdx, ∃ mutated,
      Decrypted Tabulated.checked Tabulated.zeroKey Tabulated.ready entry.1 mutated := by
    intro each
    obtain ⟨mutated,decrypted⟩ := each (Tabulated.plainBlob,1) (by simp)
    exact Tabulated.plainBlob_stuck mutated decrypted
  have answered : outboundHandler Tabulated.checked Tabulated.localConfig (fun _ => Tabulated.ready)
      (Tabulated.ok (Tabulated.answer (.array [Tabulated.proofValue,Tabulated.plainBlob]))) "blob.GetAll" = _ :=
    outboundHandler_getAll_stuck (by decide) rfl rfl rfl (fun _ => (Tabulated.checked_guest _).withinKeystream) stuck
  obtain rfl := pure_inj (answered.symm.trans same)
  obtain rfl := Except.ok.inj read
  have first := congrArg List.head? (Json.array.inj (Option.some.inj result))
  have alone := (Option.some.inj first).trans (decryptedAlone_eq Tabulated.proofValue_decrypted)
  have sameData := congrArg (fun value => (value.get "data").bind Json.asStr) alone
  exact absurd sameData (by decide +kernel)

end PdaProxy
