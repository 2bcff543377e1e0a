import PdaProxy.Runner

/-! The two HTTP handlers. `inbound_handler` waits for `get_verifiable_encryption` once
for each blob of a submission: it is cut at these calls, and what it holds across one is
a `Submission`. -/
namespace PdaProxy
open PdaProxy.Semantics.Serialization

structure Parts where
  method : String
  pathAndQuery : String
  headers : List (String × String)
deriving DecidableEq

structure IncomingRequest (Body : Type) where
  parts : Parts
  body : Except String Body

structure Request (Body : Type) where
  parts : Parts
  body : Body

structure ResponseParts where
  status : Nat
  headers : List (String × String)
deriving DecidableEq

structure IncomingResponse (Body : Type) where
  parts : ResponseParts
  body : Except String Body

structure Response (Body : Type) where
  parts : ResponseParts
  body : Body

/-- What `inbound_handler` holds while it waits on the current blob: the blobs before it
are encrypted, the ones after it are to come. -/
structure Submission (Body : Type) where
  origin : IncomingRequest Body
  bodyJson : Json
  encryptedBlobs : List Blob
  blob : Blob
  rest : List Blob

abbrev InboundResult (Body : Type) := Except String (Option (Request Body))

inductive Inbound (Body : Type)
  | done (result : InboundResult Body)
  | encrypt (submission : Submission Body)

variable {Proof Encoded Body : Type} (deps : Dependencies Proof Encoded Body)

def withoutContentLength (headers : List (String × String)) : List (String × String) :=
  headers.filter (fun header => header.1 != "content-length")

/-- The end of `inbound_handler`: the JSON body is printed and goes out under the parts
that came in. -/
def forward (req : IncomingRequest Body) (bodyJson : Json) : Request Body where
  parts := { req.parts with headers := withoutContentLength req.parts.headers }
  body := deps.toVec bodyJson

def methodOf (bodyJson : Json) : Option String := (bodyJson.get "method").bind Json.asStr

def overwriteBlobs (bodyJson : Json) (blobsValue : Json) : Json :=
  match bodyJson.get "params" with
  | some (.array (_ :: others)) => bodyJson.set "params" (.array (blobsValue :: others))
  | _ => bodyJson

def submitBlobs (origin : IncomingRequest Body) (bodyJson : Json) (encryptedBlobs : List Blob) :
    List Blob → Inbound Body
  | [] => .done (.ok (some (forward deps origin
      (overwriteBlobs bodyJson (deps.blobsToValue encryptedBlobs)))))
  | blob :: rest => .encrypt ⟨origin,bodyJson,encryptedBlobs,blob,rest⟩

def interceptSubmit (req : IncomingRequest Body) (bodyJson : Json) : Inbound Body :=
  match bodyJson.get "params" with
  | none => .done (.ok (some (forward deps req bodyJson)))
  | some paramsRaw =>
    match paramsRaw.asArray with
    | none => .done (.error "Expected 'params' to be a JSON array")
    | some [] => .done (.ok (some (forward deps req bodyJson)))
    | some (blobsValue :: _) =>
      match deps.blobsFromValue blobsValue with
      | .error e => .done (.error e)
      | .ok blobs => submitBlobs deps req bodyJson [] blobs

def inboundHandler (req : IncomingRequest Body) : Inbound Body :=
  match req.body with
  | .error e => .done (.error e)
  | .ok bodyBytes =>
    match deps.fromSlice bodyBytes with
    | .error e => .done (.error e)
    | .ok bodyJson =>
      match methodOf bodyJson with
      | some "blob.Submit" => interceptSubmit deps req bodyJson
      | _ => .done (.ok (some (forward deps req bodyJson)))

def requestMethod (bodyJson : Json) : String := (methodOf bodyJson).getD ""

namespace Submission

def job (submission : Submission Body) : Job := deps.jobOf submission.blob.data

/-- `inbound_handler` from the answer to one of its calls to the next one, or to its end. -/
def resume (submission : Submission Body) : CallResult Proof → Inbound Body
  | .error e => .done (.error e.display)
  | .ok none => .done (.ok none)
  | .ok (some proofWithValues) =>
    match deps.blobNew submission.blob.nmtNamespace (deps.proofCodec.serialize proofWithValues) with
    | .error e => .done (.error e)
    | .ok encryptedBlob => submitBlobs deps submission.origin submission.bodyJson
        (submission.encryptedBlobs ++ [encryptedBlob]) submission.rest

end Submission

/-- `setup` is what `get_proof_setup_local` returned to this call. -/
def extractVerifiedProofOutput (setup : Except PdaRunnerError SP1ProofSetup) (proof : Proof) :
    Except String ZkvmOutput :=
  match setup with
  | .error e => .error e.display
  | .ok proofSetup =>
    match deps.verify proof proofSetup.vk with
    | .error e => .error e
    | .ok () => ZkvmOutput.fromBytes (deps.publicValues proof)

/-- What can fail with an error or panic, in which case there is no result at all. -/
abbrev Fallible (A : Type) := ExceptT String Option A

@[simp] theorem liftM_ok {A : Type} (a : A) : (liftM (.ok a : Except String A) : Fallible A) = pure a := rfl

def verifyDecryptBlob (key : Block KEY_LEN) (setup : Except PdaRunnerError SP1ProofSetup) (blob : Blob) :
    Fallible Blob := do
  let proof ← deps.proofCodec.deserialize blob.data
  let output ← extractVerifiedProofOutput deps setup proof
  match chacha deps.cipher key output.nonce output.ciphertext with
  | .error _ => ExceptT.mk none
  | .ok buffer => return { blob with data := buffer }

/-- The loop over the elements of a `blob.GetAll` result; the setup is asked for anew at
each of them. -/
def decryptAll (key : Block KEY_LEN) (setups : Nat → Except PdaRunnerError SP1ProofSetup) (position : Nat) :
    List Json → Fallible (List Json)
  | [] => return []
  | blobVal :: others => do
    let blob ← deps.blobFromValue blobVal
    let plaintextOnlyBlob ← verifyDecryptBlob deps key (setups position) blob
    let following ← decryptAll key setups (position + 1) others
    return deps.blobToValue plaintextOnlyBlob :: following

/-- The async block of `outbound_handler` that tries to rewrite the parsed body. -/
def tryMutateResponse (key : Block KEY_LEN) (setups : Nat → Except PdaRunnerError SP1ProofSetup)
    (requestMethod : String) (bodyJson : Json) : Fallible Json :=
  match bodyJson.get "result" with
  | none => throw "Missing 'result' field"
  | some resultRaw =>
    match requestMethod with
    | "blob.Get" => do
      let blob ← deps.blobFromValue resultRaw
      let plaintextOnlyBlob ← verifyDecryptBlob deps key (setups 0) blob
      return bodyJson.set "result" (deps.blobToValue plaintextOnlyBlob)
    | "blob.GetAll" =>
      match resultRaw.asArray with
      | none => throw "Expected 'result' to be an array"
      | some originalArray => do
        let plaintextBlobs ← decryptAll deps key setups 0 originalArray
        return bodyJson.set "result" (.array plaintextBlobs)
    | _ => return bodyJson

def badAuthResponse : Response Body where
  parts := ⟨401,[]⟩
  body := deps.textBody "\x7b \"id\": 1, \"jsonrpc\": \"2.0\", \"error\": \x7b \"message\": \"Missing or malformed Authorization header. Expected format: Bearer <token>\" \x7d \x7d"

def outboundHandler (config : Config) (setups : Nat → Except PdaRunnerError SP1ProofSetup)
    (resp : IncomingResponse Body) (requestMethod : String) : Fallible (Response Body) := do
  let bodyBytes ← resp.body
  if resp.parts.status = 401 then return badAuthResponse deps
  let bodyJson ← deps.fromSlice bodyBytes
  match (tryMutateResponse deps config.encryptionKey setups requestMethod bodyJson).run with
  | none => ExceptT.mk none
  | some (.error _) => return ⟨resp.parts,bodyBytes⟩
  | some (.ok mutated) => return {
      parts := { resp.parts with headers := withoutContentLength resp.parts.headers }
      body := deps.toVec mutated }

def internalErrorJson (error : String) : Json :=
  .object [("error",.object [("message",.string ("[pda-proxy] internal error: " ++ error))]),
    ("id",.number (.posInt 1)),("jsonrpc",.string "2.0")]

/-- The JSON values that are printed: a body that was parsed, as it is or with the blobs of a
submission or the result of a response overwritten, and the proxy's own errors. -/
inductive Dependencies.Printed : Json → Prop
  | parsed (body bodyJson) (read : deps.fromSlice body = .ok bodyJson) : Printed bodyJson
  | submission (body bodyJson blobs) (read : deps.fromSlice body = .ok bodyJson) :
      Printed (overwriteBlobs bodyJson (deps.blobsToValue blobs))
  | blob (body bodyJson blob) (read : deps.fromSlice body = .ok bodyJson) :
      Printed (bodyJson.set "result" (deps.blobToValue blob))
  | blobs (body bodyJson blobs) (read : deps.fromSlice body = .ok bodyJson) :
      Printed (bodyJson.set "result" (deps.blobsToValue blobs))
  | internalError (error) : Printed (internalErrorJson error)

/-- What is printed can be parsed again, and comes out the same. -/
def Dependencies.ReadsPrinted : Prop :=
  ∀ json, deps.Printed json → deps.fromSlice (deps.toVec json) = .ok json

end PdaProxy
