import PdaProxy.Json
import PdaProxy.Job
import PdaProxy.Zkvm

/-! What the service takes from other crates: hashing and the cipher, bincode and
serde_json, the SP1 SDK and celestia_types. The laws are those crates' documented
behaviour; the serializers carry theirs as fields of `Codec` and `VecFormat`. -/
namespace PdaProxy
open PdaProxy.Semantics.Serialization

structure SP1ProofSetup where
  pk : Bytes
  vk : Bytes
deriving DecidableEq

structure Blob where
  nmtNamespace : Bytes
  data : Bytes
  shareVersion : UInt8
  commitment : Bytes
  index : Option UInt64
  signer : Option Bytes
deriving DecidableEq

/-- `Encoded` is what bincode makes of a job status, `Body` a buffered HTTP body, which
`fromSlice` parses and `toVec` prints. -/
structure Dependencies (Proof Encoded Body : Type) where
  sha256 : Bytes → Block HASH_LEN
  cipher : ChaCha20
  bytesFormat : VecFormat
  statusCodec : Codec (JobStatus Proof) Encoded
  proofCodec : Codec Proof Bytes
  fromSlice : Body → Except String Json
  toVec : Json → Body
  textBody : String → Body
  publicValues : Proof → Bytes
  setup : Bytes → SP1ProofSetup
  verify : Proof → Bytes → Except String Unit
  displayNetworkError : SP1NetworkError → String
  isStrategyName : String → Bool
  blobToValue : Blob → Json
  blobFromValue : Json → Except String Blob
  expectedSequence : Json → String
  blobNew : Bytes → Bytes → Except String Blob
  blobNew_fields : ∀ {ns data blob}, blobNew ns data = .ok blob → blob.nmtNamespace = ns ∧ blob.data = data
  blob_round_trip : ∀ {ns data blob}, blobNew ns data = .ok blob → blobFromValue (blobToValue blob) = .ok blob

variable {Proof Encoded Body : Type} (deps : Dependencies Proof Encoded Body)

namespace Dependencies

/-- Deserializing `Vec<Blob>` from a JSON value stops at the first element that is no blob. -/
def blobsFromValue : Json → Except String (List Blob)
  | .array items => items.mapM deps.blobFromValue
  | other => .error (deps.expectedSequence other)

def blobsToValue (blobs : List Blob) : Json := .array (blobs.map deps.blobToValue)

/-- bincode of an anchor: a structure whose one field is a byte vector. -/
def serializeAnchor (anchor : Anchor) : Bytes := deps.bytesFormat.write anchor.data

/-- bincode reads the fields of a job in order and ignores bytes after the last. -/
def deserializeJob (input : Bytes) : Except String Job :=
  match deps.bytesFormat.read input with
  | .error e => .error e
  | .ok (anchor,rest) =>
    match deps.bytesFormat.read rest with
    | .error e => .error e
    | .ok (data,_) => .ok ⟨⟨anchor⟩,⟨data⟩⟩

def jobOf (data : Bytes) : Job := ⟨⟨(deps.sha256 data).toList⟩,⟨data⟩⟩

def jobKey (job : Job) : Bytes := deps.serializeAnchor job.anchor

end Dependencies

variable {deps}

theorem sha256_bound (data : Bytes) : (deps.sha256 data).toList.length < 2^64 := by
  rw [List.Vector.toList_length]
  decide

theorem jobKey_injective {first second : Bytes}
    (same : deps.jobKey (deps.jobOf first) = deps.jobKey (deps.jobOf second)) :
    deps.sha256 first = deps.sha256 second :=
  Subtype.ext (deps.bytesFormat.write_injective (sha256_bound first) (sha256_bound second) same)

theorem blobsFromValue_blobsToValue (blobs : List Blob)
    (built : ∀ blob ∈ blobs, ∃ ns data, deps.blobNew ns data = .ok blob) :
    deps.blobsFromValue (deps.blobsToValue blobs) = .ok blobs := by
  change (blobs.map deps.blobToValue).mapM deps.blobFromValue = _
  induction blobs with
  | nil => rfl
  | cons blob rest ih =>
    obtain ⟨ns,data,made⟩ := built blob (by simp)
    have later := ih (fun other member => built other (by simp [member]))
    simp only [List.map_cons,List.mapM_cons,deps.blob_round_trip made,later]
    rfl

/-! Dependencies that can be evaluated. Statuses and bodies are kept as they are, a proof
is its public values, blobs have celestia_types' JSON form without their commitments, and
SHA-256 and the ChaCha20 keystream are tabulated for the inputs that examples use. -/
namespace Tabulated

def zeroKey : Block KEY_LEN := ⟨List.replicate 32 0,rfl⟩

def oneKey : Block KEY_LEN := ⟨List.replicate 32 1,rfl⟩

def zeroNonce : Block NONCE_LEN := ⟨List.replicate 12 0,rfl⟩

def oneNonce : Block NONCE_LEN := ⟨List.replicate 12 1,rfl⟩

def sha256 (data : Bytes) : Block HASH_LEN :=
  if data = [1,2,3] then
    ⟨[3,144,88,198,242,192,203,73,44,83,59,10,77,20,239,119,204,15,120,171,204,206,213,40,125,132,161,162,1,28,
      251,129],rfl⟩
  else if data = zeroKey.toList then
    ⟨[102,104,122,173,248,98,189,119,108,143,193,139,142,159,142,32,8,151,20,133,110,226,51,179,144,42,89,29,13,
      95,41,37],rfl⟩
  else if data = oneKey.toList then
    ⟨[114,205,110,132,34,196,7,251,109,9,134,144,241,19,11,125,237,126,194,247,245,225,211,11,217,213,33,240,21,
      54,55,147],rfl⟩
  else ⟨List.replicate 32 0,rfl⟩

def keystream (key : Block KEY_LEN) (nonce : Block NONCE_LEN) (position : Nat) : UInt8 :=
  let bytes : Bytes :=
    if key = zeroKey then if nonce = zeroNonce then [118,184,224] else [5,170,7]
    else if nonce = zeroNonce then [2,63,55] else [27,127,71]
  bytes[position]?.getD 0

def alphabet : List Char := "ABCDEFGHIJKLMNOPQRSTUVWXYZabcdefghijklmnopqrstuvwxyz0123456789+/".toList

def digit (n : Nat) : Char := alphabet[n % 64]?.getD 'A'

def encode : Bytes → List Char
  | [] => []
  | [a] => [digit (a.toNat / 4),digit (a.toNat * 16),'=','=']
  | [a,b] => [digit (a.toNat / 4),digit (a.toNat * 16 + b.toNat / 16),digit (b.toNat * 4),'=']
  | a :: b :: c :: rest =>
    [digit (a.toNat / 4),digit (a.toNat % 4 * 16 + b.toNat / 16),digit (b.toNat % 16 * 4 + c.toNat / 64),
      digit c.toNat] ++ encode rest

def decode : List Char → Bytes
  | a :: b :: c :: d :: rest =>
    let n := ((alphabet.idxOf a * 64 + alphabet.idxOf b) * 64 + alphabet.idxOf c % 64) * 64 + alphabet.idxOf d % 64
    let bytes := [UInt8.ofNat (n / 65536),UInt8.ofNat (n / 256),UInt8.ofNat n]
    bytes.take (if c = '=' then 1 else if d = '=' then 2 else 3) ++ decode rest
  | _ => []

theorem alphabet_index : ∀ n < 64, alphabet.idxOf (digit n) = n ∧ digit n ≠ '=' := by decide +kernel

theorem digit_index (n : Nat) : alphabet.idxOf (digit n) = n % 64 ∧ digit n ≠ '=' := by
  have reduced : digit n = digit (n % 64) := by rw [digit,digit,Nat.mod_mod]
  rw [reduced]
  exact alphabet_index _ (Nat.mod_lt n (by decide))

theorem padding_index : alphabet.idxOf '=' = 64 := by decide +kernel

/-- The three bytes of a group are those of the number its four digits spell. -/
theorem group_bytes (a b c : UInt8) :
    let n := a.toNat * 65536 + b.toNat * 256 + c.toNat
    [UInt8.ofNat (n / 65536),UInt8.ofNat (n / 256),UInt8.ofNat n] = [a,b,c] := by
  intro n
  have first : n / 65536 = a.toNat := by have := b.toNat_lt; have := c.toNat_lt; omega
  have second : n / 256 % 256 = b.toNat := by have := b.toNat_lt; have := c.toNat_lt; omega
  have third : n % 256 = c.toNat := by have := c.toNat_lt; omega
  have ofNat_mod (m : Nat) : UInt8.ofNat m = UInt8.ofNat (m % 256) := by
    apply UInt8.toNat_inj.mp
    simp
  rw [first,ofNat_mod (n / 256),second,ofNat_mod n,third]
  simp

theorem decode_encode (data : Bytes) : decode (encode data) = data := by
  induction data using encode.induct with
  | case1 => rfl
  | case2 a =>
    have number : ((a.toNat / 4 % 64 * 64 + a.toNat * 16 % 64) * 64 + 64 % 64) * 64 + 64 % 64 =
        a.toNat * 65536 + (0 : UInt8).toNat * 256 + (0 : UInt8).toNat := by
      have := a.toNat_lt
      have : (0 : UInt8).toNat = 0 := rfl
      omega
    simp only [encode,decode,(digit_index _).1,padding_index,number,group_bytes]
    rfl
  | case3 a b =>
    have number : ((a.toNat / 4 % 64 * 64 + (a.toNat * 16 + b.toNat / 16) % 64) * 64 + b.toNat * 4 % 64 % 64) * 64 + 64 % 64 =
        a.toNat * 65536 + b.toNat * 256 + (0 : UInt8).toNat := by
      have := a.toNat_lt
      have := b.toNat_lt
      have : (0 : UInt8).toNat = 0 := rfl
      omega
    simp only [encode,decode,(digit_index _).1,padding_index,number,group_bytes,if_neg (digit_index _).2]
    rfl
  | case4 a b c rest ih =>
    have number : ((a.toNat / 4 % 64 * 64 + (a.toNat % 4 * 16 + b.toNat / 16) % 64) * 64 +
        (b.toNat % 16 * 4 + c.toNat / 64) % 64 % 64) * 64 + c.toNat % 64 % 64 =
        a.toNat * 65536 + b.toNat * 256 + c.toNat := by
      have := a.toNat_lt
      have := b.toNat_lt
      have := c.toNat_lt
      omega
    simp only [encode,List.cons_append,List.nil_append,decode,(digit_index _).1,number,group_bytes,if_neg (digit_index _).2,ih]
    rfl

def blobToValue (blob : Blob) : Json :=
  .object <| [("namespace",.string (String.ofList (encode blob.nmtNamespace))),
    ("data",.string (String.ofList (encode blob.data))),
    ("share_version",.number (.posInt blob.shareVersion.toUInt64)),
    ("commitment",.string (String.ofList (encode blob.commitment))),
    ("index",match blob.index with | none => .number (.negInt (-1)) | some index => .number (.posInt index))] ++
    (blob.signer.map fun signer => ("signer",.string (String.ofList (encode signer)))).toList

def blobFromValue (value : Json) : Except String Blob :=
  match value.get "namespace",value.get "data",value.get "share_version",value.get "commitment",
    value.get "index" with
  | some (.string ns),some (.string data),some (.number (.posInt shareVersion)),some (.string commitment),
    some (.number index) => .ok {
      nmtNamespace := decode ns.toList
      data := decode data.toList
      shareVersion := shareVersion.toUInt8
      commitment := decode commitment.toList
      index := match index with | .posInt n => some n | _ => none
      signer := (value.get "signer").bind Json.asStr |>.map fun signer => decode signer.toList }
  | _,_,_,_,_ => .error "invalid blob"

/-- A blob is only made where its JSON form can be read back. -/
def blobNew (ns data : Bytes) : Except String Blob :=
  let blob : Blob := ⟨ns,data,0,[],none,none⟩
  match blobFromValue (blobToValue blob) with
  | .ok same => if same = blob then .ok blob else .error "invalid blob"
  | .error e => .error e

theorem blobFromValue_unsigned (ns data : Bytes) :
    blobFromValue (blobToValue ⟨ns,data,0,[],none,none⟩) = .ok ⟨ns,data,0,[],none,none⟩ := by
  have read : blobFromValue (blobToValue ⟨ns,data,0,[],none,none⟩) = .ok {
      nmtNamespace := decode (String.ofList (encode ns)).toList
      data := decode (String.ofList (encode data)).toList
      shareVersion := (0 : UInt8).toUInt64.toUInt8
      commitment := decode (String.ofList (encode [])).toList
      index := none
      signer := none } := rfl
  simp only [String.toList_ofList,decode_encode] at read
  exact read

theorem blobNew_eq (ns data : Bytes) : blobNew ns data = .ok ⟨ns,data,0,[],none,none⟩ := by
  simp only [blobNew,blobFromValue_unsigned,if_true]

theorem blobNew_success {ns data : Bytes} {blob : Blob} (made : blobNew ns data = .ok blob) :
    blob = ⟨ns,data,0,[],none,none⟩ ∧ blobFromValue (blobToValue blob) = .ok blob := by
  rw [blobNew_eq] at made
  cases made
  exact ⟨rfl,blobFromValue_unsigned ns data⟩

def displayNetworkError : SP1NetworkError → String
  | .simulationFailed => "Program simulation failed"
  | .requestUnexecutable id => "Proof request 0x" ++ bytesToHex id ++ " is unexecutable"
  | .requestUnfulfillable id => "Proof request 0x" ++ bytesToHex id ++ " is unfulfillable"
  | .requestTimedOut id => "Proof request 0x" ++ bytesToHex id ++ " timed out"
  | .rpcError _ => "RPC error"
  | .other error => "Other error: " ++ error

def dependencies : Dependencies Bytes (JobStatus Bytes) Json where
  sha256 := sha256
  cipher := ⟨keystream,(2^32 - 1) * 64⟩
  bytesFormat := .fixint
  statusCodec := .plain _
  proofCodec := .plain _
  fromSlice := .ok
  toVec := id
  textBody := .string
  publicValues := id
  setup elf := ⟨elf,elf⟩
  verify _ _ := .ok ()
  displayNetworkError := displayNetworkError
  isStrategyName name := ["UNSPECIFIED_FULFILLMENT_STRATEGY","HOSTED","RESERVED","AUCTION"].contains name
  blobToValue := blobToValue
  blobFromValue := blobFromValue
  expectedSequence _ := "invalid type: expected a sequence"
  blobNew := blobNew
  blobNew_fields made := by simp [(blobNew_success made).1]
  blob_round_trip made := (blobNew_success made).2

def withBlobNew (deps : Dependencies Proof Encoded Body) (blobNew : Bytes → Bytes → Except String Blob)
    (same : deps.blobNew = blobNew) : Dependencies Proof Encoded Body :=
  { deps with
    blobNew := blobNew
    blobNew_fields := same ▸ deps.blobNew_fields
    blob_round_trip := same ▸ deps.blob_round_trip }

theorem withBlobNew_eq {blobNew : Bytes → Bytes → Except String Blob} (same : deps.blobNew = blobNew) :
    withBlobNew deps blobNew same = deps := by
  subst same
  rfl

/-- The same dependencies, where the constructor of blobs takes no time: runs are evaluated
with these. -/
def quick : Dependencies Bytes (JobStatus Bytes) Json :=
  withBlobNew dependencies (fun ns data => .ok ⟨ns,data,0,[],none,none⟩) (funext fun ns => funext (blobNew_eq ns))

theorem dependencies_eq : dependencies = quick := (withBlobNew_eq _).symm

def call (method : String) (blobs : List Json) : Json :=
  .object [("id",.number (.posInt 1)),("jsonrpc",.string "2.0"),("method",.string method),
    ("params",.array [.array blobs,.object []])]

def plainBlob : Json := blobToValue ⟨List.replicate 29 0,[1,2,3],0,[],none,none⟩

example : blobFromValue plainBlob = .ok ⟨List.replicate 29 0,[1,2,3],0,[],none,none⟩ := by decide +kernel

end Tabulated

end PdaProxy
