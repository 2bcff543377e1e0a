import PdaProxy.Semantics.Keystream

/-! The guest program, what it commits, and the host's parser of those commitments.
SHA-256 and the ChaCha20 keystream are parameters: the crates that compute them are not
part of the repository. -/
namespace PdaProxy
open PdaProxy.Semantics.Serialization PdaProxy.Semantics.Keystream

abbrev KEY_LEN : Nat := 32
abbrev HASH_LEN : Nat := 32
abbrev NONCE_LEN : Nat := 12
abbrev HEADER_LEN : Nat := HASH_LEN + NONCE_LEN + HASH_LEN

/-- The keystream of a key and nonce, and the number of bytes of it that may be applied. -/
structure ChaCha20 where
  keystream : Block KEY_LEN → Block NONCE_LEN → Nat → UInt8
  limit : Nat

/-- Encrypt or decrypt a buffer; past the end of the keystream the cipher panics. -/
def chacha (cipher : ChaCha20) (key : Block KEY_LEN) (nonce : Block NONCE_LEN) (buffer : Bytes) :
    Except String Bytes :=
  if buffer.length ≤ cipher.limit then .ok (combine (cipher.keystream key nonce) 0 buffer)
  else .error "StreamCipherError"

/-- The guest's `main` on its input stream: the concatenation of its commits, or the panic
that leaves it without a proof. -/
def guestMain (sha256 : Bytes → Block HASH_LEN) (cipher : ChaCha20) : List Bytes → Except String Bytes
  | key :: nonce :: buffer :: _ =>
    let keyHash := sha256 key
    if nonceSize : nonce.length = NONCE_LEN then
      let plaintextHash := sha256 buffer
      if keySize : key.length = KEY_LEN then
        match chacha cipher ⟨key,keySize⟩ ⟨nonce,nonceSize⟩ buffer with
        | .error panicked => .error panicked
        | .ok ciphertext => .ok (keyHash.toList ++ nonce ++ plaintextHash.toList ++ ciphertext)
      else .error "key=32B"
    else .error "nonce=12B"
  | _ => .error "read past the end of the input stream"

structure ZkvmOutput where
  privkeyHash : Block HASH_LEN
  nonce : Block NONCE_LEN
  plaintextHash : Block HASH_LEN
  ciphertext : Bytes

theorem header_sizes {data : Bytes} (long : ¬ data.length < HEADER_LEN) :
    ((data.take HEADER_LEN).take HASH_LEN).length = HASH_LEN ∧
    (((data.take HEADER_LEN).drop HASH_LEN).take NONCE_LEN).length = NONCE_LEN ∧
    ((data.take HEADER_LEN).drop (HASH_LEN + NONCE_LEN)).length = HASH_LEN := by
  simp only [HEADER_LEN,HASH_LEN,NONCE_LEN,List.length_take,List.length_drop] at *
  omega

def ZkvmOutput.fromBytes (data : Bytes) : Except String ZkvmOutput :=
  if short : data.length < HEADER_LEN then .error "Input too short for header"
  else
    let header := data.take HEADER_LEN
    .ok {
      privkeyHash := ⟨header.take HASH_LEN,(header_sizes short).1⟩
      nonce := ⟨(header.drop HASH_LEN).take NONCE_LEN,(header_sizes short).2.1⟩
      plaintextHash := ⟨header.drop (HASH_LEN + NONCE_LEN),(header_sizes short).2.2⟩
      ciphertext := data.drop HEADER_LEN }

section
variable {sha256 : Bytes → Block HASH_LEN} {cipher : ChaCha20}

theorem chacha_success {key : Block KEY_LEN} {nonce : Block NONCE_LEN} {buffer output : Bytes}
    (applied : chacha cipher key nonce buffer = .ok output) :
    buffer.length ≤ cipher.limit ∧ output = combine (cipher.keystream key nonce) 0 buffer := by
  unfold chacha at applied
  split at applied
  next bound => exact ⟨bound,(Except.ok.inj applied).symm⟩
  next => contradiction

theorem chacha_involutive {key : Block KEY_LEN} {nonce : Block NONCE_LEN} {buffer output : Bytes}
    (applied : chacha cipher key nonce buffer = .ok output) : chacha cipher key nonce output = .ok buffer := by
  obtain ⟨bound,rfl⟩ := chacha_success applied
  rw [chacha,combine_length,if_pos bound,combine_involutive]

theorem guestMain_eq (key : Block KEY_LEN) (nonce : Block NONCE_LEN) (buffer : Bytes) :
    guestMain sha256 cipher [key.toList,nonce.toList,buffer] =
      (chacha cipher key nonce buffer).map fun ciphertext =>
        (sha256 key.toList).toList ++ nonce.toList ++ (sha256 buffer).toList ++ ciphertext := by
  have sameKey : (⟨key.toList,key.toList_length⟩ : Block KEY_LEN) = key := rfl
  have sameNonce : (⟨nonce.toList,nonce.toList_length⟩ : Block NONCE_LEN) = nonce := rfl
  unfold guestMain
  dsimp only
  rw [dif_pos nonce.toList_length,dif_pos key.toList_length,sameKey,sameNonce]
  cases chacha cipher key nonce buffer with
  | error panicked => rfl
  | ok ciphertext => rfl

theorem guestMain_success {key : Block KEY_LEN} {nonce : Block NONCE_LEN} {buffer commits : Bytes}
    (ran : guestMain sha256 cipher [key.toList,nonce.toList,buffer] = .ok commits) :
    ∃ ciphertext, chacha cipher key nonce buffer = .ok ciphertext ∧
      commits = (sha256 key.toList).toList ++ nonce.toList ++ (sha256 buffer).toList ++ ciphertext := by
  rw [guestMain_eq] at ran
  cases applied : chacha cipher key nonce buffer with
  | error panicked =>
    rw [applied] at ran
    cases ran
  | ok ciphertext =>
    rw [applied] at ran
    exact ⟨ciphertext,rfl,(Except.ok.inj ran).symm⟩

theorem fromBytes_commits (privkeyHash plaintextHash : Block HASH_LEN) (nonce : Block NONCE_LEN)
    (ciphertext : Bytes) :
    ZkvmOutput.fromBytes (privkeyHash.toList ++ nonce.toList ++ plaintextHash.toList ++ ciphertext) =
      .ok ⟨privkeyHash,nonce,plaintextHash,ciphertext⟩ := by
  obtain ⟨k,keySize⟩ := privkeyHash
  obtain ⟨p,plainSize⟩ := plaintextHash
  obtain ⟨n,nonceSize⟩ := nonce
  simp only [List.Vector.toList_mk]
  have headerSize : (k ++ n ++ p).length = HEADER_LEN := by
    simp only [List.length_append,keySize,nonceSize,plainSize]
  have long : ¬ (k ++ n ++ p ++ ciphertext).length < HEADER_LEN := by
    rw [List.length_append,headerSize]
    omega
  have header : (k ++ n ++ p ++ ciphertext).take HEADER_LEN = k ++ n ++ p := List.take_left' headerSize
  have body : (k ++ n ++ p ++ ciphertext).drop HEADER_LEN = ciphertext := List.drop_left' headerSize
  have first : (k ++ n ++ p).take HASH_LEN = k := by
    rw [List.append_assoc]
    exact List.take_left' keySize
  have rest : (k ++ n ++ p).drop HASH_LEN = n ++ p := by
    rw [List.append_assoc]
    exact List.drop_left' keySize
  have second : ((k ++ n ++ p).drop HASH_LEN).take NONCE_LEN = n := by
    rw [rest]
    exact List.take_left' nonceSize
  have third : (k ++ n ++ p).drop (HASH_LEN + NONCE_LEN) = p := by
    rw [← List.drop_drop,rest]
    exact List.drop_left' nonceSize
  rw [ZkvmOutput.fromBytes,dif_neg long]
  simp only [header,body,first,second,third]

theorem fromBytes_success {data : Bytes} {output : ZkvmOutput} (parsed : ZkvmOutput.fromBytes data = .ok output) :
    data = output.privkeyHash.toList ++ output.nonce.toList ++ output.plaintextHash.toList ++ output.ciphertext := by
  unfold ZkvmOutput.fromBytes at parsed
  split at parsed
  next => cases parsed
  next long =>
    cases parsed
    have rest : (data.take HEADER_LEN).drop HASH_LEN =
        ((data.take HEADER_LEN).drop HASH_LEN).take NONCE_LEN ++ (data.take HEADER_LEN).drop (HASH_LEN + NONCE_LEN) := by
      rw [← List.drop_drop,List.take_append_drop]
    simp only [List.Vector.toList_mk]
    rw [List.append_assoc (List.take HASH_LEN _),← rest,List.take_append_drop,List.take_append_drop]

/-- The guest run on what an output decrypts to commits to the same nonce and ciphertext. -/
theorem guestMain_decrypted {key : Block KEY_LEN} {output : ZkvmOutput} {plaintext : Bytes}
    (decrypted : chacha cipher key output.nonce output.ciphertext = .ok plaintext) :
    guestMain sha256 cipher [key.toList,output.nonce.toList,plaintext] =
      .ok ((sha256 key.toList).toList ++ output.nonce.toList ++ (sha256 plaintext).toList ++ output.ciphertext) := by
  rw [guestMain_eq,chacha_involutive decrypted]
  rfl

end

end PdaProxy
