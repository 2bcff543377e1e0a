import PdaProxy.Dependencies
import PdaProxy.Semantics.Slices

/-! The byte format between the guest and the host, call by call: the guest program as
the sequence of its reads and commits, and the host's parser as the slices it takes. Both
agree with the definitions the rest of the development uses. -/
namespace PdaProxy
open PdaProxy.Semantics.Serialization PdaProxy.Semantics.Keystream PdaProxy.Semantics.Slices

/-- What a running guest has still to read and what it has committed. -/
structure GuestIo where
  input : List Bytes
  commits : List Bytes

abbrev Guest := StateT GuestIo (Except String)

def readVec : Guest Bytes := fun io =>
  match io.input with
  | vec :: rest => .ok (vec,{ io with input := rest })
  | [] => .error "read past the end of the input stream"

def commitSlice (slice : Bytes) : Guest Unit := fun io =>
  .ok ((),{ io with commits := io.commits ++ [slice] })

def expect {A : Type} (message : String) : Option A → Except String A
  | some value => .ok value
  | none => .error message

def orPanic {A : Type} (result : Except String A) : Guest A := fun io =>
  result.map fun value => (value,io)

/-- The guest's `main`. -/
def guestProgram (sha256 : Bytes → Block HASH_LEN) (cipher : ChaCha20) : Guest Unit := do
  let key ← readVec
  let nonce ← readVec
  let buffer ← readVec
  let keyHash := sha256 key
  commitSlice keyHash.toList
  let nonce : Block NONCE_LEN ← orPanic (expect "nonce=12B" (tryInto NONCE_LEN nonce))
  commitSlice nonce.toList
  let plaintextHash := sha256 buffer
  commitSlice plaintextHash.toList
  let key : Block KEY_LEN ← orPanic (expect "key=32B" (tryInto KEY_LEN key))
  let buffer ← orPanic (chacha cipher key nonce buffer)
  commitSlice buffer

/-- The commits of a guest that runs to completion, in order. -/
def guestCommits (sha256 : Bytes → Block HASH_LEN) (cipher : ChaCha20) (input : List Bytes) :
    Except String (List Bytes) :=
  (guestProgram sha256 cipher ⟨input,[]⟩).map fun finished => finished.2.commits

/-- `from_bytes` with the slices it takes; `none` is a panic. -/
def ZkvmOutput.slicedFromBytes (data : Bytes) : Option (Except String ZkvmOutput) :=
  if data.length < HEADER_LEN then some (.error "Input too short for header")
  else do
    let (header,ciphertext) ← splitAt data HEADER_LEN
    let privkeyHash ← copyFromSlice (List.Vector.replicate HASH_LEN 0) (← subslice header 0 HASH_LEN)
    let nonce ← copyFromSlice (List.Vector.replicate NONCE_LEN 0)
      (← subslice header HASH_LEN (HASH_LEN + NONCE_LEN))
    let plaintextHash ← copyFromSlice (List.Vector.replicate HASH_LEN 0)
      (← subslice header (HASH_LEN + NONCE_LEN) HEADER_LEN)
    return .ok { privkeyHash, nonce, plaintextHash, ciphertext }

/-- The checks of `cli --execute` on what the guest committed: the parsed nonce, the
decrypted ciphertext and the key hash are those of the input. -/
def executeChecks (sha256 : Bytes → Block HASH_LEN) (cipher : ChaCha20) (inputKey : Block KEY_LEN)
    (inputNonce : Block NONCE_LEN) (inputBytes outputBuffer : Bytes) : Except String Unit := do
  let parsed ← expect "slice out of range" (ZkvmOutput.slicedFromBytes outputBuffer)
  let output ← parsed.mapError fun _ => "Failed to parse header"
  if inputNonce ≠ output.nonce then throw "assertion failed: input_nonce"
  let outputPlaintext ← chacha cipher inputKey output.nonce output.ciphertext
  if outputPlaintext ≠ inputBytes then throw "assertion failed: output_plaintext"
  if (sha256 inputKey.toList).toList ≠ output.privkeyHash.toList then throw "assertion failed: input_key_hash"

section
variable {A B : Type}

theorem readVec_bind (vec : Bytes) (rest commits : List Bytes) (next : Bytes → Guest B) :
    (readVec >>= next) ⟨vec :: rest,commits⟩ = next vec ⟨rest,commits⟩ := rfl

theorem commitSlice_bind (slice : Bytes) (input commits : List Bytes) (next : Unit → Guest B) :
    (commitSlice slice >>= next) ⟨input,commits⟩ = next () ⟨input,commits ++ [slice]⟩ := rfl

theorem orPanic_ok_bind (value : A) (io : GuestIo) (next : A → Guest B) :
    (orPanic (.ok value) >>= next) io = next value io := rfl

theorem orPanic_error_bind (panicked : String) (io : GuestIo) (next : A → Guest B) :
    (orPanic (.error panicked) >>= next) io = .error panicked := rfl

end

section
variable {sha256 : Bytes → Block HASH_LEN} {cipher : ChaCha20}

theorem guestCommits_eq (key : Block KEY_LEN) (nonce : Block NONCE_LEN) (buffer : Bytes) (rest : List Bytes) :
    guestCommits sha256 cipher (key.toList :: nonce.toList :: buffer :: rest) =
      (chacha cipher key nonce buffer).map fun ciphertext =>
        [(sha256 key.toList).toList,nonce.toList,(sha256 buffer).toList,ciphertext] := by
  unfold guestCommits guestProgram
  simp only [readVec_bind,commitSlice_bind,tryInto_toList,expect,orPanic_ok_bind,List.cons_append,List.nil_append]
  cases chacha cipher key nonce buffer with
  | error panicked => rfl
  | ok ciphertext => rfl

theorem guestCommits_nonce {key nonce : Bytes} (other : nonce.length ≠ NONCE_LEN) (buffer : Bytes) (rest : List Bytes) :
    guestCommits sha256 cipher (key :: nonce :: buffer :: rest) = .error "nonce=12B" := by
  unfold guestCommits guestProgram
  simp only [readVec_bind,commitSlice_bind,tryInto_none other,expect,orPanic_error_bind]
  rfl

theorem guestCommits_key {key : Bytes} (other : key.length ≠ KEY_LEN) (nonce : Block NONCE_LEN) (buffer : Bytes)
    (rest : List Bytes) :
    guestCommits sha256 cipher (key :: nonce.toList :: buffer :: rest) = .error "key=32B" := by
  unfold guestCommits guestProgram
  simp only [readVec_bind,commitSlice_bind,tryInto_toList,tryInto_none other,expect,orPanic_ok_bind,orPanic_error_bind]
  rfl

/-- What the calls commit, one after the other, is what `guestMain` returns. -/
theorem guestCommits_flatten (input : List Bytes) :
    (guestCommits sha256 cipher input).map List.flatten = guestMain sha256 cipher input := by
  rcases input with _ | ⟨key,_ | ⟨nonce,_ | ⟨buffer,rest⟩⟩⟩
  · rfl
  · rfl
  · rfl
  · by_cases nonceSize : nonce.length = NONCE_LEN
    · obtain ⟨nonce,rfl⟩ := exists_block nonceSize
      by_cases keySize : key.length = KEY_LEN
      · obtain ⟨key,rfl⟩ := exists_block keySize
        have sameInput : guestMain sha256 cipher (key.toList :: nonce.toList :: buffer :: rest) =
            guestMain sha256 cipher [key.toList,nonce.toList,buffer] := rfl
        rw [guestCommits_eq,sameInput,guestMain_eq]
        cases chacha cipher key nonce buffer with
        | error panicked => rfl
        | ok ciphertext => simp [Except.map]
      · rw [guestCommits_key keySize,guestMain,dif_pos nonceSize,dif_neg keySize]
        rfl
    · rw [guestCommits_nonce nonceSize,guestMain,dif_neg nonceSize]
      rfl

/-- No slice the parser takes is out of range. -/
theorem slicedFromBytes_eq (data : Bytes) : ZkvmOutput.slicedFromBytes data = some (ZkvmOutput.fromBytes data) := by
  unfold ZkvmOutput.slicedFromBytes ZkvmOutput.fromBytes
  by_cases short : data.length < HEADER_LEN
  · rw [if_pos short,dif_pos short]
  · rw [if_neg short,dif_neg short]
    have enough : HEADER_LEN ≤ data.length := Nat.le_of_not_lt short
    have headerSize : (data.take HEADER_LEN).length = HEADER_LEN := List.length_take_of_le enough
    have firstSlice : subslice (data.take HEADER_LEN) 0 HASH_LEN = some ((data.take HEADER_LEN).take HASH_LEN) := by
      rw [subslice_eq (Nat.zero_le _) (by rw [headerSize]; decide),List.drop_zero]
    have secondSlice : subslice (data.take HEADER_LEN) HASH_LEN (HASH_LEN + NONCE_LEN) =
        some (((data.take HEADER_LEN).drop HASH_LEN).take NONCE_LEN) := by
      rw [subslice_eq (Nat.le_add_right _ _) (by rw [headerSize]; decide),List.drop_take,Nat.add_sub_cancel_left]
    have thirdSlice : subslice (data.take HEADER_LEN) (HASH_LEN + NONCE_LEN) HEADER_LEN =
        some ((data.take HEADER_LEN).drop (HASH_LEN + NONCE_LEN)) := by
      rw [subslice_eq (Nat.le_add_right _ _) (Nat.le_of_eq headerSize.symm),
        List.take_of_length_le (Nat.le_of_eq headerSize)]
    obtain ⟨firstSize,secondSize,thirdSize⟩ := header_sizes short
    have firstCopy := copyFromSlice_eq (List.Vector.replicate HASH_LEN 0) firstSize
    have secondCopy := copyFromSlice_eq (List.Vector.replicate NONCE_LEN 0) secondSize
    have thirdCopy := copyFromSlice_eq (List.Vector.replicate HASH_LEN 0) thirdSize
    simp only [splitAt_eq enough,Option.bind_eq_bind,Option.bind_some,firstSlice,secondSlice,thirdSlice,
      firstCopy,secondCopy,thirdCopy]
    rfl

theorem fromBytes_fails_iff (data : Bytes) :
    (∃ error, ZkvmOutput.fromBytes data = .error error) ↔ data.length < HEADER_LEN := by
  unfold ZkvmOutput.fromBytes
  split
  next short => exact ⟨fun _ => short,fun _ => ⟨_,rfl⟩⟩
  next long =>
    constructor
    · intro failed
      obtain ⟨error,failed⟩ := failed
      cases failed
    · intro short
      contradiction

theorem guestCommits_completes (key nonce plaintext : Bytes) (bound : plaintext.length ≤ cipher.limit) :
    (∃ commits, guestCommits sha256 cipher [key,nonce,plaintext] = .ok commits) ↔
      key.length = KEY_LEN ∧ nonce.length = NONCE_LEN := by
  constructor
  · intro completes
    obtain ⟨commits,ran⟩ := completes
    by_cases nonceSize : nonce.length = NONCE_LEN
    · refine ⟨?_,nonceSize⟩
      by_contra keySize
      obtain ⟨nonce,rfl⟩ := exists_block nonceSize
      rw [guestCommits_key keySize] at ran
      cases ran
    · rw [guestCommits_nonce nonceSize] at ran
      cases ran
  · intro sizes
    obtain ⟨keySize,nonceSize⟩ := sizes
    obtain ⟨key,rfl⟩ := exists_block keySize
    obtain ⟨nonce,rfl⟩ := exists_block nonceSize
    have applied : chacha cipher key nonce plaintext = .ok (combine (cipher.keystream key nonce) 0 plaintext) :=
      if_pos bound
    rw [guestCommits_eq,applied]
    exact ⟨_,rfl⟩

/-- What a completed guest committed parses to its hashes, its nonce and a ciphertext that
decrypts to its plaintext. -/
theorem guestCommits_parse {key : Block KEY_LEN} {nonce : Block NONCE_LEN} {plaintext : Bytes} {commits : List Bytes}
    (ran : guestCommits sha256 cipher [key.toList,nonce.toList,plaintext] = .ok commits) :
    ∃ output, ZkvmOutput.slicedFromBytes commits.flatten = some (.ok output) ∧
      output.privkeyHash = sha256 key.toList ∧ output.nonce = nonce ∧ output.plaintextHash = sha256 plaintext ∧
      output.ciphertext.length = plaintext.length ∧ chacha cipher key output.nonce output.ciphertext = .ok plaintext := by
  have committed : guestMain sha256 cipher [key.toList,nonce.toList,plaintext] = .ok commits.flatten := by
    rw [← guestCommits_flatten,ran]
    rfl
  obtain ⟨ciphertext,applied,concatenated⟩ := guestMain_success committed
  refine ⟨⟨sha256 key.toList,nonce,sha256 plaintext,ciphertext⟩,?_,rfl,rfl,rfl,?_,chacha_involutive applied⟩
  · rw [slicedFromBytes_eq,concatenated]
    exact congrArg some (fromBytes_commits _ _ _ _)
  · obtain ⟨_,combined⟩ := chacha_success applied
    rw [combined,combine_length]

/-- The checks of the command line accept the guest's commits, and what differs from them in the
plaintext hash only: it is printed beside the hash of the input, and compared by nothing. -/
theorem executeChecks_iff (sha256 : Bytes → Block HASH_LEN) (cipher : ChaCha20) (inputKey : Block KEY_LEN)
    (inputNonce : Block NONCE_LEN) (inputBytes outputBuffer : Bytes) :
    executeChecks sha256 cipher inputKey inputNonce inputBytes outputBuffer = .ok () ↔
      ∃ commits, guestCommits sha256 cipher [inputKey.toList,inputNonce.toList,inputBytes] = .ok commits ∧
        ∃ plaintextHash : Block HASH_LEN, outputBuffer = (commits.set 2 plaintextHash.toList).flatten := by
  constructor
  · intro passed
    simp only [executeChecks,slicedFromBytes_eq,expect,bind,Except.bind] at passed
    cases parsed : ZkvmOutput.fromBytes outputBuffer with
    | error message =>
      rw [parsed] at passed
      cases passed
    | ok output =>
      simp only [parsed,Except.mapError] at passed
      split at passed
      next => cases passed
      next sameNonce =>
        obtain rfl := Classical.not_not.mp sameNonce
        cases decrypted : chacha cipher inputKey output.nonce output.ciphertext with
        | error panicked =>
          simp only [decrypted] at passed
          cases passed
        | ok outputPlaintext =>
          simp only [decrypted,pure,Except.pure] at passed
          split at passed
          next => cases passed
          next samePlaintext =>
            obtain rfl := Classical.not_not.mp samePlaintext
            split at passed
            next => cases passed
            next sameKey =>
              have ran := @guestCommits_eq sha256 cipher inputKey output.nonce outputPlaintext []
              rw [chacha_involutive decrypted] at ran
              refine ⟨_,ran,output.plaintextHash,?_⟩
              rw [fromBytes_success parsed,← Classical.not_not.mp sameKey]
              simp
  · intro accepted
    obtain ⟨commits,ran,plaintextHash,rfl⟩ := accepted
    rw [guestCommits_eq] at ran
    cases applied : chacha cipher inputKey inputNonce inputBytes with
    | error panicked =>
      rw [applied] at ran
      cases ran
    | ok ciphertext =>
      rw [applied] at ran
      cases ran
      have joined : ([(sha256 inputKey.toList).toList,inputNonce.toList,(sha256 inputBytes).toList,ciphertext].set 2
          plaintextHash.toList).flatten =
            (sha256 inputKey.toList).toList ++ inputNonce.toList ++ plaintextHash.toList ++ ciphertext := by
        simp
      rw [joined]
      simp only [executeChecks,slicedFromBytes_eq,fromBytes_commits,expect,Except.mapError,bind,Except.bind,
        chacha_involutive applied,ne_eq,not_true_eq_false,if_false]
      rfl

end

/-- The guest completes on exactly the keys and nonces of the right lengths, and the host
reads off its commits what it was given. The host fails on exactly the inputs that are
shorter than the header, never by a panic, and loses none of the others' bytes. -/
theorem format_inverse (sha256 : Bytes → Block HASH_LEN) (cipher : ChaCha20) :
    (∀ key nonce plaintext : Bytes, plaintext.length ≤ cipher.limit →
      ((∃ commits, guestCommits sha256 cipher [key,nonce,plaintext] = .ok commits) ↔
        key.length = KEY_LEN ∧ nonce.length = NONCE_LEN) ∧
      ∀ commits, guestCommits sha256 cipher [key,nonce,plaintext] = .ok commits →
        ∃ output, ZkvmOutput.slicedFromBytes commits.flatten = some (.ok output) ∧
          output.privkeyHash = sha256 key ∧ output.nonce.toList = nonce ∧ output.plaintextHash = sha256 plaintext ∧
          output.ciphertext.length = plaintext.length ∧
          ∃ keySize : key.length = KEY_LEN, ∃ nonceSize : nonce.length = NONCE_LEN,
            chacha cipher ⟨key,keySize⟩ ⟨nonce,nonceSize⟩ output.ciphertext = .ok plaintext) ∧
    ∀ data : Bytes, ∃ result, ZkvmOutput.slicedFromBytes data = some result ∧
      ((∃ error, result = .error error) ↔ data.length < HEADER_LEN) ∧
      ∀ output, result = .ok output →
        output.privkeyHash.toList ++ output.nonce.toList ++ output.plaintextHash.toList ++ output.ciphertext = data := by
  constructor
  · intro key nonce plaintext bound
    have completes : (∃ commits, guestCommits sha256 cipher [key,nonce,plaintext] = .ok commits) ↔
        key.length = KEY_LEN ∧ nonce.length = NONCE_LEN := guestCommits_completes key nonce plaintext bound
    refine ⟨completes,?_⟩
    intro commits ran
    obtain ⟨keySize,nonceSize⟩ := completes.mp ⟨commits,ran⟩
    obtain ⟨key,rfl⟩ := exists_block keySize
    obtain ⟨nonce,rfl⟩ := exists_block nonceSize
    obtain ⟨output,parsed,sameKey,sameNonce,samePlaintext,sameLength,decrypted⟩ := guestCommits_parse ran
    rw [sameNonce] at decrypted
    exact ⟨output,parsed,sameKey,congrArg _ sameNonce,samePlaintext,sameLength,keySize,nonceSize,decrypted⟩
  · intro data
    refine ⟨ZkvmOutput.fromBytes data,slicedFromBytes_eq data,fromBytes_fails_iff data,?_⟩
    intro output parsed
    exact (fromBytes_success parsed).symm

theorem format_inverse_tabulated :
    let cipher := Tabulated.dependencies.cipher
    [1,2,3].length ≤ cipher.limit ∧
    ∃ commits, guestCommits Tabulated.sha256 cipher [Tabulated.zeroKey.toList,Tabulated.zeroNonce.toList,[1,2,3]] =
        .ok commits ∧
      ∃ output, ZkvmOutput.slicedFromBytes commits.flatten = some (.ok output) ∧
        output.nonce.toList = Tabulated.zeroNonce.toList ∧ output.ciphertext.length = 3 := by
  intro cipher
  have bound : [1,2,3].length ≤ cipher.limit := by decide
  obtain ⟨completes,parses⟩ := (format_inverse Tabulated.sha256 cipher).1 Tabulated.zeroKey.toList
    Tabulated.zeroNonce.toList [1,2,3] bound
  obtain ⟨commits,ran⟩ := completes.mpr ⟨rfl,rfl⟩
  obtain ⟨output,parsed,_,sameNonce,_,sameLength,_⟩ := parses commits ran
  exact ⟨bound,commits,ran,output,parsed,sameNonce,sameLength⟩

end PdaProxy
