import Mathlib.Data.Vector.Basic

/-! Byte strings, serializers together with the law that reading gives back what was
written, and length-prefixed byte vectors that can be read off the front of a stream. -/
namespace PdaProxy.Semantics.Serialization

abbrev Bytes := List UInt8

abbrev Block (n : Nat) := List.Vector UInt8 n

structure Codec (A B : Type) where
  serialize : A → B
  deserialize : B → Except String A
  round_trip : ∀ a, deserialize (serialize a) = .ok a

def Codec.plain (A : Type) : Codec A A := ⟨id,.ok,fun _ => rfl⟩

/-- A self-delimiting format of byte vectors: reading takes one vector off the front of
its input, and there is none to take off an empty input. -/
structure VecFormat where
  write : Bytes → Bytes
  read : Bytes → Except String (Bytes × Bytes)
  read_write : ∀ vec rest, vec.length < 2^64 → read (write vec ++ rest) = .ok (vec,rest)
  read_empty : ∃ error, read [] = .error error

theorem VecFormat.read_exact (format : VecFormat) (vec : Bytes) (bound : vec.length < 2^64) :
    format.read (format.write vec) = .ok (vec,[]) := by
  simpa using format.read_write vec [] bound

theorem VecFormat.write_injective (format : VecFormat) {first second : Bytes}
    (firstBound : first.length < 2^64) (secondBound : second.length < 2^64)
    (same : format.write first = format.write second) : first = second := by
  have read := congrArg format.read same
  rw [format.read_exact first firstBound,format.read_exact second secondBound] at read
  exact congrArg Prod.fst (Except.ok.inj read)

/-- The low `count` bytes of a number, least significant first. -/
def littleEndian : Nat → Nat → Bytes
  | 0, _ => []
  | count + 1, n => UInt8.ofNat (n % 256) :: littleEndian count (n / 256)

def fromLittleEndian : Bytes → Nat
  | [] => 0
  | byte :: rest => byte.toNat + 256 * fromLittleEndian rest

theorem littleEndian_length (count n : Nat) : (littleEndian count n).length = count := by
  induction count generalizing n with
  | zero => rfl
  | succ count ih => simp [littleEndian,ih]

theorem fromLittleEndian_littleEndian (count n : Nat) (bound : n < 256^count) :
    fromLittleEndian (littleEndian count n) = n := by
  induction count generalizing n with
  | zero => simp_all [littleEndian,fromLittleEndian]
  | succ count ih =>
    have rest : n / 256 < 256^count := by
      rw [pow_succ] at bound
      exact Nat.div_lt_of_lt_mul (by omega)
    simp only [littleEndian,fromLittleEndian,ih _ rest,UInt8.toNat_ofNat']
    omega

def writeFixint (vec : Bytes) : Bytes := littleEndian 8 vec.length ++ vec

def readFixint (input : Bytes) : Except String (Bytes × Bytes) :=
  let count := fromLittleEndian (input.take 8)
  let body := input.drop 8
  if input.length < 8 ∨ body.length < count then .error "unexpected end of file"
  else .ok (body.take count,body.drop count)

def VecFormat.fixint : VecFormat where
  write := writeFixint
  read := readFixint
  read_write := by
    intro vec rest bound
    have size := littleEndian_length 8 vec.length
    have count := fromLittleEndian_littleEndian 8 vec.length (by simpa using bound)
    have taken : (littleEndian 8 vec.length ++ (vec ++ rest)).take 8 = littleEndian 8 vec.length := by
      rw [List.take_append_of_le_length (by omega),List.take_of_length_le (by omega)]
    have dropped : (littleEndian 8 vec.length ++ (vec ++ rest)).drop 8 = vec ++ rest := by
      rw [List.drop_append_of_le_length (by omega),List.drop_of_length_le (by omega),List.nil_append]
    simp only [readFixint,writeFixint,List.append_assoc,taken,dropped,count]
    rw [if_neg (by simp [size])]
    simp
  read_empty := ⟨"unexpected end of file",rfl⟩

example : writeFixint [7,8] = [2,0,0,0,0,0,0,0,7,8] := by decide

end PdaProxy.Semantics.Serialization
