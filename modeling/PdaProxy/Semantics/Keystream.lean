import PdaProxy.Semantics.Serialization

/-! Stream ciphers that combine a buffer with a keystream by exclusive or: applying
the same keystream twice gives the buffer back. -/
namespace PdaProxy.Semantics.Keystream
open PdaProxy.Semantics.Serialization

def combine (keystream : Nat → UInt8) (start : Nat) : Bytes → Bytes
  | [] => []
  | byte :: rest => (byte ^^^ keystream start) :: combine keystream (start + 1) rest

theorem combine_length (keystream : Nat → UInt8) (start : Nat) (buffer : Bytes) :
    (combine keystream start buffer).length = buffer.length := by
  induction buffer generalizing start with
  | nil => rfl
  | cons byte rest ih => simp [combine,ih]

theorem combine_involutive (keystream : Nat → UInt8) (start : Nat) (buffer : Bytes) :
    combine keystream start (combine keystream start buffer) = buffer := by
  induction buffer generalizing start with
  | nil => rfl
  | cons byte rest ih =>
    have twice : byte ^^^ keystream start ^^^ keystream start = byte := by
      rw [UInt8.xor_assoc,UInt8.xor_self,UInt8.xor_zero]
    rw [combine,combine,twice,ih]

end PdaProxy.Semantics.Keystream
