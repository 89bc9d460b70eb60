import FieldSeal.Bytes
import FieldSeal.Failure.Engine

/-!
Plaintext material for a new data key, supplied by the caller. Its printed form never shows the bytes.
-/

namespace FieldSeal

structure KeyMaterial where
  bytes : Bytes
  size : bytes.length = 96

namespace KeyMaterial

def ofBytes (bytes : Bytes) : Except EngineError KeyMaterial :=
  if h : bytes.length = 96 then .ok ⟨bytes, h⟩
  else .error (.invalidArgument s!"key material must be 96 bytes, got {bytes.length}")

def redacted (_ : KeyMaterial) : String :=
  "KeyMaterial([REDACTED])"

end KeyMaterial

end FieldSeal
