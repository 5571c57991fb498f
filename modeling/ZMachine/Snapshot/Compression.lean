import ZMachine.Fault

/-!
# Compressed memory

Dynamic memory is saved as its difference from the pristine image. A byte that
differs is written as the exclusive or of the two; a run of bytes that do not
is written as a zero and the length of the run less one, in parts of at most
256. Bytes behind the last one written are unchanged.
-/

set_option autoImplicit false

namespace ZMachine.Compression

/-- Write a run of unchanged bytes. -/
def addRun (out : Array Byte) (count : Nat) : Array Byte :=
  if count = 0 then out
  else if count ≤ 256 then (out.push 0).push (UInt8.ofNat (count - 1))
  else addRun ((out.push 0).push 255) (count - 256)
termination_by count

/-- Write differences behind a run of unchanged bytes that has not been written
yet. -/
def addDifferences : (out : Array Byte) → (unchanged : Nat) → List Byte → Array Byte
  | out, unchanged, [] => addRun out unchanged
  | out, unchanged, d :: rest =>
      if d = 0 then addDifferences out (unchanged + 1) rest
      else addDifferences ((addRun out unchanged).push d) 0 rest

/-- Compress memory against a pristine copy of the same size. -/
def compress (current pristine : Array Byte) : Except Fault (Array Byte) :=
  if current.size = pristine.size then
    .ok (addDifferences #[] 0 (Array.zipWith (· ^^^ ·) current pristine).toList)
  else .error (.compressionSizes current.size pristine.size)

/-- Undo compression, behind bytes already recovered. -/
def expandFrom (pristine : Array Byte) :
    (out : Array Byte) → List Byte → Except Fault (Array Byte)
  | out, [] => .ok (out ++ pristine.extract out.size pristine.size)
  | out, d :: rest =>
      if d = 0 then
        match rest with
        | [] => .error .incompleteRun
        | n :: rest =>
            let stop := out.size + n.toNat + 1
            if pristine.size < stop then .error .runBeyondMemory
            else expandFrom pristine (out ++ pristine.extract out.size stop) rest
      else
        match pristine[out.size]? with
        | none => .error .dataBeyondMemory
        | some base => expandFrom pristine (out.push (base ^^^ d)) rest

/-- Recover memory from its compressed form and the pristine copy. -/
def expand (compressed pristine : Array Byte) : Except Fault (Array Byte) :=
  expandFrom pristine #[] compressed.toList

end ZMachine.Compression
