/-!
Records in which an operating system lists its logical processors: each covers the processors
of a mask and says what these have in common.
-/

namespace CoreCount.Os

/-- What the processors of a record share. -/
inductive Relationship where
  | processorCore
  | numaNode
  | cache
  | processorPackage
  | group
  | other (code : UInt32)
  deriving DecidableEq

def Relationship.ofCode (code : UInt32) : Relationship :=
  if code = 0 then .processorCore
  else if code = 1 then .numaNode
  else if code = 2 then .cache
  else if code = 3 then .processorPackage
  else if code = 4 then .group
  else .other code

/-- How many bits of a mask are set. -/
def setBits (mask : UInt64) : Nat :=
  (List.range 64).countP mask.toNat.testBit

structure LogicalProcessors where
  relationship : Relationship
  mask : UInt64
  deriving DecidableEq

end CoreCount.Os
