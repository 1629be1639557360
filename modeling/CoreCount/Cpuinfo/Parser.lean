import CoreCount.Cpuinfo.Basic
import CoreCount.Cpuinfo.Lines
import CoreCount.Cpuinfo.Number

/-!
A cpuinfo file gives its fields one line each, for every processor anew; the last value of a
field counts. A field line without a colon is an error, and the first error ends the reading.
-/

namespace CoreCount.Cpuinfo

/-- The field that a line gives, known by the label the line begins with. -/
def Field.ofLine? (line : Bytes) : Option Field :=
  [Field.siblings, Field.cpuCores].find? (fun f => (Bytes.ofString f.label).isPrefixOf line)

/-- The colon between label and value. -/
def separator : UInt8 := 58

namespace Topology

/-- The value that a field line gives stands after its first colon. -/
def readLine (t : Topology) (number : Nat) (line : Bytes) : Except MissingSeparator Topology :=
  match Field.ofLine? line with
  | none => .ok t
  | some field =>
    match Bytes.after? separator line with
    | none => .error ⟨number, field⟩
    | some value => .ok (t.set field (leadingNumber value))

/-- Reads lines of which the first has the given number. -/
def readLines (t : Topology) (number : Nat) : List Bytes → Except MissingSeparator Topology
  | [] => .ok t
  | line :: rest =>
    match t.readLine number line with
    | .error e => .error e
    | .ok t' => t'.readLines (number + 1) rest

end Topology

/-- A malformed line comes before the failure that ends the lines. -/
def parse (reads : List Os.Read) : Except Error Topology :=
  let delivery := Delivery.ofReads reads
  match Topology.readLines {} 1 delivery.lines, delivery.failure? with
  | .error fault, _ => .error (.malformed fault)
  | .ok _, some cause => .error (.unreadable cause)
  | .ok t, none => .ok t

end CoreCount.Cpuinfo
