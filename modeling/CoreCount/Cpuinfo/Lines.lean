import CoreCount.Os.Read

/-!
Lines out of the reads that deliver a file. A line ends with its newline; a read that returns
nothing ends the line in progress, or the file if no line is in progress. What a failed read
cuts off is no line.
-/

namespace CoreCount.Cpuinfo

/-- The lines that are complete and the line in progress, both newest first. -/
structure LineBuffer where
  complete : List Bytes := []
  current : Bytes := []

namespace LineBuffer

def push (buffer : LineBuffer) (b : UInt8) : LineBuffer :=
  if b = Bytes.newline then ⟨(b :: buffer.current).reverse :: buffer.complete, []⟩
  else ⟨buffer.complete, b :: buffer.current⟩

/-- Ends the line in progress, which has bytes or is none. -/
def endLine (buffer : LineBuffer) : LineBuffer :=
  if buffer.current.isEmpty then buffer
  else ⟨buffer.current.reverse :: buffer.complete, []⟩

def lines (buffer : LineBuffer) : List Bytes :=
  buffer.complete.reverse

end LineBuffer

/-- What reads deliver: lines with their ends, and the failure that broke them off. -/
structure Delivery where
  lines : List Bytes
  failure? : Option Os.Failure

namespace Delivery

def continueReads (buffer : LineBuffer) : List Os.Read → Delivery
  | [] => ⟨buffer.endLine.lines, none⟩
  | .data bytes :: reads => continueReads (bytes.foldl .push buffer) reads
  | .interrupted :: reads => continueReads buffer reads
  | .failed cause :: _ => ⟨buffer.lines, some cause⟩
  | .nothing :: reads =>
    if buffer.current.isEmpty then ⟨buffer.lines, none⟩
    else continueReads buffer.endLine reads

def ofReads (reads : List Os.Read) : Delivery :=
  continueReads {} reads

end Delivery

end CoreCount.Cpuinfo
