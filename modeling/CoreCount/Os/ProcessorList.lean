/-!
Lists of processors as the kernel writes them: numbers and ranges of numbers, such as
`0-3,8,10-11`.
-/

namespace CoreCount.Os.ProcessorList

/-- How many processors one number or range stands for. -/
def rangeSize? (range : String) : Option Nat :=
  match range.splitOn "-" with
  | [single] => single.toNat?.map (fun _ => 1)
  | [first, last] => do
    let first ← first.toNat?
    let last ← last.toNat?
    if first ≤ last then some (last + 1 - first) else none
  | _ => none

/-- How many processors a list stands for. A newline may end it. -/
def size? (text : String) : Option Nat :=
  match text.splitOn "\n" with
  | list :: _ =>
    (list.splitOn ",").foldlM (fun total range => (rangeSize? range).map (total + ·)) 0
  | [] => none

end CoreCount.Os.ProcessorList
