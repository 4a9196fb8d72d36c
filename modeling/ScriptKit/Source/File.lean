import ScriptKit.Text.Bytes

/-! A named source text and its lines. -/
namespace ScriptKit

structure SourceFile where
  name : String
  text : String
deriving DecidableEq, Repr

namespace SourceFile

/-- Byte offsets just after each line feed, the first character standing at `offset`. -/
def startsAfter (offset : Nat) : List Char → List Nat
  | [] => []
  | c :: cs =>
    let next := offset + c.utf8Size
    if c = '\n' then next :: startsAfter next cs else startsAfter next cs

def lineStarts (file : SourceFile) : List Nat := 0 :: startsAfter 0 file.text.toList

def lineBounds? (file : SourceFile) (n : Nat) : Option (Nat × Nat) :=
  match n with
  | 0 => none
  | i + 1 => do
    let first ← file.lineStarts[i]?
    let stop := match file.lineStarts[i + 1]? with
      | some following => following - 1
      | none => Text.byteLength file.text.toList
    return (first, stop)

def dropReturns (cs : List Char) : List Char := (cs.reverse.dropWhile (· = '\r')).reverse

/-- The text of line `n`, without its line feed and the carriage returns before it. -/
def line? (file : SourceFile) (n : Nat) : Option String := do
  let (first, stop) ← file.lineBounds? n
  let cs ← Text.sliceBytes? file.text.toList first stop
  return String.ofList (dropReturns cs)

def lineOrEmpty (file : SourceFile) (n : Nat) : String := (file.line? n).getD ""

end SourceFile

end ScriptKit
