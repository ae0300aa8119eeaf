/-!
# Bytes shown as a text

Bytes that another program wrote may be no text at all.  To show them anyway,
every character that is broken off or cannot be is replaced by a mark.  A
broken character takes its first byte and those after it that could still
belong to it, and has one mark however many these are.
-/

namespace RuntimeTargets.Utf8

/-- The mark in the place of a broken character. -/
def replacement : Char := '\ufffd'

/-- A byte that comes third or fourth in a character. -/
def isContinuation (byte : UInt8) : Bool := 0x80 ≤ byte && byte ≤ 0xbf

/-- The byte comes second in a character of three or four bytes that starts with
`first`.  Four first bytes leave less room, so that each character has one form
and none is a half of a pair or beyond the last. -/
def isSecond (first byte : UInt8) : Bool :=
  let least := if first = 0xe0 then 0xa0 else if first = 0xf0 then 0x90 else 0x80
  let greatest := if first = 0xed then 0x9f else if first = 0xf4 then 0x8f else 0xbf
  0xe0 ≤ first && first ≤ 0xf4 && least ≤ byte && byte ≤ greatest

/-- How many bytes the broken character at an index takes. -/
def brokenLength (bytes : ByteArray) (i : Nat) : Nat :=
  let first := bytes.data.getD i 0
  if isSecond first (bytes.data.getD (i + 1) 0) then
    if 0xf0 ≤ first && isContinuation (bytes.data.getD (i + 2) 0) then 3 else 2
  else 1

theorem brokenLength_pos (bytes : ByteArray) (i : Nat) : 0 < brokenLength bytes i := by
  unfold brokenLength
  dsimp only
  split
  · split <;> decide
  · decide

/-- The characters from an index on. -/
def charsFrom (bytes : ByteArray) (i : Nat) : List Char :=
  if i < bytes.size then
    match bytes.utf8DecodeChar? i with
    | some c => c :: charsFrom bytes (i + c.utf8Size)
    | none => replacement :: charsFrom bytes (i + brokenLength bytes i)
  else []
termination_by bytes.size - i
decreasing_by
  · have := c.utf8Size_pos
    omega
  · have := brokenLength_pos bytes i
    omega

/-- Bytes as a text, in which a mark stands for each broken character. -/
def lossy (bytes : ByteArray) : String := String.ofList (charsFrom bytes 0)

end RuntimeTargets.Utf8
