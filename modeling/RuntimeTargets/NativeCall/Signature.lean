import RuntimeTargets.Alignment
import RuntimeTargets.Journal
import RuntimeTargets.NativeCall.Kind
import RuntimeTargets.Target.Basic

/-!
# Signatures of native calls

A method that is implemented natively is called with one or two hidden
arguments in front of its own.  Where the target's calling convention wants
integers widened, each integer narrower than a long takes a full pair of slots
and says how it must be extended first; every other argument is the same on all
targets with one word size.
-/

namespace RuntimeTargets

/-- How an argument is widened before a call. -/
inductive Extension where
  | none
  | sign
  | zero
  deriving DecidableEq, Repr

inductive SignatureError where
  | tooManyArguments (count most : Nat)
  | voidArgument
  deriving DecidableEq, Repr

def SignatureError.message : SignatureError → String
  | .tooManyArguments count most =>
    "too many arguments: " ++ count.repr ++ " slots > " ++ most.repr
  | .voidArgument => "void is not a valid argument type"

/-- One argument of a native call. -/
structure NativeArgument where
  kind : ValueKind
  /-- Four-byte slots that the argument takes. -/
  slots : Word
  extension : Extension
  deriving DecidableEq, Repr

namespace NativeArgument

/-- Bytes in a slot. -/
def slotSize : Word := 4

/-- How a target passes a value. -/
def ofKind (t : Target) (kind : ValueKind) : NativeArgument :=
  match kind with
  | .long | .double => ⟨kind, 2, .none⟩
  | .object | .array | .address => ⟨kind, t.wordSize / slotSize, .none⟩
  | .boolean | .char => if t.widensInts then ⟨kind, 2, .zero⟩ else ⟨kind, 1, .none⟩
  | .byte | .short | .int => if t.widensInts then ⟨kind, 2, .sign⟩ else ⟨kind, 1, .none⟩
  | .float | .void => ⟨kind, 1, .none⟩

end NativeArgument

/-- The arguments of a native call in order, and the slots of all of them. -/
structure NativeSignature where
  arguments : List NativeArgument
  slots : Word
  deriving DecidableEq, Repr

namespace NativeSignature

/-- Expression stack slots that the arguments of a method may take. -/
def mostSlots : Nat := 255

/-- Room for the arguments of a method and two hidden ones. -/
def mostArguments : Nat := mostSlots + 2

def empty : NativeSignature := ⟨[], 0⟩

/-- The environment comes first, then the class of a static method. -/
def hiddenKinds (isStatic : Bool) : List ValueKind :=
  if isStatic then [.address, .object] else [.address]

/-- Append one argument, as long as there is room for it. -/
def push (s : NativeSignature) (argument : NativeArgument) (total : Nat) :
    Outcome SignatureError NativeSignature := do
  let slots ← Word.add s.slots argument.slots
  if s.arguments.length < mostArguments then
    return { arguments := s.arguments ++ [argument], slots }
  else
    refuse (.tooManyArguments total mostArguments)

/-- Pass values of the given kinds, in order. -/
def ofKinds (t : Target) (kinds : List ValueKind) : Outcome SignatureError NativeSignature :=
  kinds.foldlM (fun s kind => s.push (.ofKind t kind) kinds.length) empty

/-- Expression stack slots that values of the given kinds take. -/
def methodSlots : List ValueKind → Nat
  | [] => 0
  | kind :: kinds => kind.slots + methodSlots kinds

/-- The signature under which a target calls a native method with arguments of
the given kinds, the receiver of an instance method among them. -/
def ofMethod (t : Target) (kinds : List ValueKind) (isStatic : Bool) :
    Outcome SignatureError NativeSignature :=
  if .void ∈ kinds then refuse .voidArgument
  else if mostSlots < methodSlots kinds then
    refuse (.tooManyArguments (methodSlots kinds) mostSlots)
  else ofKinds t (hiddenKinds isStatic ++ kinds)

def entry (t : Target) (s : NativeSignature) : Entry :=
  .about .trace t.name
    ("native signature with " ++ s.arguments.length.repr ++ " args, " ++
      Word.decimal s.slots ++ " slots")

/-- `ofMethod` with its journal. -/
def resolve (t : Target) (kinds : List ValueKind) (isStatic : Bool) :
    Noted (Outcome SignatureError NativeSignature) :=
  let signature := ofMethod t kinds isStatic
  { value := signature
    journal :=
      match signature with
      | .ok s => [entry t s]
      | .error _ => [] }

/-- Bytes of an area that holds every argument on the stack of a target. -/
def outgoingBytes (s : NativeSignature) (t : Target) : Checked Word := do
  let bytes ← Word.mul s.slots NativeArgument.slotSize
  Alignment.roundUp bytes t.stackAlignment

end NativeSignature

end RuntimeTargets
