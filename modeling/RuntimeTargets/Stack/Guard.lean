import RuntimeTargets.Journal
import RuntimeTargets.Target.Basic

/-!
# Guard pages of a thread stack

A `StackRequest` overrides some of a target's default page counts.  Resolving
it yields a `StackGuard`, whose counts lie between the target's minimums and a
fixed headroom above its defaults.  A reserved zone that the target cannot have
is dropped with a warning; any other count out of range is refused.
-/

namespace RuntimeTargets

inductive StackError where
  | pagesOutOfRange (zone : GuardZone) (value least most : Word)
  | pageSize (size : Word)
  | stackTooSmall (size needed : Word)
  | unalignedBase (base : Word)
  deriving DecidableEq, Repr

namespace GuardZone

def name : GuardZone → String
  | .yellow => "yellow"
  | .red => "red"
  | .reserved => "reserved"
  | .shadow => "shadow"

/-- How far above its default a count may be configured. -/
def headroom : GuardZone → Word
  | .shadow => 30
  | _ => 10

end GuardZone

def StackError.message : StackError → String
  | .pagesOutOfRange zone value least most =>
    zone.name ++ " pages " ++ Word.decimal value ++ " outside of range [" ++
      Word.decimal least ++ "..=" ++ Word.decimal most ++ "]"
  | .pageSize size => "unusable page size " ++ Word.hexadecimal size
  | .stackTooSmall size needed =>
    "stack of " ++ Word.hexadecimal size ++ " bytes too small for " ++
      Word.hexadecimal needed ++ " bytes of guard zones"
  | .unalignedBase base => "stack base " ++ Word.hexadecimal base ++ " is not page aligned"

def GuardPages.render (pages : GuardPages) : String :=
  "yellow=" ++ Word.decimal pages.yellow ++ " red=" ++ Word.decimal pages.red ++
    " reserved=" ++ Word.decimal pages.reserved ++ " shadow=" ++ Word.decimal pages.shadow

/-- Page counts asked for; a zone left out takes the target's default. -/
structure StackRequest where
  yellow : Option Word := none
  red : Option Word := none
  reserved : Option Word := none
  shadow : Option Word := none
  deriving DecidableEq, Repr

namespace StackRequest

/-- The request that asks for exactly these counts. -/
def ofPages (pages : GuardPages) : StackRequest where
  yellow := some pages.yellow
  red := some pages.red
  reserved := some pages.reserved
  shadow := some pages.shadow

/-- The reserved count before it is known whether the target can have one. -/
def wantedReserved (request : StackRequest) (t : Target) : Word :=
  request.reserved.getD t.defaults.stackPages.reserved

/-- A reserved zone is wanted where there can be none. -/
def DropsReserved (request : StackRequest) (t : Target) : Prop :=
  ¬ t.reservesStack ∧ request.wantedReserved t ≠ 0

instance (request : StackRequest) (t : Target) : Decidable (request.DropsReserved t) :=
  inferInstanceAs (Decidable (_ ∧ _))

/-- The counts that a request stands for on a target. -/
def effective (request : StackRequest) (t : Target) : GuardPages where
  yellow := request.yellow.getD t.defaults.stackPages.yellow
  red := request.red.getD t.defaults.stackPages.red
  reserved := if request.DropsReserved t then 0 else request.wantedReserved t
  shadow := request.shadow.getD t.defaults.stackPages.shadow

end StackRequest

/-- Resolved page counts. -/
structure StackGuard where
  pages : GuardPages
  deriving DecidableEq, Repr

namespace StackGuard

/-- The count of one zone, if it is in the range of that zone. -/
def countFor (t : Target) (wanted : GuardPages) (zone : GuardZone) :
    Outcome StackError Word := do
  let least := t.defaults.minStackPages.count zone
  let most ← Word.add (t.defaults.stackPages.count zone) zone.headroom
  let value := wanted.count zone
  if value < least ∨ most < value then
    refuse (.pagesOutOfRange zone value least most)
  else
    return value

/-- The counts that `wanted` gives on a target; the first zone out of range is
reported. -/
def ofPages (t : Target) (wanted : GuardPages) : Outcome StackError StackGuard := do
  let yellow ← countFor t wanted .yellow
  let red ← countFor t wanted .red
  let reserved ← countFor t wanted .reserved
  let shadow ← countFor t wanted .shadow
  return { pages := { yellow, red, reserved, shadow } }

def droppedEntry (t : Target) (request : StackRequest) : Entry :=
  .about .warning t.name
    ("reserved stack area not supported, ignoring " ++
      Word.decimal (request.wantedReserved t) ++ " reserved pages")

def resolvedEntry (t : Target) (guard : StackGuard) : Entry :=
  .about .debug t.name ("stack guard pages " ++ guard.pages.render)

/-- The guard that a request stands for on a target. -/
def resolve (t : Target) (request : StackRequest) :
    Noted (Outcome StackError StackGuard) :=
  let resolved := ofPages t (request.effective t)
  { value := resolved
    journal :=
      (if request.DropsReserved t then [droppedEntry t request] else []) ++
        match resolved with
        | .ok guard => [resolvedEntry t guard]
        | .error _ => [] }

def HasReserved (guard : StackGuard) : Prop := guard.pages.reserved ≠ 0

instance (guard : StackGuard) : Decidable guard.HasReserved :=
  inferInstanceAs (Decidable (_ ≠ _))

/-- Bytes of the red, yellow and reserved zones together, where they are a word. -/
def guardBytes? (guard : StackGuard) (pageSize : Word) : Checked (Option Word) := do
  let pages ← Word.add guard.pages.red guard.pages.yellow
  let pages ← Word.add pages guard.pages.reserved
  return Word.mul? pages pageSize

/-- Bytes of the shadow zone, where they are a word. -/
def shadowBytes? (guard : StackGuard) (pageSize : Word) : Option Word :=
  Word.mul? guard.pages.shadow pageSize

end StackGuard

end RuntimeTargets
