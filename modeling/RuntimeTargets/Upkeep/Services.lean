import RuntimeTargets.Digest.Sha256
import RuntimeTargets.Text.Json.Reader
import RuntimeTargets.Upkeep.Matrix

/-!
# What upkeep leaves to others

Tasks read a matrix file and dumps, and take digests of dumps.  They do so by
whatever services they are given; a reader that fails gives its reason, which
becomes the message of the task.
-/

namespace RuntimeTargets.Upkeep

structure Services where
  /-- The entries that the text of a matrix file lists. -/
  readMatrix : String → Except String Matrix
  /-- The value that a dump writes. -/
  readDump : ByteArray → Except String Json
  /-- The digest of a dump. -/
  digest : ByteArray → ByteArray

/-- The readers of this library, whose reasons are no more than the name of the
notation, and its digest. -/
def Services.standard : Services where
  readMatrix text :=
    match Matrix.ofText? text with
    | some entries => .ok entries
    | none => .error "TOML"
  readDump bytes :=
    match Json.ofBytes? bytes with
    | some dump => .ok dump
    | none => .error "JSON"
  digest := Sha256.digest

end RuntimeTargets.Upkeep
