import Oyster.SecretOutput

/-! What the redaction of a child's output is, however the stream is cut into chunks: that of its whole
text. A cut behind a line break is always right; a cut inside a line past the limit is where no secret
reaches over it. A secret that meets the marker itself may be found in the result. -/

namespace SecretOutput

open Replacement

def message (s : String) : CodeUnits := Utf16.encode s.toList

/-- A key that ends in a line of its own, cut inside a character and inside the key. -/
def split : Child
  | .stdout => some [[0x6b, 0xc3], [0xa9, 0x20, 0x6b, 0x65], [0x79, 0x0a, 0x6b], [0x65, 0x79, 0x65, 0x79]]
  | .stderr => none

/-- A line of `n` letters that are part of no secret, and then three that overlap. -/
def overlapping (n : Nat) : CodeUnits := List.replicate n 0x7a ++ message "abcdx"

def three : List CodeUnits := [message "ab", message "dx", message "bcd"]

end SecretOutput
