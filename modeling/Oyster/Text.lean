import Mathlib.Data.List.Basic
import Mathlib.Algebra.GroupWithZero.Nat

/-! Strings as the program's language sees them: lengths in UTF-16 code units,
its notion of white space, and the values that a condition takes for false. -/
namespace Text

def falsy (value : Option String) : Bool := value.all (· == "")

/-- The characters that `String.prototype.trim` takes away. -/
def isSpace (c : Char) : Bool :=
  c ∈ ['\t', '\n', '\x0b', '\x0c', '\r', ' ', '\u00a0', '\u1680', '\u2028', '\u2029', '\u202f',
    '\u205f', '\u3000', '\ufeff'] || (0x2000 ≤ c.toNat && c.toNat ≤ 0x200a)

def isControl (c : Char) : Bool :=
  c.toNat ≤ 0x1f || (0x7f ≤ c.toNat && c.toNat ≤ 0x9f)

def utf16Length (s : List Char) : Nat :=
  (s.map fun c => if c.toNat < 0x10000 then 1 else 2).sum

def trim (value : List Char) : List Char :=
  ((value.dropWhile isSpace).reverse.dropWhile isSpace).reverse

def trimmed (s : List Char) : Bool :=
  s.head?.all (!isSpace ·) && s.getLast?.all (!isSpace ·)

end Text
