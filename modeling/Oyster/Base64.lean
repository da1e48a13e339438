import Oyster.Base64Url

/-! The base64 encoding of bytes, with padding. The decoder is that of the other alphabet,
which takes both. -/
namespace Base64
open Base64Url (sextet sextets sextet_digit sextets_small bytes_sextets)

def digit (n : Nat) : UInt16 := if n = 62 then 0x2b else if n = 63 then 0x2f else Base64Url.digit n

def padding (bs : List UInt8) : CodeUnits := List.replicate ((3 - bs.length % 3) % 3) 0x3d

def encode (bs : List UInt8) : CodeUnits := (sextets bs).map digit ++ padding bs

def decode (us : CodeUnits) : List UInt8 := Base64Url.decode us

theorem sextet_standard {n : Nat} (h : n < 64) : sextet (digit n) = some n := by
  unfold digit
  split_ifs with plus slash
  · subst plus
    rfl
  · subst slash
    rfl
  · exact sextet_digit h

theorem filterMap_padding (bs : List UInt8) : (padding bs).filterMap sextet = [] := by
  rw [padding, List.filterMap_replicate_of_none]
  rfl

theorem decode_encode (bs : List UInt8) : decode (encode bs) = bs := by
  have small := sextets_small bs
  have same : ((sextets bs).map digit).filterMap sextet = sextets bs := by
    rw [List.filterMap_map]
    calc (sextets bs).filterMap (sextet ∘ digit)
      _ = (sextets bs).filterMap some := List.filterMap_congr fun n mem => sextet_standard (small n mem)
      _ = sextets bs := List.filterMap_some
  rw [decode, encode, Base64Url.decode, List.filterMap_append, same, filterMap_padding, List.append_nil, bytes_sextets]

end Base64
