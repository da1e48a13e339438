import Oyster.Unicode

/-! The base64url encoding of bytes, without padding. The decoder takes both alphabets
and skips every other unit. -/
namespace Base64Url

def digit (n : Nat) : UInt16 :=
  UInt16.ofNat (if n < 26 then 0x41 + n else if n < 52 then 0x47 + n
    else if n < 62 then n - 4 else if n = 62 then 0x2d else 0x5f)

def sextet (u : UInt16) : Option Nat :=
  let n := u.toNat
  if 0x41 ≤ n ∧ n ≤ 0x5a then some (n - 0x41)
  else if 0x61 ≤ n ∧ n ≤ 0x7a then some (n - 0x47)
  else if 0x30 ≤ n ∧ n ≤ 0x39 then some (n + 4)
  else if n = 0x2d ∨ n = 0x2b then some 62
  else if n = 0x5f ∨ n = 0x2f then some 63
  else none

def sextets : List UInt8 → List Nat
  | [] => []
  | [a] => [a.toNat / 4, a.toNat % 4 * 16]
  | [a, b] => [a.toNat / 4, a.toNat % 4 * 16 + b.toNat / 16, b.toNat % 16 * 4]
  | a :: b :: c :: bytes =>
    [a.toNat / 4, a.toNat % 4 * 16 + b.toNat / 16, b.toNat % 16 * 4 + c.toNat / 64, c.toNat % 64] ++ sextets bytes

/-- A rest of one sextet is no byte. -/
def bytes : List Nat → List UInt8
  | [] => []
  | [_] => []
  | [a, b] => [UInt8.ofNat (a * 4 + b / 16)]
  | [a, b, c] => [UInt8.ofNat (a * 4 + b / 16), UInt8.ofNat (b % 16 * 16 + c / 4)]
  | a :: b :: c :: d :: more =>
    [UInt8.ofNat (a * 4 + b / 16), UInt8.ofNat (b % 16 * 16 + c / 4), UInt8.ofNat (c % 4 * 64 + d)] ++ bytes more

def encode (bs : List UInt8) : CodeUnits := (sextets bs).map digit

def decode (us : CodeUnits) : List UInt8 := bytes (us.filterMap sextet)

theorem sextet_digit {n : Nat} (h : n < 64) : sextet (digit n) = some n := by
  have all : ∀ n, n < 64 → sextet (digit n) = some n := by decide
  exact all n h

theorem sextets_small (bs : List UInt8) : ∀ n ∈ sextets bs, n < 64 := by
  induction bs using sextets.induct with
  | case1 => exact fun _ absurd => nomatch absurd
  | case2 a =>
    have := a.toNat_lt
    simp only [sextets, List.forall_mem_cons, List.not_mem_nil, false_implies, implies_true, and_true]
    omega
  | case3 a b =>
    have := a.toNat_lt
    have := b.toNat_lt
    simp only [sextets, List.forall_mem_cons, List.not_mem_nil, false_implies, implies_true, and_true]
    omega
  | case4 a b c bs ih =>
    have := a.toNat_lt
    have := b.toNat_lt
    have := c.toNat_lt
    intro n mem
    rcases List.mem_append.mp mem with here | later
    · clear mem
      revert n
      simp only [List.forall_mem_cons, List.not_mem_nil, false_implies, implies_true, and_true]
      omega
    · exact ih n later

theorem bytes_sextets (bs : List UInt8) : bytes (sextets bs) = bs := by
  induction bs using sextets.induct with
  | case1 => rfl
  | case2 a =>
    rw [sextets, bytes, show a.toNat / 4 * 4 + a.toNat % 4 * 16 / 16 = a.toNat by omega, UInt8.ofNat_toNat]
  | case3 a b =>
    have := b.toNat_lt
    rw [sextets, bytes, show a.toNat / 4 * 4 + (a.toNat % 4 * 16 + b.toNat / 16) / 16 = a.toNat by omega,
      show (a.toNat % 4 * 16 + b.toNat / 16) % 16 * 16 + b.toNat % 16 * 4 / 4 = b.toNat by omega,
      UInt8.ofNat_toNat, UInt8.ofNat_toNat]
  | case4 a b c bs ih =>
    have := b.toNat_lt
    have := c.toNat_lt
    rw [sextets]
    simp only [List.cons_append, List.nil_append]
    rw [bytes, ih, show a.toNat / 4 * 4 + (a.toNat % 4 * 16 + b.toNat / 16) / 16 = a.toNat by omega,
      show (a.toNat % 4 * 16 + b.toNat / 16) % 16 * 16 + (b.toNat % 16 * 4 + c.toNat / 64) / 4 = b.toNat by omega,
      show (b.toNat % 16 * 4 + c.toNat / 64) % 4 * 64 + c.toNat % 64 = c.toNat by omega,
      UInt8.ofNat_toNat, UInt8.ofNat_toNat, UInt8.ofNat_toNat]
    rfl

theorem decode_encode (bs : List UInt8) : decode (encode bs) = bs := by
  have small := sextets_small bs
  have same : (encode bs).filterMap sextet = sextets bs := by
    unfold encode
    generalize sextets bs = ns at small
    induction ns with
    | nil => rfl
    | cons n ns ih =>
      rw [List.map_cons, List.filterMap_cons, sextet_digit (small n List.mem_cons_self),
        ih fun m mem => small m (List.mem_cons_of_mem _ mem)]
  rw [decode, same, bytes_sextets]

end Base64Url
