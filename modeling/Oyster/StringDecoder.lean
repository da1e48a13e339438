import Oyster.Unicode
import Mathlib.Data.List.Infix

/-! Text that arrives in chunks of bytes. A decoder keeps the bytes of a character that has begun
until the rest of it arrives; what it gives for the chunks of a stream, one after the other, is the
text of the whole stream. A string is cut into strings of the same bytes where no pair of surrogates
is cut. -/

namespace Utf8

def feed : Option Begun → List UInt8 → List Char × Option Begun
  | s, [] => ([], s)
  | s, b :: bytes =>
    ((step s b.toNat).1 ++ (feed (step s b.toNat).2 bytes).1, (feed (step s b.toNat).2 bytes).2)

theorem run_cons (s : Option Begun) (b : UInt8) (bytes : List UInt8) :
    run s (b :: bytes) = (step s b.toNat).1 ++ run (step s b.toNat).2 bytes := by
  cases s <;> rfl

theorem run_append (s : Option Begun) (a b : List UInt8) :
    run s (a ++ b) = (feed s a).1 ++ run (feed s a).2 b := by
  induction a generalizing s with
  | nil => rfl
  | cons byte a ih => rw [List.cons_append, run_cons, ih, feed, List.append_assoc]

end Utf8

def decoded {State : Type} (write : State → List UInt8 → List Char × State) (finish : State → List Char) :
    State → List (List UInt8) → List Char
  | s, [] => finish s
  | s, chunk :: chunks => (write s chunk).1 ++ decoded write finish (write s chunk).2 chunks

structure StringDecoder where
  State : Type
  start : State
  write : State → List UInt8 → List Char × State
  finish : State → List Char
  whole : ∀ chunks, decoded write finish start chunks = Utf8.decode chunks.flatten

namespace StringDecoder

/-- The decoder that gives a character with the last of its bytes. -/
def utf8 : StringDecoder where
  State := Option Utf8.Begun
  start := none
  write := Utf8.feed
  finish s := Utf8.run s []
  whole := by
    have reads : ∀ chunks s, decoded Utf8.feed (fun s => Utf8.run s []) s chunks = Utf8.run s chunks.flatten := by
      intro chunks
      induction chunks with
      | nil => exact fun s => rfl
      | cons chunk chunks ih =>
        intro s
        rw [decoded, ih, List.flatten_cons, Utf8.run_append]
    exact fun chunks => reads chunks none

end StringDecoder

namespace Utf16

/-- The cut is inside a pair of surrogates. -/
def Splits (a b : CodeUnits) : Prop := ∃ h l, [h] <:+ a ∧ [l] <+: b ∧ isHigh h = true ∧ isLow l = true

variable {a b : CodeUnits}

theorem Splits.of_suffix {a' : CodeUnits} (ends : a <:+ a') (splits : Splits a b) : Splits a' b := by
  obtain ⟨h, l, last, first, high, low⟩ := splits
  exact ⟨h, l, last.trans ends, first, high, low⟩

theorem codePoints_append (joined : ¬ Splits a b) : codePoints (a ++ b) = codePoints a ++ codePoints b := by
  induction a using codePoints.induct with
  | case1 => rfl
  | case2 u =>
    cases b with
    | nil => rw [List.append_nil, codePoints, List.append_nil]
    | cons v b =>
      have apart : ¬ (isHigh u && isLow v) = true := by
        intro both
        rw [Bool.and_eq_true] at both
        exact joined ⟨u, v, List.suffix_refl _, List.cons_prefix_cons.mpr ⟨rfl, List.nil_prefix⟩, both⟩
      calc codePoints (u :: v :: b)
        _ = single u :: codePoints (v :: b) := by rw [codePoints, if_neg apart]
        _ = codePoints [u] ++ codePoints (v :: b) := rfl
  | case3 u v us both ih =>
    have later : ¬ Splits us b := fun splits =>
      joined (splits.of_suffix ((List.suffix_cons _ _).trans (List.suffix_cons _ _)))
    rw [List.cons_append, List.cons_append, codePoints, if_pos both, ih later, codePoints, if_pos both]
    rfl
  | case4 u v us single ih =>
    have later : ¬ Splits (v :: us) b := fun splits => joined (splits.of_suffix (List.suffix_cons _ _))
    rw [List.cons_append, List.cons_append, codePoints, if_neg single, ← List.cons_append, ih later, codePoints,
      if_neg single]
    rfl

end Utf16
