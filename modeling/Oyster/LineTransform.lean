import Oyster.Unicode

/-! A text that arrives in pieces and is rewritten line by line: what is written out
depends on the text alone and not on the pieces. The lines are rewritten by a function
with a state of its own. -/
namespace LineTransform

def lineFeed : UInt16 := 0x0a

/-- The complete lines of a text, and what follows the last of them. -/
def splitLines : CodeUnits → List CodeUnits × CodeUnits
  | [] => ([], [])
  | u :: us =>
    match splitLines us with
    | (lines, rest) =>
      if u = lineFeed then ([] :: lines, rest)
      else match lines with
        | [] => ([], u :: rest)
        | line :: lines => ((u :: line) :: lines, rest)

structure State (σ : Type) where
  inner : σ
  pending : CodeUnits := []

section
variable {σ : Type} (rewrite : σ → CodeUnits → σ × CodeUnits)

def rewriteLines : σ → List CodeUnits → σ × CodeUnits
  | s, [] => (s, [])
  | s, line :: lines =>
    let (t, out) := rewrite s line
    let (u, outs) := rewriteLines t lines
    (u, out ++ lineFeed :: outs)

def write (s : State σ) (text : CodeUnits) : State σ × CodeUnits :=
  let (lines, rest) := splitLines (s.pending ++ text)
  let (t, out) := rewriteLines rewrite s.inner lines
  (⟨t, rest⟩, out)

/-- The pieces one after the other. -/
def writeAll : State σ → List CodeUnits → State σ × CodeUnits
  | s, [] => (s, [])
  | s, text :: texts =>
    let (t, out) := write rewrite s text
    let (u, outs) := writeAll t texts
    (u, out ++ outs)

/-- The rest of the text is a line when the text has ended. -/
def flush (s : State σ) : CodeUnits := if s.pending = [] then [] else (rewrite s.inner s.pending).2

end

theorem splitLines_rest (us : CodeUnits) : lineFeed ∉ (splitLines us).2 := by
  induction us with
  | nil => exact List.not_mem_nil
  | cons u us ih =>
    rw [splitLines]
    split
    rename_i lines rest split
    rw [split] at ih
    split_ifs with feed
    · exact ih
    · cases lines with
      | nil => exact fun mem => (List.mem_cons.mp mem).elim (fun same => feed same.symm) ih
      | cons line lines => exact ih

theorem splitLines_of_not_mem {us : CodeUnits} (h : lineFeed ∉ us) : splitLines us = ([], us) := by
  induction us with
  | nil => rfl
  | cons u us ih =>
    rw [splitLines, ih fun mem => h (List.mem_cons_of_mem _ mem)]
    have other : u ≠ lineFeed := fun feed => h (feed ▸ List.mem_cons_self)
    simp only
    rw [if_neg other]

theorem splitLines_append (a b : CodeUnits) :
    splitLines (a ++ b) = ((splitLines a).1 ++ (splitLines ((splitLines a).2 ++ b)).1,
      (splitLines ((splitLines a).2 ++ b)).2) := by
  induction a with
  | nil => rfl
  | cons u a ih =>
    rw [List.cons_append, splitLines, ih, splitLines]
    generalize splitLines a = split
    obtain ⟨lines, rest⟩ := split
    by_cases feed : u = lineFeed
    · simp only [feed, if_true, List.cons_append]
    · simp only [feed, if_false]
      cases lines with
      | cons line lines => rfl
      | nil =>
        simp only [List.nil_append, List.cons_append]
        rw [splitLines]
        simp only [feed, if_false]

theorem splitLines_line {line : CodeUnits} (h : lineFeed ∉ line) (us : CodeUnits) :
    splitLines (line ++ lineFeed :: us) = (line :: (splitLines us).1, (splitLines us).2) := by
  induction line with
  | nil =>
    rw [List.nil_append, splitLines]
    simp only [if_true]
  | cons u line ih =>
    have other : u ≠ lineFeed := fun feed => h (feed ▸ List.mem_cons_self)
    rw [List.cons_append, splitLines, ih fun mem => h (List.mem_cons_of_mem _ mem)]
    simp only
    rw [if_neg other]

section
variable {σ : Type} (rewrite : σ → CodeUnits → σ × CodeUnits)

theorem rewriteLines_append (s : σ) (a b : List CodeUnits) : rewriteLines rewrite s (a ++ b) =
      ((rewriteLines rewrite (rewriteLines rewrite s a).1 b).1,
        (rewriteLines rewrite s a).2 ++ (rewriteLines rewrite (rewriteLines rewrite s a).1 b).2) := by
  induction a generalizing s with
  | nil => rfl
  | cons line a ih =>
    simp only [List.cons_append, rewriteLines, ih, List.append_assoc]

theorem write_append (s : State σ) (a b : CodeUnits) :
    write rewrite s (a ++ b) = ((write rewrite (write rewrite s a).1 b).1,
      (write rewrite s a).2 ++ (write rewrite (write rewrite s a).1 b).2) := by
  simp only [write]
  rw [← List.append_assoc, splitLines_append, rewriteLines_append]

variable {s : State σ}

theorem write_nil (h : lineFeed ∉ s.pending) : write rewrite s [] = (s, []) := by
  simp only [write, List.append_nil, splitLines_of_not_mem h, rewriteLines]

theorem write_pending (s : State σ) (text : CodeUnits) :
    lineFeed ∉ (write rewrite s text).1.pending := splitLines_rest _

theorem writeAll_flatten (h : lineFeed ∉ s.pending) (texts : List CodeUnits) :
    writeAll rewrite s texts = write rewrite s texts.flatten := by
  induction texts generalizing s with
  | nil => exact (write_nil rewrite h).symm
  | cons text texts ih =>
    rw [List.flatten_cons, write_append, writeAll]
    simp only
    rw [ih (write_pending rewrite s text)]

end
end LineTransform
