import Oyster.Json
import Oyster.SearchExpression

/-! The two scans of a Markdown text: one for the sources of its Mermaid diagrams, which looks for fences alone, and one that renders
the text block by block. A diagram is shown and explored under its number in both. -/
namespace MarkdownRenderer
open Utf16
open Json (ascii isDigit)
open SearchQuery (isSpace toLowerCase trim)

/-- What `(.*)$` takes. -/
def plain (text : CodeUnits) : Bool := !text.any fun u => u = 0x0a || u = 0x0d || u = 0x2028 || u = 0x2029

def blank (line : CodeUnits) : Bool := line.all isSpace

/-- `join("\n")`. -/
def joined (lines : List CodeUnits) : CodeUnits := [0x0a].intercalate lines

structure Fence where
  language : CodeUnits
  source : CodeUnits
  next : List CodeUnits
  deriving DecidableEq

def closing (marker : UInt16) (length : Nat) (line : CodeUnits) : Bool :=
  let text := line.dropWhile isSpace
  length ≤ (text.takeWhile (· == marker)).length && (text.dropWhile (· == marker)).all isSpace

def fencedCodeAt (line : CodeUnits) (rest : List CodeUnits) : Option Fence :=
  match line.dropWhile isSpace with
  | [] => none
  | marker :: text =>
    let length := (text.takeWhile (· == marker)).length + 1
    let info := text.dropWhile (· == marker)
    if (marker = 0x60 ∨ marker = 0x7e) ∧ 3 ≤ length ∧ plain info then
      some {
        language := (trim info).takeWhile (!isSpace ·)
        source := joined (rest.takeWhile (!closing marker length ·))
        next := (rest.dropWhile (!closing marker length ·)).tail }
    else none

variable {line : CodeUnits} {rest : List CodeUnits}

theorem fencedCodeAt_next {fence : Fence} (found : fencedCodeAt line rest = some fence) :
    fence.next.length ≤ rest.length := by
  unfold fencedCodeAt at found
  split at found
  · cases found
  · obtain ⟨_, same⟩ := Option.ite_none_right_eq_some.mp found
    cases same
    rw [List.length_tail]
    exact Nat.le_trans (Nat.sub_le ..) (List.length_dropWhile_le ..)

section
variable (lower : CodePoint → CodeUnits)

def isMermaidLanguage (language : CodeUnits) : Bool := toLowerCase lower language = ascii "mermaid"

/-- The loop of `extractMermaidDiagrams`. -/
def extractFrom : List CodeUnits → List CodeUnits
  | [] => []
  | line :: rest =>
    match _found : fencedCodeAt line rest with
    | none => extractFrom rest
    | some fence => (if isMermaidLanguage lower fence.language then [fence.source] else []) ++ extractFrom fence.next
  termination_by lines => lines.length
  decreasing_by
    · exact Nat.lt_succ_self _
    · exact Nat.lt_succ_of_le (fencedCodeAt_next _found)

def extractMermaidDiagrams (source : CodeUnits) : List CodeUnits := extractFrom lower (source.splitOn 0x0a)

end

inductive Block where
  | fence (fence : Fence)
  | math (expression : CodeUnits)
  | formula (lines : List CodeUnits)
  | heading (level : Nat) (text : CodeUnits)
  | rule
  | quote (lines : List CodeUnits)
  | list (start : Option CodeUnits) (items : List CodeUnits)
  | table (rows : List CodeUnits)
  | blank
  | text (line : CodeUnits)
  deriving DecidableEq

/-- The opener and the closer of a formula. -/
def mathMarks : List (CodeUnits × CodeUnits) := [(ascii "$$", ascii "$$"), (ascii "\\[", ascii "\\]")]

def mathAt (line : CodeUnits) (rest : List CodeUnits) : Option (Block × List CodeUnits) :=
  (mathMarks.find? fun marks => marks.1.isPrefixOf (trim line)).bind fun (opener, closer) =>
    let expression := ((trim line).drop 2).dropLast.dropLast
    if closer.isSuffixOf (trim line) ∧ 4 < (trim line).length ∧ plain expression then some (.math expression, rest)
    else if trim line = opener then
      some (.formula (rest.takeWhile (trim · ≠ closer)), (rest.dropWhile (trim · ≠ closer)).tail)
    else none

/-- `\s+(.*)$`. -/
def spacedText (text : CodeUnits) : Option CodeUnits :=
  if text.head?.any isSpace ∧ plain (text.dropWhile isSpace) then some (text.dropWhile isSpace) else none

def headingAt (line : CodeUnits) (rest : List CodeUnits) : Option (Block × List CodeUnits) :=
  let level := (line.takeWhile (· == 0x23)).length
  if 1 ≤ level ∧ level ≤ 4 then (spacedText (line.drop level)).map fun text => (.heading level text, rest) else none

def ruleAt (line : CodeUnits) (rest : List CodeUnits) : Option (Block × List CodeUnits) :=
  if 3 ≤ (trim line).length ∧ ((trim line).all (· == 0x2d) ∨ (trim line).all (· == 0x2a)) then some (.rule, rest) else none

def isQuote (line : CodeUnits) : Bool := (line.dropWhile isSpace).head? = some 0x3e

/-- `replace(/^\s*>\s?/, "")`. -/
def unquoted (line : CodeUnits) : CodeUnits :=
  let text := (line.dropWhile isSpace).tail
  if text.head?.any isSpace then text.tail else text

def quoteAt (line : CodeUnits) (rest : List CodeUnits) : Option (Block × List CodeUnits) :=
  if isQuote line then some (.quote ((line :: rest.takeWhile isQuote).map unquoted), rest.dropWhile isQuote) else none

def bulletItem (line : CodeUnits) : Option CodeUnits :=
  match line.dropWhile isSpace with
  | [] => none
  | mark :: text => if mark = 0x2d ∨ mark = 0x2a ∨ mark = 0x2b then spacedText text else none

def itemNumber (line : CodeUnits) : CodeUnits := (line.dropWhile isSpace).takeWhile isDigit

def orderedItem (line : CodeUnits) : Option CodeUnits :=
  match itemNumber line, (line.dropWhile isSpace).dropWhile isDigit with
  | _ :: _, mark :: text => if mark = 0x2e ∨ mark = 0x29 then spacedText text else none
  | _, _ => none

/-- `/^\s{2,}\S/`. -/
def isContinuation (line : CodeUnits) : Bool := 2 ≤ (line.takeWhile isSpace).length && !blank line

def listItems (item : CodeUnits → Option CodeUnits) (items : List CodeUnits) :
    List CodeUnits → List CodeUnits × List CodeUnits
  | [] => (items, [])
  | line :: rest =>
    match item line with
    | some text => listItems item (items ++ [text]) rest
    | none =>
      if isContinuation line ∧ items ≠ [] then listItems item (items.modifyLast (· ++ 0x0a :: trim line)) rest
      else if blank line then
        if (rest.dropWhile blank).head?.any fun next => (item next).isSome then listItems item items (rest.dropWhile blank)
        else (items, line :: rest)
      else (items, line :: rest)
  termination_by lines => lines.length
  decreasing_by
    · exact Nat.lt_succ_self _
    · exact Nat.lt_succ_self _
    · exact Nat.lt_succ_of_le (List.length_dropWhile_le ..)

def listAt (line : CodeUnits) (rest : List CodeUnits) : Option (Block × List CodeUnits) :=
  if (orderedItem line).isSome then
    let (items, next) := listItems orderedItem [] (line :: rest)
    some (.list (some (itemNumber line)) items, next)
  else if (bulletItem line).isSome then
    let (items, next) := listItems bulletItem [] (line :: rest)
    some (.list none items, next)
  else none

/-- `/^\s*\|.*\|\s*$/`. -/
def isRow (line : CodeUnits) : Bool :=
  (trim line).head? = some 0x7c && (trim line).getLast? = some 0x7c && 2 ≤ (trim line).length && plain (trim line)

/-- `/^\s*\|[\s:|-]+\|\s*$/`. -/
def isSeparator (line : CodeUnits) : Bool :=
  (trim line).head? = some 0x7c && (trim line).getLast? = some 0x7c && 3 ≤ (trim line).length &&
    (trim line).all fun u => isSpace u || u = 0x3a || u = 0x7c || u = 0x2d

def tableAt (line : CodeUnits) (rest : List CodeUnits) : Option (Block × List CodeUnits) :=
  if isRow line ∧ rest.head?.any isSeparator then some (.table (line :: rest.takeWhile isRow), rest.dropWhile isRow) else none

/-- What the loop of the renderer makes of the lines from one on, which opens no fence. -/
def otherBlockAt (line : CodeUnits) (rest : List CodeUnits) : Block × List CodeUnits :=
  ([mathAt, headingAt, ruleAt, quoteAt, listAt, tableAt].findSome? fun recognise => recognise line rest).getD
    (if blank line then .blank else .text line, rest)

def blockAt (line : CodeUnits) (rest : List CodeUnits) : Block × List CodeUnits :=
  match fencedCodeAt line rest with
  | some fence => (.fence fence, fence.next)
  | none => otherBlockAt line rest

theorem listItems_next (item : CodeUnits → Option CodeUnits) (items lines : List CodeUnits) :
    (listItems item items lines).2.length ≤ lines.length := by
  fun_induction listItems item items lines with
  | case1 items => exact Nat.le_refl _
  | case2 items line rest text found ih => exact Nat.le_succ_of_le ih
  | case3 items line rest none continues ih => exact Nat.le_succ_of_le ih
  | case4 items line rest none new blank more ih =>
    exact Nat.le_succ_of_le (Nat.le_trans ih (List.length_dropWhile_le ..))
  | case5 items line rest none new blank last => exact Nat.le_refl _
  | case6 items line rest none new text => exact Nat.le_refl _

theorem listItems_first {item : CodeUnits → Option CodeUnits} (some : (item line).isSome = true)
    (rest : List CodeUnits) : (listItems item [] (line :: rest)).2.length ≤ rest.length := by
  obtain ⟨text, found⟩ := Option.isSome_iff_exists.mp some
  rw [listItems, found]
  exact listItems_next item _ rest

/-- Lists and formulas may run over lines that the scan for fences opens a fence at. -/
def Block.overruns : Block → Bool
  | .formula _ => true
  | .list _ _ => true
  | _ => false

/-- How far a block reaches that is no fence. -/
inductive Extent (line : CodeUnits) (rest : List CodeUnits) : Block × List CodeUnits → Prop
  | line {block : Block} (other : ∀ fence, block ≠ .fence fence) : Extent line rest (block, rest)
  | lines {block : Block} (other : ∀ fence, block ≠ .fence fence) (p : CodeUnits → Bool)
    (apart : ∀ text more, p text = true → fencedCodeAt text more = none) : Extent line rest (block, rest.dropWhile p)
  | overruns {block : Block} (overruns : block.overruns = true) {next : List CodeUnits} (shorter : next.length ≤ rest.length) :
    Extent line rest (block, next)

variable {mark : UInt16}

theorem fencedCodeAt_apart (starts : (line.dropWhile isSpace).head? = some mark) (tick : mark ≠ 0x60)
    (tilde : mark ≠ 0x7e) (rest : List CodeUnits) : fencedCodeAt line rest = none := by
  unfold fencedCodeAt
  cases text : line.dropWhile isSpace with
  | nil => rfl
  | cons marker more =>
    rw [text] at starts
    cases starts
    exact if_neg fun opens => opens.1.elim tick tilde

theorem isQuote_apart (line : CodeUnits) (rest : List CodeUnits) (quote : isQuote line = true) :
    fencedCodeAt line rest = none :=
  fencedCodeAt_apart (of_decide_eq_true quote) (by decide) (by decide) rest

theorem head?_trim (starts : (trim line).head? = some mark) : (line.dropWhile isSpace).head? = some mark := by
  unfold trim at starts
  have prefixed : ((line.dropWhile isSpace).reverse.dropWhile isSpace).reverse <+: line.dropWhile isSpace := by
    rw [← List.reverse_suffix, List.reverse_reverse]
    exact List.dropWhile_suffix _
  obtain ⟨tail, same⟩ := prefixed
  rw [← same, List.head?_append, starts]
  rfl

theorem isRow_apart (line : CodeUnits) (rest : List CodeUnits) (row : isRow line = true) : fencedCodeAt line rest = none := by
  simp only [isRow, Bool.and_eq_true, decide_eq_true_eq] at row
  exact fencedCodeAt_apart (head?_trim row.1.1.1) (by decide) (by decide) rest

variable {found : Block × List CodeUnits}

theorem mathAt_extent (some : mathAt line rest = some found) : Extent line rest found := by
  obtain ⟨⟨opener, closer⟩, _, some⟩ := Option.bind_eq_some_iff.mp some
  dsimp only at some
  split_ifs at some with sameLine multi
  · cases some
    exact .line nofun
  · cases some
    refine .overruns rfl ?_
    rw [List.length_tail]
    exact Nat.le_trans (Nat.sub_le ..) (List.length_dropWhile_le ..)

theorem listAt_extent (some : listAt line rest = some found) : Extent line rest found := by
  unfold listAt at some
  split_ifs at some with ordered bulleted
  · cases some
    exact .overruns rfl (listItems_first ordered rest)
  · cases some
    exact .overruns rfl (listItems_first bulleted rest)

theorem otherBlockAt_extent (line : CodeUnits) (rest : List CodeUnits) : Extent line rest (otherBlockAt line rest) := by
  unfold otherBlockAt
  cases recognised : [mathAt, headingAt, ruleAt, quoteAt, listAt, tableAt].findSome? fun recognise => recognise line rest with
  | none =>
    rw [Option.getD_none]
    refine .line fun fence => ?_
    split_ifs <;> nofun
  | some found =>
    obtain ⟨recognise, mem, found⟩ := List.exists_of_findSome?_eq_some recognised
    simp only [List.mem_cons, List.not_mem_nil, or_false] at mem
    rcases mem with rfl | rfl | rfl | rfl | rfl | rfl
    · exact mathAt_extent found
    · obtain ⟨_, found⟩ := Option.ite_none_right_eq_some.mp found
      obtain ⟨text, _, rfl⟩ := Option.map_eq_some_iff.mp found
      exact .line nofun
    · obtain ⟨_, found⟩ := Option.ite_none_right_eq_some.mp found
      cases found
      exact .line nofun
    · obtain ⟨_, found⟩ := Option.ite_none_right_eq_some.mp found
      cases found
      exact .lines (by nofun) isQuote isQuote_apart
    · exact listAt_extent found
    · obtain ⟨_, found⟩ := Option.ite_none_right_eq_some.mp found
      cases found
      exact .lines (by nofun) isRow isRow_apart

theorem blockAt_next (line : CodeUnits) (rest : List CodeUnits) : (blockAt line rest).2.length ≤ rest.length := by
  unfold blockAt
  split
  next found => exact fencedCodeAt_next found
  next =>
    cases h : otherBlockAt line rest with
    | mk block next =>
    have extent := otherBlockAt_extent line rest
    rw [h] at extent
    cases extent with
    | line => exact Nat.le_refl _
    | lines => exact List.length_dropWhile_le ..
    | overruns _ shorter => exact shorter

/-- What is pushed to the output. A diagram is the result that the table of results holds at its number. -/
inductive Element where
  | paragraph (lines : List CodeUnits)
  | diagram (source : CodeUnits) (index : Nat)
  | block (block : Block)

structure Rendering where
  out : List Element := []
  mermaidIndex : Nat := 0
  para : List CodeUnits := []

def Rendering.flushPara (r : Rendering) : Rendering :=
  if r.para = [] then r else { r with out := r.out ++ [.paragraph r.para], para := [] }

def Rendering.push (r : Rendering) (element : Element) : Rendering := { r with out := r.out ++ [element] }

section
variable (lower : CodePoint → CodeUnits) (enableMermaid : Bool)

/-- One pass of the loop. -/
def Rendering.add (r : Rendering) : Block → Rendering
  | .text line => { r with para := r.para ++ [line] }
  | .blank => r.flushPara
  | .fence fence =>
    if enableMermaid ∧ isMermaidLanguage lower fence.language then
      { r.flushPara.push (.diagram fence.source r.mermaidIndex) with mermaidIndex := r.mermaidIndex + 1 }
    else r.flushPara.push (.block (.fence fence))
  | block => r.flushPara.push (.block block)

def renderFrom (r : Rendering) : List CodeUnits → Rendering
  | [] => r.flushPara
  | line :: rest => renderFrom (r.add lower enableMermaid (blockAt line rest).1) (blockAt line rest).2
  termination_by lines => lines.length
  decreasing_by exact Nat.lt_succ_of_le (blockAt_next line rest)

def renderSanitizedMarkdown (source : CodeUnits) : List Element :=
  (renderFrom lower enableMermaid {} (source.splitOn 0x0a)).out

/-- The source that `handleRootClick` hands on for the diagram of a number. -/
def explored (source : CodeUnits) (index : Nat) : Option CodeUnits := (extractMermaidDiagrams lower source)[index]?

end

def diagrams (out : List Element) : List (CodeUnits × Nat) :=
  out.filterMap fun
    | .diagram source index => some (source, index)
    | _ => none

section
variable (lower : CodePoint → CodeUnits)

/-- The scan for fences comes from the one place to the other and finds no diagram on the way. -/
inductive Passes : List CodeUnits → List CodeUnits → Prop
  | here (lines : List CodeUnits) : Passes lines lines
  | line {line : CodeUnits} {rest next : List CodeUnits} (none : fencedCodeAt line rest = none) (later : Passes rest next) :
    Passes (line :: rest) next
  | fence {line : CodeUnits} {rest next : List CodeUnits} {fence : Fence} (found : fencedCodeAt line rest = some fence)
    (other : isMermaidLanguage lower fence.language = false) (later : Passes fence.next next) : Passes (line :: rest) next

/-- The scan for fences passes every list and every formula of several lines, from its first line to its end. -/
inductive Aligned : List CodeUnits → Prop
  | nil : Aligned []
  | block {line : CodeUnits} {rest : List CodeUnits}
    (passes : (blockAt line rest).1.overruns = true → Passes lower (line :: rest) (blockAt line rest).2)
    (later : Aligned (blockAt line rest).2) : Aligned (line :: rest)

def Block.diagrams : Block → List CodeUnits
  | .fence f => if isMermaidLanguage lower f.language then [f.source] else []
  | _ => []

end

section
variable {lower : CodePoint → CodeUnits} {line : CodeUnits} {rest next lines : List CodeUnits}

theorem extractFrom_none (none : fencedCodeAt line rest = none) : extractFrom lower (line :: rest) = extractFrom lower rest := by
  rw [extractFrom]
  split
  next => rfl
  next found => cases none.symm.trans found

theorem extractFrom_fence {fence : Fence} (found : fencedCodeAt line rest = some fence) :
    extractFrom lower (line :: rest) = (Block.fence fence).diagrams lower ++ extractFrom lower fence.next := by
  rw [extractFrom]
  split
  next none => cases none.symm.trans found
  next found' =>
    cases found.symm.trans found'
    rfl

theorem Passes.extractFrom (passes : Passes lower lines next) : extractFrom lower lines = extractFrom lower next := by
  induction passes with
  | here => rfl
  | line none later ih => rw [extractFrom_none none, ih]
  | fence found other later ih =>
    rw [extractFrom_fence found, ih, Block.diagrams, other]
    rfl

theorem passes_dropWhile {p : CodeUnits → Bool} (apart : ∀ text more, p text = true → fencedCodeAt text more = none)
    (lines : List CodeUnits) : Passes lower lines (lines.dropWhile p) := by
  induction lines with
  | nil => exact .here _
  | cons line rest ih =>
    rw [List.dropWhile_cons]
    split
    next inside => exact .line (apart line rest inside) ih
    next => exact .here _

theorem diagrams_other {block : Block} (other : ∀ fence, block ≠ .fence fence) : block.diagrams lower = [] := by
  cases block with
  | fence f => exact absurd rfl (other f)
  | _ => rfl

theorem extractFrom_block (passes : (blockAt line rest).1.overruns = true → Passes lower (line :: rest) (blockAt line rest).2) :
    extractFrom lower (line :: rest) = (blockAt line rest).1.diagrams lower ++ extractFrom lower (blockAt line rest).2 := by
  unfold blockAt at passes ⊢
  cases opens : fencedCodeAt line rest with
  | some fence => exact extractFrom_fence opens
  | none =>
    rw [opens] at passes
    have extent := otherBlockAt_extent line rest
    cases h : otherBlockAt line rest with
    | mk block next =>
    rw [h] at extent passes
    cases extent with
    | line other =>
      rw [diagrams_other other]
      exact extractFrom_none opens
    | lines other p apart =>
      rw [diagrams_other other]
      exact (Passes.line opens (passes_dropWhile apart rest)).extractFrom
    | overruns overruns =>
      have other : ∀ fence, block ≠ .fence fence := fun fence same => by
        rw [same] at overruns
        cases overruns
      rw [diagrams_other other]
      exact (passes overruns).extractFrom

theorem add_diagrams (r : Rendering) (block : Block) :
    diagrams (r.add lower true block).out = diagrams r.out ++ (block.diagrams lower).zipIdx r.mermaidIndex ∧
      (r.add lower true block).mermaidIndex = r.mermaidIndex + (block.diagrams lower).length := by
  have flushed : diagrams r.flushPara.out = diagrams r.out ∧ r.flushPara.mermaidIndex = r.mermaidIndex := by
    unfold Rendering.flushPara
    split_ifs with empty
    · exact ⟨rfl, rfl⟩
    · exact ⟨by rw [diagrams, List.filterMap_append]; exact List.append_nil _, rfl⟩
  have pushed (element : Element) : diagrams (r.flushPara.push element).out = diagrams r.out ++ diagrams [element] := by
    rw [← flushed.1]
    exact List.filterMap_append ..
  cases block with
  | fence f =>
    simp only [Rendering.add, Block.diagrams, true_and]
    split_ifs with mermaid
    · exact ⟨pushed _, rfl⟩
    · exact ⟨pushed _, flushed.2⟩
  | blank => exact ⟨flushed.1.trans (List.append_nil _).symm, flushed.2⟩
  | text line => exact ⟨(List.append_nil _).symm, rfl⟩
  | _ => exact ⟨pushed _, flushed.2⟩

theorem renderFrom_diagrams (aligned : Aligned lower lines) (r : Rendering) :
    diagrams (renderFrom lower true r lines).out = diagrams r.out ++ (extractFrom lower lines).zipIdx r.mermaidIndex := by
  induction aligned generalizing r with
  | nil =>
    rw [renderFrom, extractFrom, List.zipIdx_nil]
    exact (@add_diagrams lower r .blank).1
  | block passes later ih =>
    obtain ⟨added, index⟩ := @add_diagrams lower r (blockAt _ _).1
    rw [renderFrom, ih, added, index, extractFrom_block passes, List.zipIdx_append, List.append_assoc]

end

/-- Where the scan for fences passes the lists and the formulas, the renderer shows the diagrams that the scan finds, in order and
numbered from zero, and each is explored as what is shown. -/
theorem rendered_diagrams (lower : CodePoint → CodeUnits) (source : CodeUnits) (aligned : Aligned lower (source.splitOn 0x0a)) :
    diagrams (renderSanitizedMarkdown lower true source) = (extractMermaidDiagrams lower source).zipIdx ∧
      ∀ d ∈ diagrams (renderSanitizedMarkdown lower true source), explored lower source d.2 = some d.1 := by
  have same : diagrams (renderSanitizedMarkdown lower true source) = (extractMermaidDiagrams lower source).zipIdx :=
    renderFrom_diagrams aligned {}
  refine ⟨same, fun d mem => ?_⟩
  rw [same] at mem
  exact List.mk_mem_zipIdx_iff_getElem?.mp mem

def asciiLower (p : CodePoint) : CodeUnits := p.units.map fun u => if 0x41 ≤ u ∧ u ≤ 0x5a then u + 0x20 else u

def codeInItem : CodeUnits := ascii "- a\n  ```js\n  ```\n```Mermaid\nx\n```"

theorem codeInItem_aligned : Aligned asciiLower (codeInItem.splitOn 0x0a) := by
  have lines : codeInItem.splitOn 0x0a =
      [ascii "- a", ascii "  ```js", ascii "  ```", ascii "```Mermaid", ascii "x", ascii "```"] := by decide +kernel
  have item : (blockAt (ascii "- a") [ascii "  ```js", ascii "  ```", ascii "```Mermaid", ascii "x", ascii "```"]).2 =
      [ascii "```Mermaid", ascii "x", ascii "```"] := by decide +kernel
  have fence : blockAt (ascii "```Mermaid") [ascii "x", ascii "```"] = (.fence ⟨ascii "Mermaid", ascii "x", []⟩, []) := by
    decide +kernel
  have code : fencedCodeAt (ascii "  ```js") [ascii "  ```", ascii "```Mermaid", ascii "x", ascii "```"] =
      some ⟨ascii "js", [], [ascii "```Mermaid", ascii "x", ascii "```"]⟩ := by decide +kernel
  rw [lines]
  refine .block (fun _ => ?_) ?_
  · rw [item]
    exact .line (by decide +kernel) (.fence code (by decide +kernel) (.here _))
  · rw [item]
    refine .block ?_ ?_
    · rw [fence]
      nofun
    · rw [fence]
      exact .nil

theorem rendered_diagrams_behind_item : Aligned asciiLower (codeInItem.splitOn 0x0a) ∧
      diagrams (renderSanitizedMarkdown asciiLower true codeInItem) = [(ascii "x", 0)] :=
  ⟨codeInItem_aligned, (rendered_diagrams asciiLower codeInItem codeInItem_aligned).1.trans (by decide +kernel)⟩

def diagramInItem : CodeUnits := ascii "- a\n  ```mermaid\n  x\n  ```"

theorem diagramInItem_hidden : extractMermaidDiagrams asciiLower diagramInItem = [ascii "  x"] ∧
      diagrams (renderSanitizedMarkdown asciiLower true diagramInItem) = [] := by
  constructor <;> decide +kernel

end MarkdownRenderer
