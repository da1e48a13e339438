import Oyster.Unicode

/-! Absolute paths as strings: resolving one against the root directory leaves no name that
stands for another, and so nothing to resolve again. -/
namespace PosixPath

abbrev Name := CodeUnits

def separator : UInt16 := 0x2f

def parent : Name := [0x2e, 0x2e]

/-- The name of an entry, not a stand-in for a directory on the way. -/
def proper (name : Name) : Bool := name ≠ [] ∧ name ≠ [0x2e] ∧ name ≠ parent

def resolveNames (base names : List Name) : List Name :=
  names.foldl (fun path name =>
    if name = parent then path.dropLast else if proper name then path ++ [name] else path) base

def text (names : List Name) : CodeUnits :=
  if names = [] then [separator] else [separator].intercalate ([] :: names)

def names (path : CodeUnits) : List Name := resolveNames [] (path.splitOn separator)

/-- `path.resolve` of a process whose working directory is the root. -/
def resolve (path : CodeUnits) : CodeUnits := text (names path)

def climb : List Name → List Name → List Name
  | a :: base, b :: rest =>
    if a = b then climb base rest else List.replicate (base.length + 1) parent ++ b :: rest
  | base, rest => List.replicate base.length parent ++ rest

/-- `path.relative` of the same process. -/
def relative (source target : CodeUnits) : CodeUnits := [separator].intercalate (climb (names source) (names target))

def isAbsolute (path : CodeUnits) : Bool := path.head? = some separator

theorem not_mem_splitOn {α : Type} [BEq α] [LawfulBEq α] (a : α) (xs : List α) : ∀ l ∈ xs.splitOn a, a ∉ l := by
  induction xs with
  | nil => simp
  | cons x xs ih =>
    rw [List.splitOn_cons_eq_if_modifyHead]
    split_ifs with same
    · exact List.forall_mem_cons.mpr ⟨List.not_mem_nil, ih⟩
    · cases split : xs.splitOn a with
      | nil => exact absurd split (List.splitOn_ne_nil a xs)
      | cons l ls =>
        rw [split] at ih
        obtain ⟨first, others⟩ := List.forall_mem_cons.mp ih
        refine List.forall_mem_cons.mpr ⟨fun mem => ?_, others⟩
        obtain rfl | later := List.mem_cons.mp mem
        · exact same (beq_self_eq_true a)
        · exact first later

variable {base all : List Name}

theorem mem_resolveNames {P : Name → Prop} (old : ∀ name ∈ base, P name)
    (new : ∀ name ∈ all, proper name = true → P name) : ∀ name ∈ resolveNames base all, P name := by
  induction all generalizing base with
  | nil => exact old
  | cons name all ih =>
    refine ih ?_ fun other mem => new other (List.mem_cons_of_mem _ mem)
    dsimp only
    split_ifs with up isProper
    · exact fun other mem => old other ((List.dropLast_sublist base).subset mem)
    · intro other mem
      obtain mem | last := List.mem_append.mp mem
      · exact old other mem
      · exact List.mem_singleton.mp last ▸ new name (List.mem_cons_self ..) isProper
    · exact old

theorem resolveNames_proper (h : ∀ name ∈ all, proper name = true) : resolveNames base all = base ++ all := by
  induction all generalizing base with
  | nil => exact (List.append_nil base).symm
  | cons name all ih =>
    have isProper := h name (List.mem_cons_self ..)
    have stays : name ≠ parent := by
      have parts := of_decide_eq_true isProper
      exact parts.2.2
    have onwards : resolveNames (base ++ [name]) all = base ++ [name] ++ all :=
      ih fun other mem => h other (List.mem_cons_of_mem _ mem)
    unfold resolveNames at onwards ⊢
    rw [List.foldl_cons, if_neg stays, if_pos isProper, onwards, List.append_assoc]
    rfl

theorem names_proper (path : CodeUnits) : ∀ name ∈ names path, proper name = true :=
  mem_resolveNames (fun _ absurd => nomatch absurd) fun _ _ isProper => isProper

theorem separator_not_mem (path : CodeUnits) : ∀ name ∈ names path, separator ∉ name :=
  mem_resolveNames (fun _ absurd => nomatch absurd) fun name mem _ => not_mem_splitOn separator path name mem

theorem names_resolve (path : CodeUnits) : names (resolve path) = names path := by
  have free := separator_not_mem path
  have isProper := names_proper path
  unfold resolve text
  split_ifs with root
  · rw [root]
    rfl
  · have split : ([separator].intercalate ([] :: names path)).splitOn separator = [] :: names path :=
      List.splitOn_intercalate separator (List.forall_mem_cons.mpr ⟨List.not_mem_nil, free⟩) (List.cons_ne_nil _ _)
    calc names ([separator].intercalate ([] :: names path))
        = resolveNames [] ([] :: names path) := congrArg (resolveNames []) split
      _ = resolveNames [] (names path) := rfl
      _ = names path := resolveNames_proper isProper

theorem resolve_resolve (path : CodeUnits) : resolve (resolve path) = resolve path :=
  congrArg text (names_resolve path)

theorem resolve_ne_nil (path : CodeUnits) : resolve path ≠ [] := by
  unfold resolve text
  split_ifs with root
  · exact List.cons_ne_nil _ _
  · cases split : names path with
    | nil => exact absurd split root
    | cons name rest => simp [List.intercalate]

end PosixPath
