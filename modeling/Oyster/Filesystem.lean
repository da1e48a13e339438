import Oyster.OrderedMap

/-! A file system as its calls show it: entries under paths from the root,
symbolic links that are followed a bounded number of times, and calls that the
system can refuse for reasons of its own. A change keeps the list of the entries
it put in place and of those it took away. -/
namespace Filesystem

abbrev Name := List Char

/-- The names from the root downwards. -/
abbrev Path := List Name

structure Link where
  absolute : Bool
  names : List Name
  deriving DecidableEq

structure File where
  content : List UInt8
  modified : Nat
  deriving DecidableEq

inductive Node where
  | dir
  | file (file : File)
  | link (target : Link)
  | special
  deriving DecidableEq

inductive Fault where
  | noEntry
  | notDirectory
  | isDirectory
  | present
  | loop
  | other
  deriving DecidableEq

/-- The entries of all directories, in the order in which they are listed. -/
abbrev Disk := OrderedMap Path Node

namespace Disk

def node (disk : Disk) (path : Path) : Option Node :=
  if path = [] then some .dir else disk.get path

@[simp] theorem node_root (disk : Disk) : Disk.node disk [] = some .dir := if_pos rfl

def put (disk : Disk) (path : Path) (node : Node) : Disk := disk.set path node

def remove (disk : Disk) (path : Path) : Disk := disk.delete path

def children (disk : Disk) (path : Path) : List (Name × Node) :=
  disk.entries.filterMap fun (place, node) =>
    match place.getLast? with
    | some name => if place.dropLast = path then some (name, node) else none
    | none => none

variable {path : Path}

variable {other : Path}

end Disk

/-- The names that stand for an entry of their own. -/
def proper (name : Name) : Bool := name ≠ [] ∧ name ≠ ['.'] ∧ name ≠ ['.', '.']

/-- One name after the other, with `follow` for what comes after a link. -/
def walkNames (disk : Disk) (follow : Path → List Name → Except Fault Path) : Path → List Name → Except Fault Path
  | here, [] => .ok here
  | here, name :: rest =>
    if Disk.node disk here ≠ some .dir then .error .notDirectory
    else if proper name then
      match Disk.node disk (here ++ [name]) with
      | none => .error .noEntry
      | some (.link target) => follow (if target.absolute then [] else here) (target.names ++ rest)
      | some _ => walkNames disk follow (here ++ [name]) rest
    else walkNames disk follow (if name = ['.', '.'] then here.dropLast else here) rest

/-- The entry that the names lead to from a directory, through at most `links` links. -/
def walk (disk : Disk) : Nat → Path → List Name → Except Fault Path
  | 0 => walkNames disk fun _ _ => .error .loop
  | links + 1 => walkNames disk (walk disk links)

inductive Real (disk : Disk) : Path → Prop
  | root : Real disk []
  | child {path : Path} {name : Name} {node : Node} (above : Real disk path)
      (holds : Disk.node disk path = some .dir) (named : proper name = true)
      (there : Disk.node disk (path ++ [name]) = some node) (noLink : ∀ target, node ≠ .link target) :
      Real disk (path ++ [name])

section Walk
variable {disk : Disk}

@[simp] theorem walk_nil (links : Nat) (here : Path) : walk disk links here [] = .ok here := by
  cases links <;> rfl

variable {links : Nat} {here : Path} {name : Name} {rest : List Name}

theorem walk_outside (outside : Disk.node disk here ≠ some .dir) :
    walk disk links here (name :: rest) = .error .notDirectory := by
  cases links <;> exact if_pos outside

theorem walk_improper (inside : Disk.node disk here = some .dir) (improper : proper name = false) :
    walk disk links here (name :: rest) =
      walk disk links (if name = ['.', '.'] then here.dropLast else here) rest := by
  cases links <;> simp [walk, walkNames, inside, improper]

theorem walk_missing (inside : Disk.node disk here = some .dir) (named : proper name = true)
    (missing : Disk.node disk (here ++ [name]) = none) : walk disk links here (name :: rest) = .error .noEntry := by
  cases links <;> simp [walk, walkNames, inside, named, missing]

theorem walk_entry {node : Node} (inside : Disk.node disk here = some .dir) (named : proper name = true)
    (there : Disk.node disk (here ++ [name]) = some node) (noLink : ∀ target, node ≠ .link target) :
    walk disk links here (name :: rest) = walk disk links (here ++ [name]) rest := by
  cases node with
  | link target => exact absurd rfl (noLink target)
  | _ => cases links <;> simp [walk, walkNames, inside, named, there]

variable {target : Link}

theorem walk_link_zero (inside : Disk.node disk here = some .dir) (named : proper name = true)
    (there : Disk.node disk (here ++ [name]) = some (.link target)) :
    walk disk 0 here (name :: rest) = .error .loop := by
  simp [walk, walkNames, inside, named, there]

theorem walk_link (inside : Disk.node disk here = some .dir) (named : proper name = true)
    (there : Disk.node disk (here ++ [name]) = some (.link target)) : walk disk (links + 1) here (name :: rest) =
      walk disk links (if target.absolute then [] else here) (target.names ++ rest) := by
  simp [walk, walkNames, inside, named, there]

inductive First (disk : Disk) (here : Path) (name : Name) : Prop
  | outside (outside : Disk.node disk here ≠ some .dir)
  | improper (inside : Disk.node disk here = some .dir) (improper : proper name = false)
  | missing (inside : Disk.node disk here = some .dir) (named : proper name = true)
      (missing : Disk.node disk (here ++ [name]) = none)
  | entry (node : Node) (inside : Disk.node disk here = some .dir) (named : proper name = true)
      (there : Disk.node disk (here ++ [name]) = some node) (noLink : ∀ target, node ≠ .link target)
  | link (target : Link) (inside : Disk.node disk here = some .dir) (named : proper name = true)
      (there : Disk.node disk (here ++ [name]) = some (.link target))

theorem first (disk : Disk) (here : Path) (name : Name) : First disk here name := by
  by_cases inside : Disk.node disk here = some .dir
  · cases named : proper name with
    | false => exact .improper inside named
    | true =>
      cases there : Disk.node disk (here ++ [name]) with
      | none => exact .missing inside named there
      | some node =>
        cases node with
        | link target => exact .link target inside named there
        | dir => exact .entry .dir inside named there (by simp)
        | file file => exact .entry (.file file) inside named there (by simp)
        | special => exact .entry .special inside named there (by simp)
  · exact .outside inside

theorem walk_induction {motive : Nat → Path → List Name → Prop} (nil : ∀ links here, motive links here [])
    (cons : ∀ links here name rest, (∀ here', motive links here' rest) →
      (∀ fewer here' names, links = fewer + 1 → motive fewer here' names) →
      motive links here (name :: rest))
    (links : Nat) (here : Path) (names : List Name) : motive links here names := by
  induction links generalizing here names with
  | zero =>
    induction names generalizing here with
    | nil => exact nil 0 here
    | cons name rest ih => exact cons 0 here name rest ih fun _ _ _ none => by simp at none
  | succ fewer inner =>
    induction names generalizing here with
    | nil => exact nil (fewer + 1) here
    | cons name rest ih =>
      refine cons (fewer + 1) here name rest ih fun less here' names same => ?_
      cases same
      exact inner here' names

variable {names : List Name} {result : Except Fault Path}

theorem walk_mono (h : walk disk links here names = result) (ended : result ≠ .error .loop) (more : Nat) :
    walk disk (links + more) here names = result := by
  induction links, here, names using walk_induction with
  | nil links here =>
    rw [walk_nil] at h ⊢
    exact h
  | cons links here name rest ih inner =>
    cases first disk here name with
    | outside outside =>
      rw [walk_outside outside] at h ⊢
      exact h
    | improper inside improper =>
      rw [walk_improper inside improper] at h ⊢
      exact ih _ h
    | missing inside named missing =>
      rw [walk_missing inside named missing] at h ⊢
      exact h
    | entry node inside named there noLink =>
      rw [walk_entry inside named there noLink] at h ⊢
      exact ih _ h
    | link target inside named there =>
      cases links with
      | zero =>
        rw [walk_link_zero inside named there] at h
        exact absurd h.symm ended
      | succ fewer =>
        rw [walk_link inside named there] at h
        rw [Nat.add_right_comm, walk_link inside named there]
        exact inner fewer _ _ rfl h

variable {reached : Path}

theorem walk_append {more : Nat} (h : walk disk links here names = .ok reached)
    (next : walk disk more reached rest = result) (ended : result ≠ .error .loop) :
    walk disk (links + more) here (names ++ rest) = result := by
  induction links, here, names using walk_induction with
  | nil links here =>
    rw [walk_nil] at h
    cases h
    rw [List.nil_append, Nat.add_comm]
    exact walk_mono next ended links
  | cons links here name tail ih inner =>
    rw [List.cons_append]
    cases first disk here name with
    | outside outside =>
      rw [walk_outside outside] at h
      cases h
    | improper inside improper =>
      rw [walk_improper inside improper] at h ⊢
      exact ih _ h
    | missing inside named missing =>
      rw [walk_missing inside named missing] at h
      cases h
    | entry node inside named there noLink =>
      rw [walk_entry inside named there noLink] at h ⊢
      exact ih _ h
    | link target inside named there =>
      cases links with
      | zero =>
        rw [walk_link_zero inside named there] at h
        cases h
      | succ fewer =>
        rw [walk_link inside named there] at h
        rw [Nat.add_right_comm, walk_link inside named there, ← List.append_assoc]
        exact inner fewer _ _ rfl h

theorem walk_start (h : walk disk links here (names ++ rest) = .ok reached) :
    ∃ between, walk disk links here names = .ok between := by
  induction links, here, names using walk_induction with
  | nil links here => exact ⟨here, walk_nil links here⟩
  | cons links here name tail ih inner =>
    rw [List.cons_append] at h
    cases first disk here name with
    | outside outside =>
      rw [walk_outside outside] at h
      cases h
    | improper inside improper =>
      rw [walk_improper inside improper] at h ⊢
      exact ih _ h
    | missing inside named missing =>
      rw [walk_missing inside named missing] at h
      cases h
    | entry node inside named there noLink =>
      rw [walk_entry inside named there noLink] at h ⊢
      exact ih _ h
    | link target inside named there =>
      cases links with
      | zero =>
        rw [walk_link_zero inside named there] at h
        cases h
      | succ fewer =>
        rw [walk_link inside named there, ← List.append_assoc] at h
        rw [walk_link inside named there]
        exact inner fewer _ _ rfl h

variable {path : Path}

theorem Real.above (real : Real disk path) : Real disk path.dropLast := by
  cases real with
  | root => exact .root
  | child above =>
    rw [List.dropLast_concat]
    exact above

theorem Real.proper (real : Real disk path) : ∀ name ∈ path, proper name = true := by
  induction real with
  | root => simp
  | child above holds named there noLink ih =>
    intro name mem
    rcases List.mem_append.mp mem with mem | last
    · exact ih name mem
    · obtain rfl := List.mem_singleton.mp last
      exact named

theorem Real.walk (real : Real disk path) (links : Nat) : walk disk links [] path = .ok path := by
  induction real with
  | root => exact walk_nil links []
  | child above holds named there noLink ih =>
    have last : Filesystem.walk disk 0 _ [_] = .ok _ :=
      (walk_entry holds named there noLink).trans (walk_nil 0 _)
    exact walk_append ih last (by simp)

theorem Real.walk_append (real : Real disk path) (links : Nat) (rest : List Name) :
    Filesystem.walk disk links [] (path ++ rest) = Filesystem.walk disk links path rest := by
  induction real generalizing rest with
  | root => rfl
  | child above holds named there noLink ih =>
    rw [List.append_assoc, ih, List.singleton_append]
    exact walk_entry holds named there noLink

theorem Real.keep {later : Disk} (real : Real disk path) (holds : Disk.node disk path = some .dir)
    (keeps : ∀ path, Disk.node disk path = some .dir → Disk.node later path = some .dir) : Real later path := by
  induction real with
  | root => exact .root
  | child above inside named there noLink ih =>
    exact .child (ih inside) (keeps _ inside) named (keeps _ holds) (by simp)

/-- A path that leads nowhere but to itself: real, or with a first name after a
real path that leads nowhere. -/
inductive Located (disk : Disk) : Path → Prop
  | real {path : Path} (real : Real disk path) : Located disk path
  | missing {path : Path} {name : Name} (real : Real disk path)
      (nowhere : ∀ links reached, Filesystem.walk disk links [] (path ++ [name]) ≠ .ok reached)
      (rest : Path) : Located disk (path ++ name :: rest)

theorem Located.walk (located : Located disk path) (h : walk disk links [] path = .ok reached) :
    reached = path ∧ Real disk path := by
  cases located with
  | real real =>
    rw [real.walk] at h
    exact ⟨(Except.ok.inj h).symm, real⟩
  | @missing path name real nowhere rest =>
    rw [List.append_cons] at h
    obtain ⟨between, start⟩ := walk_start h
    exact absurd start (nowhere links between)

theorem Located.above (located : Located disk path) : Located disk path.dropLast := by
  cases located with
  | real real => exact .real real.above
  | @missing path name real nowhere rest =>
    cases rest with
    | nil =>
      rw [List.dropLast_concat]
      exact .real real
    | cons next rest =>
      rw [List.dropLast_append_of_ne_nil (by simp), List.dropLast_cons_of_ne_nil (by simp)]
      exact .missing real nowhere _

end Walk

inductive Call where
  | realpath (path : Path)
  | stat (path : Path)
  | readdir (path : Path)
  | read (path : Path)
  | write (path : Path)
  | rename (source target : Path)
  | unlink (path : Path)
  | mkdir (path : Path)

/-- What the calls depend on besides the entries: `torn` gives the number of bytes
after which writing an entry fails. -/
structure Host where
  realpathLinks : Nat := 40
  links : Nat := 40
  refused : Call → Bool := fun _ => false
  torn : Path → Option Nat := fun _ => none
  directorySize : Path → Nat := fun _ => 4096
  now : Nat := 0

section Calls
variable (host : Host) (disk : Disk)

def realpath (path : Path) : Except Fault Path :=
  if host.refused (.realpath path) then .error .other else walk disk host.realpathLinks [] path

def reach (call : Call) (path : Path) : Except Fault (Path × Node) :=
  if host.refused call then .error .other
  else match walk disk host.links [] path with
    | .error fault => .error fault
    | .ok real =>
      match Disk.node disk real with
      | none => .error .noEntry
      | some node => .ok (real, node)

def stat (path : Path) : Except Fault (Path × Node) := reach host disk (.stat path) path

def openRead (path : Path) : Except Fault (Path × Node) := reach host disk (.read path) path

def readdir (path : Path) : Except Fault (Path × List (Name × Node)) :=
  match reach host disk (.readdir path) path with
  | .error fault => .error fault
  | .ok (real, node) => if node = .dir then .ok (real, Disk.children disk real) else .error .notDirectory

def Host.size (place : Path) : Node → Nat
  | .dir => host.directorySize place
  | .file file => file.content.length
  | .link _ => 0
  | .special => 0

def place (path : Path) : Except Fault Path :=
  match path.getLast? with
  | none => .error .other
  | some name =>
    if proper name then
      match walk disk host.links [] path.dropLast with
      | .error fault => .error fault
      | .ok above => if Disk.node disk above = some .dir then .ok (above ++ [name]) else .error .notDirectory
    else .error .other

end Calls

/-- `written` are the entries that were created, written or replaced. -/
structure Change where
  disk : Disk
  written : List Path := []
  removed : List Path := []
  fault : Option Fault := none

def Change.andThen (change : Change) (next : Disk → Change) : Change :=
  let result := next change.disk
  { result with
    written := change.written ++ result.written
    removed := change.removed ++ result.removed }

/-- All other entries are as they were. -/
def Change.Frames (disk : Disk) (change : Change) : Prop :=
  ∀ path, path ∉ change.written → path ∉ change.removed → Disk.node change.disk path = Disk.node disk path

inductive Opening where
  | exclusive
  | truncate
  | append

def Opening.base : Opening → Option Node → Except Fault Node
  | .exclusive, none => .ok (.file ⟨[], 0⟩)
  | .exclusive, some _ => .error .present
  | .truncate, none => .ok (.file ⟨[], 0⟩)
  | .append, none => .error .noEntry
  | _, some (.link _) => .error .loop
  | _, some .dir => .error .isDirectory
  | _, some .special => .ok .special
  | .truncate, some (.file _) => .ok (.file ⟨[], 0⟩)
  | .append, some (.file file) => .ok (.file file)

def Node.extend (bytes : List UInt8) (now : Nat) : Node → Node
  | .file held => .file ⟨held.content ++ bytes, now⟩
  | node => node

section Changes
variable (host : Host) (disk : Disk)

def write (opening : Opening) (path : Path) (bytes : List UInt8) : Change :=
  if host.refused (.write path) then { disk, fault := some .other }
  else match place host disk path with
    | .error fault => { disk, fault := some fault }
    | .ok entry =>
      match opening.base (Disk.node disk entry) with
      | .error fault => { disk, fault := some fault }
      | .ok base =>
        let part := (host.torn entry).elim bytes bytes.take
        { disk := Disk.put disk entry (base.extend part host.now)
          written := [entry]
          fault := (host.torn entry).map fun _ => .other }

def unlink (path : Path) : Change :=
  if host.refused (.unlink path) then { disk, fault := some .other }
  else match place host disk path with
    | .error fault => { disk, fault := some fault }
    | .ok entry =>
      match Disk.node disk entry with
      | none => { disk, fault := some .noEntry }
      | some .dir => { disk, fault := some .isDirectory }
      | some _ => { disk := Disk.remove disk entry, removed := [entry] }

def mkdir (path : Path) : Change :=
  if host.refused (.mkdir path) then { disk, fault := some .other }
  else match place host disk path with
    | .error fault => { disk, fault := some fault }
    | .ok entry =>
      if Disk.node disk entry = none then { disk := Disk.put disk entry .dir, written := [entry] }
      else { disk, fault := some .present }

def Disk.subtree (entry : Path) (node : Node) : List (Path × Node) :=
  if node = .dir then
    ([], node) :: disk.entries.filterMap fun (path, node) =>
      if entry <+: path ∧ path ≠ entry then some (path.drop entry.length, node) else none
  else [([], node)]

/-- What keeps an entry from taking the place of another. -/
def replaceFault (source target : Path) (node : Node) : Option Node → Option Fault
  | none => if source <+: target then some .other else none
  | some .dir =>
    if node ≠ .dir then some .isDirectory
    else if source <+: target ∨ Disk.children disk target ≠ [] then some .other else none
  | some _ => if node = .dir then some .notDirectory else none

def rename (source target : Path) : Change :=
  if host.refused (.rename source target) then { disk, fault := some .other }
  else match place host disk source, place host disk target with
    | .error fault, _ => { disk, fault := some fault }
    | _, .error fault => { disk, fault := some fault }
    | .ok source, .ok target =>
      match Disk.node disk source with
      | none => { disk, fault := some .noEntry }
      | some node =>
        match replaceFault disk source target node (Disk.node disk target) with
        | some fault => { disk, fault := some fault }
        | none =>
          let moved := Disk.subtree disk source node
          let cleared := moved.foldl (fun disk (path, _) => Disk.remove disk (source ++ path)) disk
          { disk := moved.foldl (fun disk (path, node) => Disk.put disk (target ++ path) node) cleared
            written := moved.map fun (path, _) => target ++ path
            removed := moved.map fun (path, _) => source ++ path }

end Changes

section Laws
variable {host : Host} {disk : Disk} {path real : Path} {node : Node} {call : Call}

variable {above : Path}

variable {change : Change}

/-- Directories stay. -/
def Change.KeepsDirs (disk : Disk) (change : Change) : Prop :=
  ∀ path, Disk.node disk path = some .dir → Disk.node change.disk path = some .dir

variable {next : Disk → Change}

theorem Change.KeepsDirs.andThen (first : change.KeepsDirs disk) (second : (next change.disk).KeepsDirs change.disk) :
    (change.andThen next).KeepsDirs disk :=
  fun path holds => second path (first path holds)

theorem Change.Frames.refl (disk : Disk) (fault : Option Fault) : Change.Frames disk { disk, fault } :=
  fun _ _ _ => rfl

theorem Change.Frames.andThen (first : change.Frames disk) (second : (next change.disk).Frames change.disk) :
    (change.andThen next).Frames disk := by
  intro path notWritten notRemoved
  simp only [Change.andThen, List.mem_append, not_or] at notWritten notRemoved ⊢
  rw [second path notWritten.2 notRemoved.2]
  exact first path notWritten.1 notRemoved.1

variable {source : Path} {moved : List (Path × Node)}

variable {target : Path}

/-- Whether a real directory lets one of its entries be opened for writing. -/
def opens (host : Host) (disk : Disk) (opening : Opening) (path : Path) : Bool :=
  !host.refused (.write path) && (opening.base (Disk.node disk path)).isOk

variable {opening : Opening}

end Laws
end Filesystem
