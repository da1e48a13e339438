import Mathlib.Data.List.Basic
import Mathlib.Data.List.Infix
import Mathlib.Data.List.Nodup
import Mathlib.Data.List.Pairwise
import Mathlib.Tactic.Common
import Oyster.Unicode

/-! The tools of the configured MCP servers, under the names with which they are registered next to
Oyster's own. A name is put together from the server, the index and the tool, and cut to a length. -/
namespace McpTools

def units (text : List Char) : CodeUnits := text.map fun c => UInt16.ofNat c.toNat

def underscore : UInt16 := 0x5f

/-- `mcp_`. -/
def mcp : CodeUnits := units ['m', 'c', 'p', '_']

def connectionError : CodeUnits :=
  units ['c', 'o', 'n', 'n', 'e', 'c', 't', 'i', 'o', 'n', '_', 'e', 'r', 'r', 'o', 'r']

def MCP_TOOL_NAME_MAX_CHARS : Nat := 64

def MAX_REMOTE_TOOLS : Nat := 1000

def MAX_MCP_SERVERS : Nat := 50

def ownNames : List CodeUnits :=
  [units ['b', 'a', 's', 'h'], units ['h', 'u', 'b', 'l', 'o', 't'],
    units ['p', 'i', 'n', 'n', 'e', 'd', '_', 'w', 'i', 'd', 'g', 'e', 't'],
    units ['g', 'r', 'o', 'u', 'p', '_', 'p', 'i', 'n', 'n', 'e', 'd', '_', 'w', 'i', 'd', 'g', 'e', 't', 's'],
    units ['r', 'o', 'u', 't', 'i', 'n', 'e']]

def isLetter (c : UInt16) : Bool := (0x41 ≤ c && c ≤ 0x5a) || (0x61 ≤ c && c ≤ 0x7a)

def isNameUnit (c : UInt16) : Bool := isLetter c || (0x30 ≤ c && c ≤ 0x39) || c = underscore || c = 0x2d

/-- `/^[a-zA-Z][a-zA-Z0-9_-]{0,39}$/`, and not `oyster`. -/
structure ValidName (name : CodeUnits) : Prop where
  letter : name.head?.any isLetter = true
  units : name.all isNameUnit = true
  short : name.length ≤ 40
  notOyster : name ≠ McpTools.units ['o', 'y', 's', 't', 'e', 'r']

/-- What came of a connection: it was given up when the set was closed, it failed, or the server listed
the names of its tools, page by page. -/
inductive Connection where
  | closed
  | failed
  | listed (pages : List (List CodeUnits))

def collect (tools : List CodeUnits) : List (List CodeUnits) → List CodeUnits
  | [] => tools
  | page :: pages =>
    if (tools ++ page).length < MAX_REMOTE_TOOLS then collect (tools ++ page) pages else tools ++ page

def Connection.listing : Connection → List CodeUnits
  | .closed => []
  | .failed => []
  | .listed pages => collect [] pages

/-- A configured server. What it lists is an array, of fewer than `2 ^ 32` elements. -/
structure Server where
  name : CodeUnits
  connection : Connection
  valid : ValidName name
  fits : connection.listing.length < 2 ^ 32

structure Configuration where
  servers : List Server
  distinct : (servers.map Server.name).Nodup
  few : servers.length ≤ MAX_MCP_SERVERS

/-- A tool as it is handed to the runner: a call goes to the server, for the tool that it stands for. -/
structure RemoteTool where
  name : CodeUnits
  server : CodeUnits
  tool : Option CodeUnits

def digits (index : Nat) : CodeUnits := units (Nat.toDigits 10 index)

def toolName (server : CodeUnits) (index : Nat) (tool : CodeUnits) : CodeUnits :=
  (mcp ++ server ++ underscore :: (digits index ++ underscore :: tool)).take MCP_TOOL_NAME_MAX_CHARS

def errorName (server : CodeUnits) : CodeUnits := mcp ++ server ++ underscore :: connectionError

def Server.tools (s : Server) : List RemoteTool :=
  match s.connection with
  | .closed => []
  | .failed => [⟨errorName s.name, s.name, none⟩]
  | .listed pages => (collect [] pages).mapIdx fun index tool => ⟨toolName s.name index tool, s.name, some tool⟩

def tools (servers : List Server) : List RemoteTool := servers.flatMap Server.tools

inductive Handler where
  | own
  | remote (tool : RemoteTool)

def registerTool (registered : List (CodeUnits × Handler)) (name : CodeUnits) (handler : Handler) :
    Option (List (CodeUnits × Handler)) :=
  if name ∈ registered.map Prod.fst then none else some (registered ++ [(name, handler)])

def register (tools : List RemoteTool) : Option (List (CodeUnits × Handler)) :=
  tools.foldlM (fun registered tool => registerTool registered tool.name (.remote tool))
    (ownNames.map fun name => (name, .own))

def callTool (registered : List (CodeUnits × Handler)) (name : CodeUnits) : Option Handler :=
  (registered.find? (·.1 = name)).map Prod.snd

structure Distinguishable (servers : List Server) : Prop where
  distinct : ((tools servers).map RemoteTool.name).Nodup
  short : ∀ tool ∈ tools servers, tool.name.length ≤ MCP_TOOL_NAME_MAX_CHARS
  foreign : ∀ tool ∈ tools servers, tool.name ∉ ownNames
  reached : ∃ registered, register (tools servers) = some registered ∧
    ∀ tool ∈ tools servers, callTool registered tool.name = some (.remote tool)

def Server.ends (s : Server) : List CodeUnits :=
  match s.connection with
  | .closed => []
  | .failed => [connectionError]
  | .listed pages => (collect [] pages).mapIdx fun index tool => digits index ++ underscore :: tool

def room (server : CodeUnits) (index : Nat) : Nat :=
  MCP_TOOL_NAME_MAX_CHARS - (mcp ++ server ++ underscore :: (digits index ++ [underscore])).length

/-- The name of the second server goes on, behind the name of the first, with the index of a tool of the
first; and that tool is named, as far as there is room, as the rest of the name and an end go on. -/
def Clash (s t : Server) : Prop :=
  ∃ index tool, s.connection.listing[index]? = some tool ∧ ∃ rest, ∃ tail ∈ t.ends,
    t.name ++ [underscore] = s.name ++ underscore :: (digits index ++ underscore :: rest) ∧
      tool.take (room s.name index) = (rest ++ tail).take (room s.name index)

theorem toNat_digit {c : Char} (digit : c.isDigit = true) :
    (UInt16.ofNat c.toNat).toNat = c.toNat ∧ 0x30 ≤ c.toNat ∧ c.toNat ≤ 0x39 := by
  obtain ⟨low, high⟩ := Char.isDigit_iff_toNat.mp digit
  have high : c.toNat ≤ 0x39 := high
  refine ⟨?_, low, high⟩
  rw [UInt16.toNat_ofNat', Nat.mod_eq_of_lt (by omega)]

variable {index : Nat}

theorem of_mem_digits {u : UInt16} (mem : u ∈ digits index) : 0x30 ≤ u.toNat ∧ u.toNat ≤ 0x39 := by
  obtain ⟨c, there, rfl⟩ := List.mem_map.mp mem
  obtain ⟨same, bounds⟩ := toNat_digit (Nat.isDigit_of_mem_toDigits (by decide) (by decide) there)
  rw [same]
  exact bounds

theorem underscore_notMem_digits (index : Nat) : underscore ∉ digits index := fun mem =>
  absurd (of_mem_digits mem).2 (by decide)

variable {i j : Nat}

theorem digits_injective (same : digits i = digits j) : i = j := by
  have back : ∀ n, (digits n).map (fun u => Char.ofNat u.toNat) = Nat.toDigits 10 n := by
    intro n
    unfold digits units
    rw [List.map_map]
    refine (List.map_congr_left fun c mem => ?_).trans (List.map_id _)
    obtain ⟨same, _⟩ := toNat_digit (Nat.isDigit_of_mem_toDigits (by decide) (by decide) mem)
    rw [Function.comp_apply, same, Char.ofNat_toNat]
    rfl
  calc i = Nat.ofDigitChars 10 (Nat.toDigits 10 i) 0 := Nat.ofDigitChars_ten_toDigits.symm
    _ = Nat.ofDigitChars 10 (Nat.toDigits 10 j) 0 := by rw [← back, same, back]
    _ = j := Nat.ofDigitChars_ten_toDigits

theorem digits_ne_nil (index : Nat) : digits index ≠ [] := fun none =>
  Nat.toDigits_ne_nil (List.map_eq_nil_iff.mp none)

theorem length_digits (small : index < 2 ^ 32) : (digits index).length ≤ 10 := by
  rw [digits, units, List.length_map, Nat.length_toDigits_le_iff (by decide) (by decide)]
  omega

variable {a b : CodeUnits}

theorem index_eq {n : Nat} (left : (digits i).length ≤ n) (right : (digits j).length ≤ n)
    (same : (digits i ++ underscore :: a).take n = (digits j ++ underscore :: b).take n) : i = j := by
  have front : ∀ k (c : CodeUnits), (digits k).length ≤ n →
      ((digits k ++ underscore :: c).take n).takeWhile (· ≠ underscore) = digits k := by
    intro k c within
    rw [List.take_append, List.take_of_length_le within, List.takeWhile_append_of_pos]
    · cases n - (digits k).length <;> simp
    · intro u mem
      exact decide_eq_true fun h => underscore_notMem_digits k (h ▸ mem)
  apply digits_injective
  rw [← front i a left, same, front j b right]

def nameOf (server tail : CodeUnits) : CodeUnits := (mcp ++ server ++ underscore :: tail).take MCP_TOOL_NAME_MAX_CHARS

theorem length_front (server : CodeUnits) : (mcp ++ server ++ [underscore]).length = server.length + 5 := by
  simp only [List.length_append, List.length_singleton]
  have : mcp.length = 4 := rfl
  omega

theorem nameOf_eq (server tail : CodeUnits) (short : server.length ≤ 40) :
    nameOf server tail = mcp ++ server ++ [underscore] ++ tail.take (59 - server.length) := by
  have split : mcp ++ server ++ underscore :: tail = (mcp ++ server ++ [underscore]) ++ tail := by simp
  have length := length_front server
  rw [nameOf, split, List.take_append, List.take_of_length_le (by rw [length, MCP_TOOL_NAME_MAX_CHARS]; omega), length]
  congr 2
  rw [MCP_TOOL_NAME_MAX_CHARS]
  omega

variable {server : CodeUnits}

theorem errorName_eq (short : server.length ≤ 40) : errorName server = nameOf server connectionError := by
  rw [nameOf_eq server _ short, List.take_of_length_le]
  · simp [errorName]
  · have : connectionError.length = 16 := rfl
    omega

theorem map_name_tools (s : Server) : s.tools.map RemoteTool.name = s.ends.map (nameOf s.name) := by
  unfold Server.tools Server.ends
  cases s.connection with
  | closed => rfl
  | failed => exact congrArg (fun name => [name]) (errorName_eq s.valid.short)
  | listed pages =>
    refine List.ext_getElem (by simp) fun i _ _ => ?_
    simp only [List.getElem_map, List.getElem_mapIdx]
    rfl

variable {s : Server} {tail : CodeUnits}

theorem ends_cases (mem : tail ∈ s.ends) : (∃ index tool, s.connection.listing[index]? = some tool ∧ index < 2 ^ 32 ∧
        tail = digits index ++ underscore :: tool) ∨
      tail = connectionError ∧ s.connection = .failed := by
  have fits := s.fits
  unfold Server.ends at mem
  cases state : s.connection with
  | closed => rw [state] at mem; exact absurd mem List.not_mem_nil
  | failed => rw [state] at mem; exact .inr ⟨List.mem_singleton.mp mem, rfl⟩
  | listed pages =>
    rw [state] at mem fits
    obtain ⟨index, within, same⟩ := List.mem_mapIdx.mp mem
    exact .inl ⟨index, _, List.getElem?_eq_getElem within, within.trans fits, same.symm⟩

theorem mem_ends {tool : CodeUnits} (there : s.connection.listing[index]? = some tool) :
    digits index ++ underscore :: tool ∈ s.ends := by
  unfold Server.ends
  cases state : s.connection with
  | closed => rw [state] at there; exact absurd there (by simp [Connection.listing])
  | failed => rw [state] at there; exact absurd there (by simp [Connection.listing])
  | listed pages =>
    rw [state] at there
    obtain ⟨within, rfl⟩ := List.getElem?_eq_some_iff.mp there
    exact List.mem_mapIdx.mpr ⟨index, within, rfl⟩

theorem nodup_names (s : Server) : (s.tools.map RemoteTool.name).Nodup := by
  have short := s.valid.short
  have fits := s.fits
  rw [map_name_tools]
  unfold Server.ends
  cases state : s.connection with
  | closed => exact List.nodup_nil
  | failed => exact List.nodup_singleton _
  | listed pages =>
    rw [state] at fits
    refine List.nodup_iff_injective_getElem.mpr fun ⟨i, hi⟩ ⟨j, hj⟩ same => ?_
    simp only [List.length_map, List.length_mapIdx] at hi hj
    simp only [List.getElem_map, List.getElem_mapIdx, nameOf_eq _ _ short] at same
    have left := length_digits (hi.trans fits)
    have right := length_digits (hj.trans fits)
    have equal : i = j := index_eq (by omega) (by omega) (List.append_cancel_left same)
    exact Fin.ext equal

variable {rest : CodeUnits}

theorem nameOf_extends {other : CodeUnits} (longer : other ++ [underscore] = server ++ underscore :: rest)
    (tail : CodeUnits) : nameOf other tail = nameOf server (rest ++ tail) := by
  have whole : mcp ++ other ++ underscore :: tail = mcp ++ server ++ underscore :: (rest ++ tail) := by
    calc mcp ++ other ++ underscore :: tail = mcp ++ (other ++ [underscore]) ++ tail := by simp
      _ = mcp ++ server ++ underscore :: (rest ++ tail) := by rw [longer]; simp
  rw [nameOf, nameOf, whole]

theorem nameOf_digits (short : server.length ≤ 40) (small : index < 2 ^ 32) (tool : CodeUnits) :
    nameOf server (digits index ++ underscore :: tool) =
      mcp ++ server ++ [underscore] ++ (digits index ++ underscore :: tool.take (room server index)) := by
  have few := length_digits small
  have left : (mcp ++ server ++ underscore :: (digits index ++ [underscore])).length =
      server.length + 5 + (digits index).length + 1 := by
    have := length_front server
    simp only [List.length_append, List.length_cons, List.length_nil] at this ⊢
    omega
  rw [nameOf_eq _ _ short, List.take_append, List.take_of_length_le (by omega), room, left, MCP_TOOL_NAME_MAX_CHARS]
  obtain ⟨n, same⟩ : ∃ n, 59 - server.length - (digits index).length = n + 1 :=
    ⟨58 - server.length - (digits index).length, by omega⟩
  rw [same, List.take_succ_cons]
  congr 4
  omega

variable {t : Server}

theorem longer_extends (le : s.name.length ≤ t.name.length) (differs : s.name ≠ t.name)
    (same : nameOf s.name a = nameOf t.name b) :
    ∃ rest, rest.getLast? = some underscore ∧ t.name ++ [underscore] = s.name ++ underscore :: rest := by
  have whole : s.name ++ [underscore] ++ a.take (59 - s.name.length) =
      t.name ++ [underscore] ++ b.take (59 - t.name.length) := by
    rw [nameOf_eq _ _ s.valid.short, nameOf_eq _ _ t.valid.short] at same
    simpa using same
  have starts : t.name ++ [underscore] <+: s.name ++ [underscore] ++ a.take (59 - s.name.length) :=
    whole ▸ List.prefix_append _ _
  obtain ⟨rest, longer⟩ : s.name ++ [underscore] <+: t.name ++ [underscore] :=
    List.prefix_of_prefix_length_le (List.prefix_append _ _) starts (by simpa using le)
  refine ⟨rest, ?_, by rw [← longer]; simp⟩
  have nonempty : rest ≠ [] := by
    rintro rfl
    rw [List.append_nil] at longer
    exact differs (List.append_cancel_right longer)
  rw [← List.getLast?_append_of_ne_nil (s.name ++ [underscore]) nonempty, longer, List.getLast?_concat]

/-- What stands behind an underscore of `connection_error` is no end. -/
theorem connectionError_cut (last : rest.getLast? = some underscore) (whole : connectionError = rest ++ tail) :
    tail = units ['e', 'r', 'r', 'o', 'r'] := by
  have cut : ∀ k < 17, (connectionError.take k).getLast? = some underscore →
      connectionError.drop k = units ['e', 'r', 'r', 'o', 'r'] := by decide
  have short := congrArg List.length whole
  have length : connectionError.length = 16 := rfl
  rw [List.length_append] at short
  have taken : connectionError.take rest.length = rest := by rw [whole, List.take_left]
  have dropped : connectionError.drop rest.length = tail := by rw [whole, List.drop_left]
  exact dropped ▸ cut rest.length (by omega) (taken.symm ▸ last)

theorem error_notMem_ends (t : Server) : units ['e', 'r', 'r', 'o', 'r'] ∉ t.ends := by
  intro mem
  rcases ends_cases mem with ⟨index, tool, _, _, same⟩ | ⟨same, _⟩
  · obtain ⟨d, ds, digit⟩ := List.exists_cons_of_ne_nil (digits_ne_nil index)
    rw [digit] at same
    have bound := (of_mem_digits (digit ▸ List.mem_cons_self : d ∈ digits index)).2
    have first : UInt16.ofNat 'e'.toNat = d := (List.cons.inj same).1
    rw [← first] at bound
    exact absurd bound (by decide)
  · exact absurd same (by decide)

theorem clash_of_same (le : s.name.length ≤ t.name.length) (differs : s.name ≠ t.name) (ha : a ∈ s.ends)
    (hb : b ∈ t.ends) (same : nameOf s.name a = nameOf t.name b) : Clash s t := by
  have short := s.valid.short
  obtain ⟨rest, last, longer⟩ := longer_extends le differs same
  rw [nameOf_extends longer] at same
  have cut : a.take (59 - s.name.length) = (rest ++ b).take (59 - s.name.length) := by
    rw [nameOf_eq _ _ short, nameOf_eq _ _ short] at same
    exact List.append_cancel_left same
  have fits : rest.length ≤ 40 - s.name.length := by
    have lengths := congrArg List.length longer
    have := t.valid.short
    simp only [List.length_append, List.length_cons, List.length_nil] at lengths
    omega
  rcases ends_cases ha with ⟨index, tool, there, small, rfl⟩ | ⟨rfl, _⟩
  · have few := length_digits small
    -- The rest begins with the index and the underscore behind it.
    have number : digits index ++ [underscore] <+: rest := by
      have left : digits index ++ [underscore] <+: (rest ++ b).take (59 - s.name.length) := by
        rw [← cut]
        refine List.prefix_take_iff.mpr ⟨⟨tool, by simp⟩, ?_⟩
        rw [List.length_append, List.length_singleton]
        omega
      have right : rest <+: (rest ++ b).take (59 - s.name.length) :=
        List.prefix_take_iff.mpr ⟨List.prefix_append _ _, by omega⟩
      rcases List.prefix_or_prefix_of_prefix left right with before | behind
      · exact before
      · rcases List.prefix_concat_iff.mp behind with equal | inside
        · exact equal ▸ List.prefix_rfl
        · exact absurd (inside.subset (List.mem_of_getLast? last)) (underscore_notMem_digits index)
    obtain ⟨w, rfl⟩ := number
    refine ⟨index, tool, there, w, b, hb, by simpa using longer, ?_⟩
    have tails : digits index ++ [underscore] ++ w ++ b = digits index ++ underscore :: (w ++ b) := by simp
    rw [tails, nameOf_digits short small, nameOf_digits short small] at same
    exact (List.cons.inj (List.append_cancel_left (List.append_cancel_left same))).2
  · have length : connectionError.length = 16 := rfl
    rw [List.take_of_length_le (by omega)] at cut
    have uncut : (rest ++ b).take (59 - s.name.length) = rest ++ b := by
      have lengths := congrArg List.length cut
      rw [List.length_take] at lengths
      exact List.take_of_length_le (by omega)
    exact absurd (connectionError_cut last (cut.trans uncut) ▸ hb) (error_notMem_ends t)

theorem same_of_clash (clash : Clash s t) : ∃ a ∈ s.ends, ∃ b ∈ t.ends, nameOf s.name a = nameOf t.name b := by
  obtain ⟨index, tool, there, rest, tail, mem, longer, same⟩ := clash
  have short := s.valid.short
  have small : index < 2 ^ 32 := (List.getElem?_eq_some_iff.mp there).1.trans s.fits
  refine ⟨_, mem_ends there, tail, mem, ?_⟩
  rw [nameOf_extends longer, List.append_assoc, List.cons_append, nameOf_digits short small, nameOf_digits short small, same]

theorem Clash.differs (clash : Clash s t) : s.name ≠ t.name := by
  obtain ⟨index, tool, _, rest, tail, _, longer, _⟩ := clash
  intro same
  have lengths := congrArg List.length longer
  rw [same] at lengths
  simp at lengths

theorem nodup_tools (c : Configuration) :
    ((tools c.servers).map RemoteTool.name).Nodup ↔ ∀ s ∈ c.servers, ∀ t ∈ c.servers, ¬ Clash s t := by
  have each : (tools c.servers).map RemoteTool.name = c.servers.flatMap fun s => s.tools.map RemoteTool.name := by
    rw [tools, List.map_flatMap]
  have distinct : c.servers.Pairwise fun s t => s.name ≠ t.name := List.pairwise_map.mp c.distinct
  rw [each, List.nodup_flatMap, and_iff_right fun s _ => nodup_names s]
  constructor
  · intro apart s hs t ht clash
    have symm : Std.Symm (Function.onFun List.Disjoint fun s : Server => s.tools.map RemoteTool.name) :=
      ⟨fun _ _ h _ left right => h right left⟩
    have disjoint : List.Disjoint (s.tools.map RemoteTool.name) (t.tools.map RemoteTool.name) :=
      apart.forall hs ht fun same => clash.differs (congrArg Server.name same)
    rw [map_name_tools, map_name_tools] at disjoint
    obtain ⟨a, ha, b, hb, same⟩ := same_of_clash clash
    exact disjoint (List.mem_map_of_mem ha) (same ▸ List.mem_map_of_mem hb)
  · intro free
    refine distinct.imp_of_mem fun {s t} hs ht differs name left right => ?_
    dsimp only at left right
    rw [map_name_tools] at left right
    obtain ⟨a, ha, rfl⟩ := List.mem_map.mp left
    obtain ⟨b, hb, same⟩ := List.mem_map.mp right
    rcases Nat.le_total s.name.length t.name.length with le | le
    · exact free s hs t ht (clash_of_same le differs ha hb same.symm)
    · exact free t ht s hs (clash_of_same le differs.symm hb ha same)

variable {servers : List Server} {tool : RemoteTool}

theorem name_of_mem (mem : tool ∈ tools servers) : ∃ s ∈ servers, ∃ tail, tool.name = nameOf s.name tail := by
  obtain ⟨s, hs, mem⟩ := List.mem_flatMap.mp mem
  have named := List.mem_map_of_mem (f := RemoteTool.name) mem
  rw [map_name_tools] at named
  obtain ⟨tail, _, same⟩ := List.mem_map.mp named
  exact ⟨s, hs, tail, same.symm⟩

theorem short_name (mem : tool ∈ tools servers) : tool.name.length ≤ MCP_TOOL_NAME_MAX_CHARS := by
  obtain ⟨s, _, tail, same⟩ := name_of_mem mem
  rw [same]
  exact List.length_take_le _ _

theorem foreign_name (mem : tool ∈ tools servers) : tool.name ∉ ownNames := by
  obtain ⟨s, _, tail, same⟩ := name_of_mem mem
  have starts : mcp <+: tool.name := by
    rw [same, nameOf_eq _ _ s.valid.short]
    simp
  have own : ∀ name ∈ ownNames, ¬ mcp <+: name := by decide
  exact fun mem => own _ mem starts

variable {registered : List (CodeUnits × Handler)}

theorem foldlM_register {tools : List RemoteTool}
    (distinct : (registered.map Prod.fst ++ tools.map RemoteTool.name).Nodup) :
    tools.foldlM (fun registered tool => registerTool registered tool.name (.remote tool)) registered =
      some (registered ++ tools.map fun tool => (tool.name, .remote tool)) := by
  induction tools generalizing registered with
  | nil => simp
  | cons tool tools ih =>
    have new : tool.name ∉ registered.map Prod.fst := fun mem =>
      (List.nodup_append.mp distinct).2.2 _ mem _ (by simp) rfl
    rw [List.foldlM_cons, registerTool, if_neg new]
    show tools.foldlM _ (registered ++ [(tool.name, Handler.remote tool)]) = _
    rw [ih (by simpa using distinct)]
    simp

theorem callTool_eq (distinct : (registered.map Prod.fst).Nodup) {name : CodeUnits} {handler : Handler}
    (mem : (name, handler) ∈ registered) : callTool registered name = some handler := by
  unfold callTool
  cases found : registered.find? (·.1 = name) with
  | none => exact absurd mem (fun h => by simpa using List.find?_eq_none.mp found _ h)
  | some entry =>
    have same : entry.1 = name := by simpa using List.find?_some found
    have equal := List.inj_on_of_nodup_map distinct (List.mem_of_find?_eq_some found) mem same
    rw [equal]
    rfl

theorem reached_of_nodup (distinct : ((tools servers).map RemoteTool.name).Nodup) :
    ∃ registered, register (tools servers) = some registered ∧
      ∀ tool ∈ tools servers, callTool registered tool.name = some (.remote tool) := by
  have own : (ownNames.map fun name => (name, Handler.own)).map Prod.fst = ownNames := by
    rw [List.map_map]
    exact List.map_id _
  have all : (ownNames ++ (tools servers).map RemoteTool.name).Nodup := by
    refine List.nodup_append.mpr ⟨by decide, distinct, fun name mine other its same => ?_⟩
    obtain ⟨tool, mem, rfl⟩ := List.mem_map.mp its
    exact foreign_name mem (same ▸ mine)
  refine ⟨_, foldlM_register (by rw [own]; exact all), fun tool mem => callTool_eq ?_ ?_⟩
  · rw [List.map_append, own, List.map_map]
    exact all
  · exact List.mem_append_right _ (List.mem_map_of_mem mem)

/-- The tools are distinguishable exactly when no two servers clash. -/
theorem tools_distinguishable (c : Configuration) :
    Distinguishable c.servers ↔ ∀ s ∈ c.servers, ∀ t ∈ c.servers, ¬ Clash s t := by
  rw [← nodup_tools]
  exact ⟨Distinguishable.distinct, fun distinct =>
    ⟨distinct, fun _ => short_name, fun _ => foreign_name, reached_of_nodup distinct⟩⟩

/-- The servers `a` and `a_0`, of which the first lists `0_x` and the second `x`. -/
def ambiguous : Configuration where
  servers := [⟨[0x61], .listed [[[0x30, 0x5f, 0x78]]], ⟨rfl, rfl, by decide, by decide⟩, by decide⟩,
    ⟨[0x61, 0x5f, 0x30], .listed [[[0x78]]], ⟨rfl, rfl, by decide, by decide⟩, by decide⟩]
  distinct := by decide
  few := by decide

/-- Both of their tools are named `mcp_a_0_0_x`. -/
theorem ambiguous_registration : (tools ambiguous.servers).map RemoteTool.name =
        [units ['m', 'c', 'p', '_', 'a', '_', '0', '_', '0', '_', 'x'], units ['m', 'c', 'p', '_', 'a', '_', '0', '_', '0', '_', 'x']] ∧
      register (tools ambiguous.servers) = none ∧ ¬ Distinguishable ambiguous.servers := by
  have refused : register (tools ambiguous.servers) = none := by decide
  refine ⟨by decide, refused, fun ok => ?_⟩
  obtain ⟨registered, done, _⟩ := ok.reached
  exact absurd (refused.symm.trans done) (by simp)

end McpTools
