import Oyster.DoubleIntegers
import Oyster.Text

/-! The byte ranges of media responses: the header, the range of the file that it selects,
and the part of the file that is served. -/
namespace ByteRanges
open DoubleIntegers

/-- A range of bytes as a request names it. -/
inductive RangeSpec where
  | int (firstPos : ℕ) (lastPos : Option ℕ)
  | suffix (length : ℕ)

/-- A range with a last position before its first is invalid, one that begins beyond the
representation or takes nothing of it is not satisfiable. -/
def RangeSpec.Satisfiable (size : ℕ) : RangeSpec → Prop
  | .int firstPos lastPos => firstPos < size ∧ ∀ last ∈ lastPos, firstPos ≤ last
  | .suffix length => 0 < length

def RangeSpec.selected (size : ℕ) : RangeSpec → ℕ × ℕ
  | .int firstPos none => (firstPos, size - 1)
  | .int firstPos (some lastPos) => (firstPos, min lastPos (size - 1))
  | .suffix length => (size - length, size - 1)

def decimal (digits : List Char) : ℕ :=
  digits.foldl (fun n c => n * 10 + (c.toNat - '0'.toNat)) 0

structure IsNumeral (digits : List Char) (n : ℕ) : Prop where
  some_digit : digits ≠ []
  all_digits : digits.all Char.isDigit = true
  value : decimal digits = n

/-- How a range is written. -/
inductive Spells : List Char → RangeSpec → Prop
  | rest {ds : List Char} {n : ℕ} : IsNumeral ds n → Spells (ds ++ ['-']) (.int n none)
  | closed {ds es : List Char} {n m : ℕ} :
      IsNumeral ds n → IsNumeral es m → Spells (ds ++ '-' :: es) (.int n (some m))
  | suffix {ds : List Char} {n : ℕ} : IsNumeral ds n → Spells ('-' :: ds) (.suffix n)

def isOws (c : Char) : Bool := c == ' ' || c == '\t'

def trimOws (text : List Char) : List Char :=
  ((text.dropWhile isOws).reverse.dropWhile isOws).reverse

/-- A header with a single byte range: the name of the unit in any case, and a list whose
empty elements do not count. -/
def Denotes (header : List Char) (spec : RangeSpec) : Prop :=
  ∃ unit set element, header = unit ++ '=' :: set ∧ unit.map Char.toLower = "bytes".toList ∧
    ((set.splitOn ',').map trimOws).filter (· ≠ []) = [element] ∧ Spells element spec

structure ByteRange where
  start : ℤ
  stop : ℤ
deriving DecidableEq

/-- The groups of `/^bytes=(\d*)-(\d*)$/`. -/
def rangeGroups (text : List Char) : Option (List Char × List Char) :=
  if "bytes=".toList.isPrefixOf text then
    let rest := text.drop 6
    match rest.dropWhile Char.isDigit with
    | '-' :: last => if last.all Char.isDigit then some (rest.takeWhile Char.isDigit, last) else none
    | _ => none
  else none

/-- A numeral as a number; `none` is infinity. -/
def number (digits : List Char) : Option ℤ := (ofNat (decimal digits)).map Nat.cast

/-- The difference of two counts, which does not overflow. -/
def difference (a b : ℤ) : ℤ := if a < b then -(nearest (b - a).toNat) else nearest (a - b).toNat

def isSafeInteger (n : ℤ) : Bool := n.natAbs ≤ maxSafe

/-- The bounds once they are read. -/
def checkedRange (size : ℕ) (start stop : Option ℤ) : Except String (Option ByteRange) :=
  match start.filter isSafeInteger, stop.filter isSafeInteger with
  | some start, some stop =>
    if start < 0 ∨ stop < start ∨ size ≤ start then .error "range not satisfiable"
    else .ok (some ⟨start, min stop (difference size 1)⟩)
  | _, _ => .error "range not satisfiable"

def parseRange (header : Option (List Char)) (size : ℕ) : Except String (Option ByteRange) :=
  match header with
  | none | some [] => .ok none
  | some header =>
    match rangeGroups (Text.trim header) with
    | none | some ([], []) => .error "invalid byte range"
    | some ([], last) =>
      match number last with
      | none => .error "invalid byte range"
      | some suffix =>
        if suffix ≤ 0 then .error "invalid byte range"
        else checkedRange size (some (max 0 (difference size suffix))) (some (difference size 1))
    | some (first, last) =>
      checkedRange size (number first) (if last = [] then some (difference size 1) else number last)

/-- A file to be served; the name is already encoded for a header. -/
structure Artifact where
  bytes : List UInt8
  mtimeMs : ℤ
  mimeType : String
  encodedName : String

def Artifact.size (a : Artifact) : ℕ := a.bytes.length

structure MediaRequest where
  range : Option String
  ifNoneMatch : Option String

structure Response where
  status : ℕ
  headers : List (String × String)
  body : List UInt8

def etag (a : Artifact) : String := "W/\"" ++ toString a.size ++ "-" ++ toString a.mtimeMs ++ "\""

def privateNoCache : String := "private, no-cache"

/-- The bytes of the file from one position to another. -/
def readStream (a : Artifact) (start stop : ℤ) : List UInt8 :=
  (a.bytes.drop start.toNat).take (stop - start + 1).toNat

def contentRange (r : ByteRange) (size : ℕ) : String :=
  "bytes " ++ toString r.start ++ "-" ++ toString r.stop ++ "/" ++ toString size

def getPinnedWidgetMedia (a : Artifact) (req : MediaRequest) : Response :=
  if req.range.getD "" = "" ∧ req.ifNoneMatch = some (etag a) then
    ⟨304, [("etag", etag a), ("cache-control", privateNoCache)], []⟩
  else
    match parseRange (req.range.map String.toList) a.size with
    | .error _ => ⟨416, [("content-range", "bytes */" ++ toString a.size), ("accept-ranges", "bytes")], []⟩
    | .ok range =>
      let start := (range.map ByteRange.start).getD 0
      let stop := (range.map ByteRange.stop).getD (max 0 (difference a.size 1))
      let headers := [ ("content-type", a.mimeType),
        ("content-length", if a.size = 0 then "0" else toString (stop - start + 1)),
        ("accept-ranges", "bytes"),
        ("cache-control", privateNoCache),
        ("content-disposition", "inline; filename*=UTF-8''" ++ a.encodedName),
        ("content-security-policy",
          if a.mimeType = "image/svg+xml" then "default-src 'none'; sandbox; style-src 'unsafe-inline'"
          else "default-src 'none'; sandbox"),
        ("x-content-type-options", "nosniff"),
        ("etag", etag a)] ++ (range.map fun r => ("content-range", contentRange r a.size)).toList
      ⟨if range.isSome then 206 else 200, headers, if a.size = 0 then [] else readStream a start stop⟩

/-- The ranges that the numbers of the program can hold: a last position, named or that of
the file, is a safe integer, and a suffix length is finite. Nothing is selected from an
empty file. -/
def RangeSpec.Held (size : ℕ) : RangeSpec → Prop
  | .int _ none => size - 1 ≤ maxSafe
  | .int _ (some lastPos) => lastPos ≤ maxSafe
  | .suffix length => 0 < size ∧ size - 1 ≤ maxSafe ∧ length < overflow

/-- The range that two groups of digits stand for. -/
def specOf : List Char → List Char → Option RangeSpec
  | [], [] => none
  | [], last => some (.suffix (decimal last))
  | first, [] => some (.int (decimal first) none)
  | first, last => some (.int (decimal first) (some (decimal last)))

theorem specOf_suffix {es : List Char} (some_digit : es ≠ []) : specOf [] es = some (.suffix (decimal es)) := by
  cases es with
  | nil => exact absurd rfl some_digit
  | cons e es => rfl

variable {ds : List Char}

theorem specOf_rest (some_digit : ds ≠ []) : specOf ds [] = some (.int (decimal ds) none) := by
  cases ds with
  | nil => exact absurd rfl some_digit
  | cons d ds => rfl

theorem specOf_closed {es : List Char} (hd : ds ≠ []) (he : es ≠ []) :
    specOf ds es = some (.int (decimal ds) (some (decimal es))) := by
  cases ds with
  | nil => exact absurd rfl hd
  | cons d ds =>
    cases es with
    | nil => exact absurd rfl he
    | cons e es => rfl

variable {element : List Char} {spec : RangeSpec}

theorem spells_iff : Spells element spec ↔ ∃ ds es, element = ds ++ '-' :: es ∧ ds.all Char.isDigit = true ∧
      es.all Char.isDigit = true ∧ specOf ds es = some spec := by
  constructor
  · rintro (⟨⟨hd, digits, rfl⟩⟩ | ⟨⟨hd, digits, rfl⟩, ⟨he, digits', rfl⟩⟩ | ⟨⟨he, digits, rfl⟩⟩)
    · exact ⟨_, [], rfl, digits, rfl, specOf_rest hd⟩
    · exact ⟨_, _, rfl, digits, digits', specOf_closed hd he⟩
    · exact ⟨[], _, rfl, rfl, digits, specOf_suffix he⟩
  · rintro ⟨ds, es, rfl, digits, digits', read⟩
    by_cases hd : ds = []
    · subst hd
      by_cases he : es = []
      · subst he
        cases read
      · rw [specOf_suffix he] at read
        cases read
        exact .suffix ⟨he, digits', rfl⟩
    · by_cases he : es = []
      · subst he
        rw [specOf_rest hd] at read
        cases read
        exact .rest ⟨hd, digits, rfl⟩
      · rw [specOf_closed hd he] at read
        cases read
        exact .closed ⟨hd, digits, rfl⟩ ⟨he, digits', rfl⟩

theorem Spells.plain_chars (h : Spells element spec) : ∀ c ∈ element, c.isDigit = true ∨ c = '-' := by
  obtain ⟨ds, es, rfl, digits, digits', -⟩ := spells_iff.mp h
  intro c inside
  rcases List.mem_append.mp inside with inside | inside
  · exact .inl (List.all_eq_true.mp digits c inside)
  · rcases List.mem_cons.mp inside with rfl | inside
    · exact .inr rfl
    · exact .inl (List.all_eq_true.mp digits' c inside)

variable {text : List Char}

theorem trimOws_of_free (free : ∀ c ∈ text, isOws c = false) : trimOws text = text := by
  have stays : ∀ text : List Char, (∀ c ∈ text, isOws c = false) → text.dropWhile isOws = text := by
    intro text free
    cases text with
    | nil => rfl
    | cons c text => rw [List.dropWhile_cons_of_neg (by simp [free c List.mem_cons_self])]
  rw [trimOws, stays text free, stays _ fun c inside => free c (List.mem_reverse.mp inside), List.reverse_reverse]

theorem denotes_of_spells (h : Spells element spec) : Denotes ("bytes=".toList ++ element) spec := by
  have no_comma : ',' ∉ element := fun inside => by
    rcases h.plain_chars ',' inside with digit | same
    · exact absurd digit (by decide)
    · exact absurd same (by decide)
  have no_ows : ∀ c ∈ element, isOws c = false := fun c inside => by
    rcases h.plain_chars c inside with digit | rfl
    · rw [Bool.eq_false_iff]
      intro space
      rcases Bool.or_eq_true .. ▸ space with blank | tab
      · exact absurd (beq_iff_eq.mp blank ▸ digit) (by decide)
      · exact absurd (beq_iff_eq.mp tab ▸ digit) (by decide)
    · rfl
  have nonempty : element ≠ [] := by
    obtain ⟨ds, es, rfl, -⟩ := spells_iff.mp h
    simp
  refine ⟨"bytes".toList, element, element, rfl, by decide, ?_, h⟩
  rw [List.splitOn_eq_singleton no_comma, List.map_singleton, trimOws_of_free no_ows]
  simp [nonempty]

theorem takeWhile_digits {es : List Char} (digits : ds.all Char.isDigit = true) :
    (ds ++ '-' :: es).takeWhile Char.isDigit = ds ∧ (ds ++ '-' :: es).dropWhile Char.isDigit = '-' :: es := by
  have each : ∀ c ∈ ds, Char.isDigit c = true := List.all_eq_true.mp digits
  constructor
  · rw [List.takeWhile_append_of_pos each, List.takeWhile_cons_of_neg (by decide), List.append_nil]
  · rw [List.dropWhile_append_of_pos each, List.dropWhile_cons_of_neg (by decide)]

theorem rangeGroups_iff {es : List Char} :
    rangeGroups text = some (ds, es) ↔ text = "bytes=".toList ++ (ds ++ '-' :: es) ∧
      ds.all Char.isDigit = true ∧ es.all Char.isDigit = true := by
  constructor
  · intro matched
    unfold rangeGroups at matched
    split_ifs at matched with unit
    obtain ⟨rest, rfl⟩ := List.isPrefixOf_iff_prefix.mp unit
    have dropped : ("bytes=".toList ++ rest).drop 6 = rest := List.drop_left' rfl
    rw [dropped] at matched
    have whole := List.takeWhile_append_dropWhile (p := Char.isDigit) (l := rest)
    dsimp only at matched
    split at matched
    · next last after =>
        split_ifs at matched with digits'
        cases matched
        refine ⟨?_, List.all_takeWhile, digits'⟩
        rw [← after, whole]
    · cases matched
  · rintro ⟨rfl, digits, digits'⟩
    have dropped : ("bytes=".toList ++ (ds ++ '-' :: es)).drop 6 = ds ++ '-' :: es := List.drop_left' rfl
    have unit : "bytes=".toList.isPrefixOf ("bytes=".toList ++ (ds ++ '-' :: es)) = true :=
      List.isPrefixOf_iff_prefix.mpr (List.prefix_append _ _)
    obtain ⟨taken, after⟩ := @takeWhile_digits ds es digits
    simp only [rangeGroups, if_pos unit, dropped, after, taken, digits', if_true]

variable {n : ℕ}

theorem isSafeInteger_natCast : isSafeInteger n = true ↔ n ≤ maxSafe := by
  rw [isSafeInteger, decide_eq_true_eq, Int.natAbs_natCast]

theorem number_safe_iff {digits : List Char} {k : ℤ} :
    (number digits = some k ∧ isSafeInteger k = true) ↔ k = decimal digits ∧ decimal digits ≤ maxSafe := by
  rw [number]
  constructor
  · rintro ⟨read, safe⟩
    obtain ⟨n, found, rfl⟩ := Option.map_eq_some_iff.mp read
    obtain ⟨same, small⟩ := ofNat_safe_iff.mp ⟨found, isSafeInteger_natCast.mp safe⟩
    exact ⟨congrArg Nat.cast same.symm, small⟩
  · rintro ⟨rfl, small⟩
    exact ⟨by rw [ofNat_of_small small, Option.map_some], isSafeInteger_natCast.mpr small⟩

theorem difference_of_le {a b : ℕ} (le : b ≤ a) : difference a b = nearest (a - b) := by
  rw [difference, if_neg (by omega)]
  congr 2
  omega

theorem last_position {size : ℕ} (positive : 0 < size) : difference size 1 = nearest (size - 1) :=
  difference_of_le (b := 1) positive

theorem last_position_safe {size : ℕ} (positive : 0 < size) :
    isSafeInteger (difference size 1) = true ↔ size - 1 ≤ maxSafe := by
  rw [last_position positive, isSafeInteger_natCast, nearest_safe_iff]

theorem checkedRange_iff {size : ℕ} {start stop : Option ℤ} {range : Option ByteRange} :
    checkedRange size start stop = .ok range ↔ ∃ s e, start = some s ∧ stop = some e ∧
      isSafeInteger s = true ∧ isSafeInteger e = true ∧ 0 ≤ s ∧ s ≤ e ∧ s < size ∧
      range = some ⟨s, min e (difference size 1)⟩ := by
  unfold checkedRange
  constructor
  · intro checked
    split at checked
    · next s e hs he =>
        obtain ⟨read, safe⟩ := Option.filter_eq_some_iff.mp hs
        obtain ⟨read', safe'⟩ := Option.filter_eq_some_iff.mp he
        split_ifs at checked with bad
        push Not at bad
        exact ⟨s, e, read, read', safe, safe', bad.1, bad.2.1, bad.2.2, (Except.ok.inj checked).symm⟩
    · cases checked
  · rintro ⟨s, e, rfl, rfl, safe, safe', positive, le, inside, rfl⟩
    have fine : ¬(s < 0 ∨ e < s ∨ (size : ℤ) ≤ s) := by omega
    simp only [Option.filter_some, safe, safe', if_true, if_neg fine]

def Accepts (size : ℕ) (spec : RangeSpec) (range : ByteRange) : Prop :=
  spec.Satisfiable size ∧ spec.Held size ∧ range = ⟨(spec.selected size).1, (spec.selected size).2⟩

theorem min_last {size last : ℕ} (positive : 0 < size) (small : last ≤ maxSafe) :
    min (last : ℤ) (difference size 1) = (min last (size - 1) : ℕ) := by
  rw [last_position positive]
  by_cases fits : size - 1 ≤ maxSafe
  · rw [nearest_of_small fits, Nat.cast_min]
  · have beyond := le_nearest_of_large (not_le.mp fits)
    omega

theorem closed_iff {size : ℕ} {es : List Char} {range : Option ByteRange} :
    checkedRange size (number ds) (number es) = .ok range ↔
      ∃ r, range = some r ∧ Accepts size (.int (decimal ds) (some (decimal es))) r := by
  rw [checkedRange_iff]
  constructor
  · rintro ⟨s, e, read, read', safe, safe', positive, le, inside, rfl⟩
    obtain ⟨rfl, small⟩ := number_safe_iff.mp ⟨read, safe⟩
    obtain ⟨rfl, small'⟩ := number_safe_iff.mp ⟨read', safe'⟩
    have nonempty : 0 < size := by omega
    refine ⟨_, rfl, ⟨by omega, ?_⟩, small', ?_⟩
    · intro last same
      cases same
      omega
    · rw [min_last nonempty small']
      rfl
  · rintro ⟨r, rfl, ⟨inside, le⟩, held, rfl⟩
    have le := le (decimal es) rfl
    obtain ⟨read, safe⟩ := number_safe_iff.mpr ⟨rfl, le.trans held⟩
    obtain ⟨read', safe'⟩ := number_safe_iff.mpr ⟨rfl, held⟩
    refine ⟨_, _, read, read', safe, safe', by omega, by omega, by omega, ?_⟩
    rw [min_last (by omega) held]
    rfl

theorem to_end_iff {size first : ℕ} {start : Option ℤ} {range : Option ByteRange}
    (read : ∀ s, start = some s ∧ isSafeInteger s = true ↔ s = first ∧ first ≤ maxSafe) :
    checkedRange size start (some (difference size 1)) = .ok range ↔
      first < size ∧ size - 1 ≤ maxSafe ∧ range = some ⟨first, (size - 1 : ℕ)⟩ := by
  rw [checkedRange_iff]
  constructor
  · rintro ⟨s, e, found, same, safe, safe', positive, le, inside, rfl⟩
    cases same
    obtain ⟨rfl, small⟩ := (read s).mp ⟨found, safe⟩
    have nonempty : 0 < size := by omega
    have fits := (last_position_safe nonempty).mp safe'
    refine ⟨by omega, fits, ?_⟩
    rw [min_self, last_position nonempty, nearest_of_small fits]
  · rintro ⟨inside, fits, rfl⟩
    have nonempty : 0 < size := by omega
    obtain ⟨found, safe⟩ := (read first).mpr ⟨rfl, by omega⟩
    have exact_last : difference size 1 = (size - 1 : ℕ) := by
      rw [last_position nonempty, nearest_of_small fits]
    refine ⟨_, _, found, rfl, safe, (last_position_safe nonempty).mpr fits, by omega, by omega, by omega, ?_⟩
    rw [min_self, exact_last]

theorem rest_iff {size : ℕ} {range : Option ByteRange} :
    checkedRange size (number ds) (some (difference size 1)) = .ok range ↔
      ∃ r, range = some r ∧ Accepts size (.int (decimal ds) none) r := by
  rw [to_end_iff fun s => number_safe_iff]
  constructor
  · rintro ⟨inside, fits, rfl⟩
    exact ⟨_, rfl, ⟨inside, fun _ h => nomatch h⟩, fits, rfl⟩
  · rintro ⟨r, rfl, ⟨inside, -⟩, fits, rfl⟩
    exact ⟨inside, fits, rfl⟩

theorem suffix_start {size : ℕ} (fits : size - 1 ≤ maxSafe) (positive : 0 < n) :
    max 0 (difference size (nearest n)) = (size - n : ℕ) := by
  have whole : size ≤ nearest n → max 0 (difference size (nearest n)) = 0 := fun covers => by
    unfold difference
    split_ifs with shorter
    · omega
    · have same : ((size : ℤ) - (nearest n : ℤ)).toNat = 0 := by omega
      rw [same, nearest_of_small (Nat.zero_le _)]
      rfl
  by_cases small : n ≤ maxSafe
  · by_cases covers : size ≤ n
    · rw [whole (by rwa [nearest_of_small small])]
      omega
    · have within : size - n ≤ maxSafe := by omega
      rw [nearest_of_small small, difference_of_le (by omega), nearest_of_small within]
      omega
  · have beyond := le_nearest_of_large (not_le.mp small)
    omega

theorem nearest_eq_zero_iff : nearest n = 0 ↔ n = 0 := by
  by_cases small : n ≤ maxSafe
  · rw [nearest_of_small small]
  · have beyond := le_nearest_of_large (not_le.mp small)
    omega

theorem suffix_iff {size : ℕ} {es : List Char} {suffix : ℤ} {range : Option ByteRange}
    (read : number es = some suffix) :
    (if suffix ≤ 0 then Except.error "invalid byte range"
      else checkedRange size (some (max 0 (difference size suffix))) (some (difference size 1))) = .ok range ↔
      ∃ r, range = some r ∧ Accepts size (.suffix (decimal es)) r := by
  obtain ⟨k, found, rfl⟩ := Option.map_eq_some_iff.mp read
  have finite : decimal es < overflow := by
    by_contra infinite
    rw [ofNat_eq_none_iff.mpr (not_lt.mp infinite)] at found
    cases found
  rw [ofNat, if_pos finite] at found
  cases found
  by_cases empty : decimal es = 0
  · rw [if_pos (by rw [nearest_eq_zero_iff.mpr empty]; rfl)]
    constructor
    · intro h
      cases h
    · rintro ⟨r, -, positive, -⟩
      exact absurd positive (by simp [RangeSpec.Satisfiable, empty])
  have positive : 0 < decimal es := Nat.pos_of_ne_zero empty
  have nonzero : nearest (decimal es) ≠ 0 := fun h => empty (nearest_eq_zero_iff.mp h)
  rw [if_neg (by omega)]
  by_cases fits : size - 1 ≤ maxSafe
  · rw [suffix_start fits positive, @to_end_iff size (size - decimal es) _ range fun s => ?_]
    · constructor
      · rintro ⟨inside, -, rfl⟩
        exact ⟨_, rfl, positive, ⟨by omega, fits, finite⟩, rfl⟩
      · rintro ⟨r, rfl, -, ⟨nonempty, -, -⟩, rfl⟩
        exact ⟨by omega, fits, rfl⟩
    · constructor
      · rintro ⟨same, safe⟩
        cases same
        exact ⟨rfl, isSafeInteger_natCast.mp safe⟩
      · rintro ⟨rfl, small⟩
        exact ⟨rfl, isSafeInteger_natCast.mpr small⟩
  · constructor
    · intro checked
      obtain ⟨s, e, -, same, -, safe, -⟩ := checkedRange_iff.mp checked
      cases same
      exact absurd ((last_position_safe (by omega)).mp safe) fits
    · rintro ⟨r, -, -, ⟨-, held, -⟩, -⟩
      exact absurd held fits

theorem spelled_iff : (∃ element, text = "bytes=".toList ++ element ∧ Spells element spec) ↔
      ∃ ds es, rangeGroups text = some (ds, es) ∧ specOf ds es = some spec := by
  constructor
  · rintro ⟨element, rfl, spelled⟩
    obtain ⟨ds, es, rfl, digits, digits', read⟩ := spells_iff.mp spelled
    exact ⟨ds, es, rangeGroups_iff.mpr ⟨rfl, digits, digits'⟩, read⟩
  · rintro ⟨ds, es, matched, read⟩
    obtain ⟨rfl, digits, digits'⟩ := rangeGroups_iff.mp matched
    exact ⟨_, rfl, spells_iff.mpr ⟨ds, es, rfl, digits, digits', read⟩⟩

theorem not_accepts_of_infinite {size : ℕ} {es : List Char} (read : number es = none) (r : ByteRange) :
    ¬Accepts size (.suffix (decimal es)) r := by
  rintro ⟨-, ⟨-, -, finite⟩, -⟩
  have overflows := ofNat_eq_none_iff.mp (Option.map_eq_none_iff.mp read)
  omega

/-- A header is accepted exactly when it spells a range that is satisfiable and held, and with
the bounds of that range. -/
theorem parseRange_iff {header : List Char} (present : header ≠ []) {size : ℕ} {range : Option ByteRange} :
    parseRange (some header) size = .ok range ↔
      ∃ spec r, (∃ element, Text.trim header = "bytes=".toList ++ element ∧ Spells element spec) ∧
        range = some r ∧ Accepts size spec r := by
  simp only [spelled_iff]
  rw [parseRange]
  · cases matched : rangeGroups (Text.trim header) with
    | none =>
      constructor
      · intro h
        cases h
      · rintro ⟨spec, r, ⟨ds, es, same, -⟩, -⟩
        cases same
    | some groups =>
      obtain ⟨ds, es⟩ := groups
      have unique : (∃ spec r, (∃ ds' es', some (ds, es) = some (ds', es') ∧ specOf ds' es' = some spec) ∧
          range = some r ∧ Accepts size spec r) ↔
            ∃ spec, specOf ds es = some spec ∧ ∃ r, range = some r ∧ Accepts size spec r := by
        constructor
        · rintro ⟨spec, r, ⟨_, _, same, read⟩, accepted⟩
          cases same
          exact ⟨spec, read, r, accepted⟩
        · rintro ⟨spec, read, r, accepted⟩
          exact ⟨spec, r, ⟨_, _, rfl, read⟩, accepted⟩
      rw [unique]
      have the_spec : ∀ spec, specOf ds es = some spec →
          ((∃ spec, specOf ds es = some spec ∧ ∃ r, range = some r ∧ Accepts size spec r) ↔
            ∃ r, range = some r ∧ Accepts size spec r) := fun spec read => by
        rw [read]
        constructor
        · rintro ⟨_, same, accepted⟩
          exact Option.some.inj same ▸ accepted
        · exact fun accepted => ⟨spec, rfl, accepted⟩
      cases ds with
      | nil =>
        cases es with
        | nil =>
          constructor
          · intro h
            cases h
          · rintro ⟨spec, read, -⟩
            cases read
        | cons e es =>
          rw [the_spec _ rfl]
          dsimp only
          cases read : number (e :: es) with
          | none =>
            constructor
            · intro h
              cases h
            · rintro ⟨r, -, accepted⟩
              exact absurd accepted (not_accepts_of_infinite read r)
          | some suffix => exact suffix_iff read
      | cons d ds =>
        cases es with
        | nil =>
          rw [the_spec _ rfl]
          exact rest_iff
        | cons e es =>
          rw [the_spec _ rfl]
          exact closed_iff
  · exact present

theorem Accepts.bounds {size : ℕ} {r : ByteRange} (h : Accepts size spec r) :
    r = ⟨(spec.selected size).1, (spec.selected size).2⟩ ∧ (spec.selected size).1 ≤ (spec.selected size).2 ∧
      (spec.selected size).2 < size := by
  obtain ⟨satisfiable, held, same⟩ := h
  refine ⟨same, ?_⟩
  cases spec with
  | int firstPos lastPos =>
    obtain ⟨inside, le⟩ := satisfiable
    cases lastPos with
    | none =>
      dsimp only [RangeSpec.selected]
      omega
    | some last =>
      have le := le last rfl
      dsimp only [RangeSpec.selected]
      omega
  | suffix length =>
    have nonempty : 0 < size := held.1
    have positive : 0 < length := satisfiable
    dsimp only [RangeSpec.selected]
    omega

def Response.header (res : Response) (name : String) : Option String :=
  (res.headers.find? (·.1 = name)).map Prod.snd

def Plain (header : List Char) (spec : RangeSpec) : Prop :=
  ∃ element, Text.trim header = "bytes=".toList ++ element ∧ Spells element spec

variable {a : Artifact}

theorem readStream_length {start stop : ℕ} (le : start ≤ stop) (inside : stop < a.size) :
    (readStream a start stop).length = stop - start + 1 := by
  rw [readStream, List.length_take, List.length_drop]
  unfold Artifact.size at inside
  omega

theorem served_of_accepted {header : String} {ifNoneMatch : Option String} (present : header ≠ "") {start stop : ℕ}
    (le : start ≤ stop) (inside : stop < a.size)
    (accepted : parseRange (some header.toList) a.size = .ok (some ⟨start, stop⟩)) :
    let res := getPinnedWidgetMedia a ⟨some header, ifNoneMatch⟩
    res.status = 206 ∧ res.header "content-length" = some (toString (stop - start + 1)) ∧ res.header "content-range" =
        some ("bytes " ++ toString start ++ "-" ++ toString stop ++ "/" ++ toString a.size) ∧
      res.body = (a.bytes.drop start).take (stop - start + 1) ∧ res.body.length = stop - start + 1 := by
  have nonempty : a.size ≠ 0 := by omega
  have count : ((stop : ℤ) - start + 1) = (stop - start + 1 : ℕ) := by omega
  have text : ∀ n : ℕ, toString (n : ℤ) = toString n := fun _ => rfl
  have ranged : ¬(header = "" ∧ ifNoneMatch = some (etag a)) := fun h => present h.1
  simp only [getPinnedWidgetMedia, if_neg ranged, Option.map_some, accepted, Option.getD_some, Option.isSome_some,
    if_true, if_neg nonempty, count, text, Option.toList_some, contentRange]
  refine ⟨trivial, ?_, ?_, ?_, ?_⟩
  · simp [Response.header]
  · simp [Response.header]
  · rw [readStream, count, Int.toNat_natCast, Int.toNat_natCast]
  · exact readStream_length le inside

theorem refused {header : String} {ifNoneMatch : Option String} (present : header ≠ "") {message : String}
    (error : parseRange (some header.toList) a.size = .error message) :
    let res := getPinnedWidgetMedia a ⟨some header, ifNoneMatch⟩
    res.status = 416 ∧ res.header "content-range" = some ("bytes */" ++ toString a.size) ∧ res.body = [] := by
  have ranged : ¬(header = "" ∧ ifNoneMatch = some (etag a)) := fun h => present h.1
  have found : getPinnedWidgetMedia a ⟨some header, ifNoneMatch⟩ =
      ⟨416, [("content-range", "bytes */" ++ toString a.size), ("accept-ranges", "bytes")], []⟩ := by
    simp only [getPinnedWidgetMedia, Option.getD_some, if_neg ranged, Option.map_some, error]
  rw [found]
  exact ⟨rfl, rfl, rfl⟩

/-- Byte ranges over every header and every file. The accepted headers are the plain spellings
of ranges that are satisfiable and held, each with the bounds that it selects; exactly the bytes
between these are served, with their number and their place, and every other header is answered
with 416. -/
theorem byte_range_serving (a : Artifact) (header : String) (ifNoneMatch : Option String) (present : header ≠ "") :
    (∀ spec, Plain header.toList spec → Denotes (Text.trim header.toList) spec) ∧
    (∀ range, parseRange (some header.toList) a.size = .ok range ↔
      ∃ spec, Plain header.toList spec ∧ spec.Satisfiable a.size ∧ spec.Held a.size ∧
        range = some ⟨(spec.selected a.size).1, (spec.selected a.size).2⟩) ∧
    (∀ spec, Plain header.toList spec → spec.Satisfiable a.size → spec.Held a.size →
      let (start, stop) := spec.selected a.size
      let res := getPinnedWidgetMedia a ⟨some header, ifNoneMatch⟩
      start ≤ stop ∧ stop < a.size ∧ res.status = 206 ∧
        res.header "content-length" = some (toString (stop - start + 1)) ∧
        res.header "content-range" =
          some ("bytes " ++ toString start ++ "-" ++ toString stop ++ "/" ++ toString a.size) ∧
        res.body = (a.bytes.drop start).take (stop - start + 1) ∧ res.body.length = stop - start + 1) ∧
    ((¬∃ spec, Plain header.toList spec ∧ spec.Satisfiable a.size ∧ spec.Held a.size) →
      let res := getPinnedWidgetMedia a ⟨some header, ifNoneMatch⟩
      res.status = 416 ∧ res.header "content-range" = some ("bytes */" ++ toString a.size) ∧ res.body = []) := by
  have nonempty : header.toList ≠ [] := fun h => present (String.toList_eq_nil_iff.mp h)
  have exactly : ∀ range, parseRange (some header.toList) a.size = .ok range ↔
      ∃ spec, Plain header.toList spec ∧ spec.Satisfiable a.size ∧ spec.Held a.size ∧
        range = some ⟨(spec.selected a.size).1, (spec.selected a.size).2⟩ := by
    intro range
    rw [parseRange_iff nonempty]
    constructor
    · rintro ⟨spec, r, plain, rfl, satisfiable, held, rfl⟩
      exact ⟨spec, plain, satisfiable, held, rfl⟩
    · rintro ⟨spec, plain, satisfiable, held, rfl⟩
      exact ⟨spec, _, plain, rfl, satisfiable, held, rfl⟩
  refine ⟨?_, exactly, ?_, ?_⟩
  · rintro spec ⟨element, same, spelled⟩
    rw [same]
    exact denotes_of_spells spelled
  · intro spec plain satisfiable held
    have accepted : Accepts a.size spec _ := ⟨satisfiable, held, rfl⟩
    obtain ⟨-, le, inside⟩ := accepted.bounds
    exact ⟨le, inside, served_of_accepted present le inside ((exactly _).mpr ⟨spec, plain, satisfiable, held, rfl⟩)⟩
  · intro none_held
    cases parsed : parseRange (some header.toList) a.size with
    | error message => exact refused present parsed
    | ok range =>
      obtain ⟨spec, plain, satisfiable, held, -⟩ := (exactly range).mp parsed
      exact absurd ⟨spec, plain, satisfiable, held⟩ none_held

def tenBytes : Artifact := ⟨[0, 1, 2, 3, 4, 5, 6, 7, 8, 9], 5, "video/mp4", "clip.mp4"⟩

/-- A suffix of three bytes. -/
theorem byte_range_serving_suffix :
    let res := getPinnedWidgetMedia tenBytes ⟨some "bytes=-3", none⟩
    res.status = 206 ∧ res.header "content-range" = some "bytes 7-9/10" ∧ res.body = [7, 8, 9] := by
  have plain : Plain "bytes=-3".toList (.suffix 3) :=
    ⟨"-3".toList, by decide, .suffix (⟨by decide, by decide, by decide⟩ : IsNumeral ['3'] 3)⟩
  obtain ⟨-, -, status, -, place, body, -⟩ :=
    (byte_range_serving tenBytes "bytes=-3" none (by decide)).2.2.1 (.suffix 3) plain (show 0 < 3 by decide)
      ⟨by decide, by decide, lt_of_le_of_lt (by decide) maxSafe_lt_overflow⟩
  exact ⟨status, place, body⟩

/-- A range to a last position that is no safe integer is refused, though the file has its first byte. -/
theorem large_last_position_refused : Denotes "bytes=0-9007199254740992".toList (.int 0 (some 9007199254740992)) ∧
      (RangeSpec.int 0 (some 9007199254740992)).Satisfiable tenBytes.size ∧
      parseRange (some "bytes=0-9007199254740992".toList) tenBytes.size = .error "range not satisfiable" ∧
      (getPinnedWidgetMedia tenBytes ⟨some "bytes=0-9007199254740992", none⟩).status = 416 := by
  have zero : IsNumeral ['0'] 0 := ⟨by decide, by decide, by decide⟩
  have large : IsNumeral "9007199254740992".toList 9007199254740992 := ⟨by decide, by decide, by decide⟩
  refine ⟨⟨"bytes".toList, "0-9007199254740992".toList, _, by decide, by decide, by decide, .closed zero large⟩,
    ⟨by decide, ?_⟩, by decide +kernel, by decide +kernel⟩
  intro last same
  cases same
  exact Nat.zero_le _

end ByteRanges
