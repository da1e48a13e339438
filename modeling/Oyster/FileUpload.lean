import Oyster.Interleaving
import Mathlib.Algebra.Group.Nat.Defs

/-! Chunked uploads: one request of `POST /file-upload` on the three files it can
touch, and the runs of a client. All file work of a request comes after its body
is read and is synchronous, so it is one step. A fault names a file operation
that fails in that step. -/
namespace FileUpload
open Interleaving

variable {β : Type*}

/-- The target, the partial `.oyster-upload-NAME.part` and the partial that
earlier versions called `.NAME.upload`. -/
structure Directory (β : Type*) where
  target : Option (List β)
  current : Option (List β)
  legacy : Option (List β)

inductive Partial where
  | current | legacy
  deriving DecidableEq

def Directory.read (dir : Directory β) : Partial → Option (List β)
  | .current => dir.current
  | .legacy => dir.legacy

def Directory.write (dir : Directory β) (file : Option (List β)) : Partial → Directory β
  | .current => { dir with current := file }
  | .legacy => { dir with legacy := file }

/-- A chunk write fails on opening the file, or after some bytes of the chunk. -/
inductive WriteFault where
  | cannotOpen
  | torn (written : Nat)

inductive BodyFault where
  | tooLarge
  | unreadable

structure Faults where
  body : Option BodyFault := none
  existsCurrent : Bool := false
  existsLegacy : Bool := false
  stat : Bool := false
  readTarget : Bool := false
  readPartial : Bool := false
  write : Option WriteFault := none
  rename : Bool := false
  unlink : Bool := false
  statTarget : Bool := false

inductive Body where
  | saved (bytes : Nat)
  | received (bytes : Nat)
  | error (text : String) (held : Option Nat)

structure Response where
  status : Nat
  body : Body

structure Request (β : Type*) where
  offset : Nat
  buf : List β
  last : Bool

def maxSafeInteger : Nat := 2 ^ 53 - 1

/-- What a part of the handler does: throw, answer, or leave the answer to its
caller. -/
inductive Outcome where
  | threw
  | respond (response : Response)
  | proceed

def fileRangeEquals [DecidableEq β] (file : Option (List β)) (fault : Bool) (offset : Nat)
    (expected : List β) (expectedSize : Option Nat) : Bool :=
  match file with
  | none => false
  | some content =>
    !fault && expectedSize.all (· == content.length) && decide (offset + expected.length ≤ content.length)
      && (content.drop offset).take expected.length == expected

/-- Appending does not create the file, so it fails where there is none. -/
def writeUploadChunk (dir : Directory β) (tmp : Partial) (buf : List β) (append : Bool)
    (fault : Option WriteFault) : Directory β × Outcome :=
  match fault, if append then dir.read tmp else some [] with
  | some .cannotOpen, _ => (dir, .threw)
  | _, none => (dir, .threw)
  | some (.torn written), some base => (dir.write (some (base ++ buf.take written)) tmp, .threw)
  | none, some base => (dir.write (some (base ++ buf)) tmp, .proceed)

def uploadTempPath (dir : Directory β) (faults : Faults) (offset : Nat) : Partial :=
  let exists' (file : Option (List β)) (fault : Bool) := file.isSome && !fault
  if 0 < offset ∧ ¬exists' dir.current faults.existsCurrent ∧ exists' dir.legacy faults.existsLegacy
  then .legacy else .current

/-- The file that `statSync` finds under the name of the partial. -/
def statPartial (dir : Directory β) (faults : Faults) (tmp : Partial) : Option (List β) :=
  if faults.stat then none else dir.read tmp

def finalChunkError (cur : Nat) : Response :=
  ⟨409, .error "final chunk does not end at the current upload size" (some cur)⟩

/-- The size of a missing partial reads as minus one in the text. -/
def sequenceError (cur : Option Nat) (offset : Nat) : Response :=
  let held := cur.elim "-1" toString
  ⟨409, .error s!"chunk out of sequence: have {held} bytes, got offset {offset}" (some (cur.getD 0))⟩

def continuePartialUpload [DecidableEq β] (dir : Directory β) (faults : Faults) (tmp : Partial)
    (request : Request β) : Directory β × Outcome :=
  let reached := request.offset + request.buf.length
  match (statPartial dir faults tmp).map List.length with
  | none =>
    if request.last && fileRangeEquals dir.target faults.readTarget request.offset request.buf (some reached)
    then (dir, .respond ⟨200, .saved reached⟩)
    else (dir, .respond (sequenceError none request.offset))
  | some cur =>
    if reached ≤ cur ∧ fileRangeEquals (dir.read tmp) faults.readPartial request.offset request.buf none then
      if !request.last then (dir, .respond ⟨200, .received cur⟩)
      else if cur ≠ reached then (dir, .respond (finalChunkError cur))
      else (dir, .proceed)
    else if cur ≠ request.offset then (dir, .respond (sequenceError (some cur) request.offset))
    else writeUploadChunk dir tmp request.buf true faults.write

/-- The `catch` of `applyUploadChunk`. -/
def uploadFailed (dir : Directory β) (faults : Faults) (tmp : Partial) : Directory β × Option Response :=
  (if faults.unlink then dir else dir.write none tmp, some ⟨500, .error "upload failed" none⟩)

def renamePartial (dir : Directory β) (faults : Faults) (tmp : Partial) : Directory β × Option Response :=
  match faults.rename, dir.read tmp with
  | false, some content => ({ dir.write none tmp with target := some content }, none)
  | _, _ => uploadFailed dir faults tmp

/-- The first statement of `applyUploadChunk`: a chunk at offset zero starts anew. -/
def placeChunk [DecidableEq β] (dir : Directory β) (faults : Faults) (tmp : Partial)
    (request : Request β) : Directory β × Outcome :=
  if request.offset = 0 then writeUploadChunk dir tmp request.buf false faults.write
  else continuePartialUpload dir faults tmp request

def applyUploadChunk [DecidableEq β] (dir : Directory β) (faults : Faults) (tmp : Partial)
    (request : Request β) : Directory β × Option Response :=
  match placeChunk dir faults tmp request with
  | (dir, .threw) => uploadFailed dir faults tmp
  | (dir, .respond response) => (dir, some response)
  | (dir, .proceed) => if request.last then renamePartial dir faults tmp else (dir, none)

def sendUploadSuccess (dir : Directory β) (faults : Faults) (request : Request β) : Response :=
  if !request.last then ⟨200, .received (request.offset + request.buf.length)⟩
  else match faults.statTarget, dir.target with
    | false, some content => ⟨200, .saved content.length⟩
    | _, _ => ⟨500, .error "upload finalization failed" none⟩

/-- `POST /file-upload` after the directory and the name are found valid. -/
def fileUpload [DecidableEq β] (dir : Directory β) (faults : Faults) (request : Request β) : Directory β × Response :=
  if maxSafeInteger < request.offset then (dir, ⟨400, .error "invalid offset" none⟩)
  else match faults.body with
    | some .tooLarge => (dir, ⟨413, .error "upload chunk too large" none⟩)
    | some .unreadable => (dir, ⟨400, .error "upload body could not be read" none⟩)
    | none =>
      if maxSafeInteger < request.offset + request.buf.length then
        (dir, ⟨400, .error "invalid offset" none⟩)
      else
        let tmp := uploadTempPath dir faults request.offset
        match applyUploadChunk dir faults tmp request with
        | (dir, some response) => (dir, response)
        | (dir, none) => (dir, sendUploadSuccess dir faults request)

/-- The request for chunk `i` of a file that is split into `chunks`. -/
def chunkRequest (chunks : List (List β)) (i : Nat) : Request β where
  offset := (chunks.take i).flatten.length
  buf := chunks.getD i []
  last := i + 1 == chunks.length

/-- `confirmed` chunks have been answered with success in order; `answer` is the
last answer of the server. -/
structure State (β : Type*) where
  dir : Directory β
  confirmed : Nat := 0
  answer : Option Response := none

inductive Action where
  | send (i : Nat) (faults : Faults)
  | lose (tmp : Partial)

/-- The client sends the first chunk that is not confirmed or repeats an earlier
one. A partial file can disappear between two requests. -/
def step [DecidableEq β] (chunks : List (List β)) (s : State β) : Action → Option (State β)
  | .send i faults =>
    if i ≤ s.confirmed ∧ i < chunks.length then
      let result := fileUpload s.dir faults (chunkRequest chunks i)
      some {
        dir := result.1
        confirmed := if i = s.confirmed ∧ result.2.status = 200 then i + 1 else s.confirmed
        answer := some result.2 }
    else none
  | .lose tmp => some { s with dir := s.dir.write none tmp }

@[simp] theorem read_write (dir : Directory β) (file : Option (List β)) (tmp : Partial) :
    (dir.write file tmp).read tmp = file := by
  cases tmp <;> rfl

@[simp] theorem write_target (dir : Directory β) (file : Option (List β)) (tmp : Partial) :
    (dir.write file tmp).target = dir.target := by
  cases tmp <;> rfl

theorem write_current (dir : Directory β) (file : Option (List β)) (tmp : Partial) :
    (dir.write file tmp).current = if tmp = .current then file else dir.current := by
  cases tmp <;> rfl

variable {content : List β}

theorem eq_take_append_of_range {expected : List β} {offset : Nat} (size : content.length = offset + expected.length)
    (same : (content.drop offset).take expected.length = expected) : content = content.take offset ++ expected := by
  have whole : (content.drop offset).take expected.length = content.drop offset := by
    apply List.take_of_length_le
    rw [List.length_drop]
    omega
  rw [whole] at same
  rw [← same, List.take_append_drop]

variable {dir : Directory β} {tmp : Partial}

theorem statPartial_some {faults : Faults} (h : statPartial dir faults tmp = some content) :
    dir.read tmp = some content := by
  unfold statPartial at h
  split_ifs at h
  exact h

theorem writeUploadChunk_cases (dir : Directory β) (tmp : Partial) (buf : List β) (append : Bool)
    (fault : Option WriteFault) :
    writeUploadChunk dir tmp buf append fault = (dir, .threw) ∨
      ∃ base, (if append then dir.read tmp else some []) = some base ∧
        ((∃ written, writeUploadChunk dir tmp buf append fault =
            (dir.write (some (base ++ buf.take written)) tmp, .threw)) ∨
          writeUploadChunk dir tmp buf append fault = (dir.write (some (base ++ buf)) tmp, .proceed)) := by
  unfold writeUploadChunk
  split
  · exact .inl rfl
  · exact .inl rfl
  · rename_i written base hbase
    exact .inr ⟨base, hbase, .inl ⟨written, rfl⟩⟩
  · rename_i base hbase
    exact .inr ⟨base, hbase, .inr rfl⟩

section Requests
variable [DecidableEq β]

theorem fileRangeEquals_spec {content expected : List β} {fault : Bool} {offset : Nat} {size : Option Nat}
    (h : fileRangeEquals (some content) fault offset expected size = true) :
    (∀ n ∈ size, n = content.length) ∧ offset + expected.length ≤ content.length ∧
      (content.drop offset).take expected.length = expected := by
  simp only [fileRangeEquals, Bool.and_eq_true, decide_eq_true_eq, beq_iff_eq] at h
  obtain ⟨⟨⟨_, sized⟩, bound⟩, same⟩ := h
  refine ⟨?_, bound, same⟩
  intro n hn
  obtain rfl := Option.mem_def.mp hn
  simpa using sized

/-- The existing target is taken for the finished upload. -/
def TakesTarget (dir : Directory β) (faults : Faults) (tmp : Partial) (request : Request β) : Prop :=
  request.last = true ∧ statPartial dir faults tmp = none ∧
    fileRangeEquals dir.target faults.readTarget request.offset request.buf
      (some (request.offset + request.buf.length)) = true

/-- What continuing a partial file can come to. Only the existing target is
reported as saved here, and a final chunk that is there already ends the partial. -/
theorem continuePartialUpload_cases (dir : Directory β) (faults : Faults) (tmp : Partial) (request : Request β) :
    (∃ response, continuePartialUpload dir faults tmp request = (dir, .respond response) ∧
        ∀ bytes, response.body = .saved bytes → TakesTarget dir faults tmp request) ∨
      (∃ content, statPartial dir faults tmp = some content ∧
        fileRangeEquals (dir.read tmp) faults.readPartial request.offset request.buf none = true ∧
        content.length = request.offset + request.buf.length ∧
        continuePartialUpload dir faults tmp request = (dir, .proceed)) ∨
      (∃ content, statPartial dir faults tmp = some content ∧ content.length = request.offset ∧
        continuePartialUpload dir faults tmp request =
          writeUploadChunk dir tmp request.buf true faults.write) := by
  unfold continuePartialUpload
  cases hstat : statPartial dir faults tmp with
  | none =>
    simp only [Option.map_none]
    split_ifs with taken
    · simp only [Bool.and_eq_true] at taken
      exact .inl ⟨_, rfl, fun _ _ => ⟨taken.1, hstat, taken.2⟩⟩
    · exact .inl ⟨_, rfl, fun _ absurd => nomatch absurd⟩
  | some content =>
    simp only [Option.map_some]
    by_cases present : request.offset + request.buf.length ≤ content.length ∧
        fileRangeEquals (dir.read tmp) faults.readPartial request.offset request.buf none
    · rw [if_pos present]
      by_cases last : request.last
      · by_cases whole : content.length = request.offset + request.buf.length
        · exact .inr (.inl ⟨content, rfl, present.2, whole, by simp [last, whole]⟩)
        · exact .inl ⟨finalChunkError content.length, by simp [last, whole], fun _ absurd => nomatch absurd⟩
      · exact .inl ⟨⟨200, .received content.length⟩, by simp [last], fun _ absurd => nomatch absurd⟩
    · rw [if_neg present]
      by_cases next : content.length = request.offset
      · exact .inr (.inr ⟨content, rfl, next, by simp [next]⟩)
      · exact .inl ⟨sequenceError (some content.length) request.offset, by simp [next],
          fun _ absurd => nomatch absurd⟩

end Requests

/-- The bytes of the file before chunk `i`. -/
def earlier (chunks : List (List β)) (i : Nat) : List β := (chunks.take i).flatten

variable {chunks : List (List β)} {i : Nat}

theorem chunkRequest_buf (h : i < chunks.length) : (chunkRequest chunks i).buf = chunks[i] := by
  simp [chunkRequest, h]

theorem earlier_append_starts (h : i < chunks.length) :
    earlier chunks i ++ (chunkRequest chunks i).buf <+: chunks.flatten := by
  refine ⟨(chunks.drop (i + 1)).flatten, ?_⟩
  have split : chunks = chunks.take i ++ chunks[i] :: chunks.drop (i + 1) := by simp
  calc earlier chunks i ++ (chunkRequest chunks i).buf ++ (chunks.drop (i + 1)).flatten
      = (chunks.take i ++ chunks[i] :: chunks.drop (i + 1)).flatten := by
        rw [earlier, chunkRequest_buf h, List.flatten_append, List.flatten_cons, List.append_assoc]
    _ = chunks.flatten := by rw [← split]

theorem earlier_starts (h : i < chunks.length) : earlier chunks i <+: chunks.flatten :=
  (List.prefix_append _ _).trans (earlier_append_starts h)

theorem earlier_append_last (last : (chunkRequest chunks i).last = true) :
    earlier chunks i ++ (chunkRequest chunks i).buf = chunks.flatten := by
  have size : i + 1 = chunks.length := by simpa [chunkRequest] using last
  have inside : i < chunks.length := by omega
  have split : chunks = chunks.take i ++ [chunks[i]] := by
    rw [← List.take_succ_eq_append_getElem inside, size, List.take_length]
  calc earlier chunks i ++ (chunkRequest chunks i).buf = (chunks.take i ++ [chunks[i]]).flatten := by
        rw [earlier, chunkRequest_buf inside, List.flatten_append, List.flatten_singleton]
    _ = chunks.flatten := by rw [← split]

theorem take_offset (h : i < chunks.length) : chunks.flatten.take (chunkRequest chunks i).offset = earlier chunks i :=
  (List.prefix_iff_eq_take.mp (earlier_starts h)).symm

theorem take_offset_of_starts (h : i < chunks.length) (start : content <+: chunks.flatten)
    (size : (chunkRequest chunks i).offset ≤ content.length) :
    content.take (chunkRequest chunks i).offset = earlier chunks i := by
  rw [← take_offset h]
  obtain ⟨rest, same⟩ := start
  rw [← same, List.take_append_of_le_length size]

/-- The current partial holds a beginning of the file. -/
def Beginning (content : List β) (dir : Directory β) : Prop :=
  ∀ bytes, dir.current = some bytes → bytes <+: content

theorem Beginning.remove (h : Beginning content dir) (tmp : Partial) : Beginning content (dir.write none tmp) := by
  intro bytes present
  rw [write_current] at present
  split_ifs at present
  exact h bytes present

theorem Beginning.write (h : Beginning content dir) (tmp : Partial) {file : List β}
    (start : tmp = .current → file <+: content) : Beginning content (dir.write (some file) tmp) := by
  intro bytes present
  rw [write_current] at present
  split_ifs at present with current
  · cases present
    exact start current
  · exact h bytes present

theorem Beginning.uploadFailed (h : Beginning content dir) (faults : Faults) (tmp : Partial) :
    Beginning content (uploadFailed dir faults tmp).1 := by
  unfold FileUpload.uploadFailed
  split_ifs
  · exact h
  · exact h.remove tmp

theorem Beginning.renamePartial (h : Beginning content dir) (faults : Faults) (tmp : Partial) :
    Beginning content (renamePartial dir faults tmp).1 := by
  unfold FileUpload.renamePartial
  split
  · exact h.remove tmp
  · exact h.uploadFailed faults tmp

theorem Beginning.writeUploadChunk (inside : i < chunks.length) (h : Beginning chunks.flatten dir) (append : Bool)
    (fault : Option WriteFault)
    (behind : tmp = .current → ∀ base, (if append then dir.read tmp else some []) = some base →
      base = earlier chunks i) : Beginning chunks.flatten
      (writeUploadChunk dir tmp (chunkRequest chunks i).buf append fault).1 := by
  have written : ∀ base part, (if append then dir.read tmp else some []) = some base →
      part <+: (chunkRequest chunks i).buf → tmp = .current → base ++ part <+: chunks.flatten := by
    intro base part hbase hpart current
    rw [behind current base hbase]
    exact ((List.prefix_append_right_inj _).mpr hpart).trans (earlier_append_starts inside)
  rcases writeUploadChunk_cases dir tmp (chunkRequest chunks i).buf append fault with
    same | ⟨base, hbase, ⟨k, same⟩ | same⟩
  · rw [same]
    exact h
  · rw [same]
    exact h.write tmp (written base _ hbase (List.take_prefix _ _))
  · rw [same]
    exact h.write tmp (written base _ hbase (List.prefix_refl _))

theorem earlier_nil (start : (chunkRequest chunks i).offset = 0) : earlier chunks i = [] :=
  List.eq_nil_of_length_eq_zero start

/-- By its size and its last bytes `content` can be this upload, before or after
the chunk of the request. -/
def Fits (request : Request β) (content : List β) : Prop :=
  content.length = request.offset ∨ content.length = request.offset + request.buf.length ∧
      (content.drop request.offset).take request.buf.length = request.buf

/-- `content` starts with the bytes of the file that come before chunk `i`. -/
def Continues (chunks : List (List β)) (i : Nat) (content : List β) : Prop :=
  content.take (chunkRequest chunks i).offset = earlier chunks i

theorem Continues.append (h : Continues chunks i content) (last : (chunkRequest chunks i).last = true)
    (size : content.length = (chunkRequest chunks i).offset) :
    content ++ (chunkRequest chunks i).buf = chunks.flatten := by
  have whole : content = earlier chunks i := by
    rw [← h, ← size, List.take_length]
  rw [whole, earlier_append_last last]

theorem Continues.whole (h : Continues chunks i content) (last : (chunkRequest chunks i).last = true)
    (size : content.length = (chunkRequest chunks i).offset + (chunkRequest chunks i).buf.length)
    (same : (content.drop (chunkRequest chunks i).offset).take (chunkRequest chunks i).buf.length =
      (chunkRequest chunks i).buf) : content = chunks.flatten := by
  rw [eq_take_append_of_range size same, h, earlier_append_last last]

theorem chunkRequest_zero (h : i = 0) : (chunkRequest chunks i).offset = 0 := by
  simp [chunkRequest, h]

theorem writeUploadChunk_not_respond {next : Directory β} {buf : List β} {append : Bool} {fault : Option WriteFault}
    {response : Response} : writeUploadChunk dir tmp buf append fault ≠ (next, .respond response) := by
  intro h
  rcases writeUploadChunk_cases dir tmp buf append fault with
    same | ⟨base, _, ⟨k, same⟩ | same⟩ <;> cases same.symm.trans h

/-- Once a chunk is confirmed the current partial begins the file. -/
def Inv (chunks : List (List β)) (s : State β) : Prop :=
  0 < s.confirmed → Beginning chunks.flatten s.dir

theorem Inv.beginning {s : State β} (h : Inv chunks s) (allowed : i ≤ s.confirmed)
    (later : 0 < (chunkRequest chunks i).offset) : Beginning chunks.flatten s.dir := by
  apply h
  rcases Nat.eq_zero_or_pos i with zero | pos
  · rw [chunkRequest_zero zero] at later
    omega
  · omega

theorem continues_of_whole (inside : i < chunks.length) {rest : List β} (whole : content ++ rest = chunks.flatten)
    (size : (chunkRequest chunks i).offset ≤ content.length) : Continues chunks i content :=
  take_offset_of_starts inside ⟨rest, whole⟩ size

section Runs
variable [DecidableEq β] {chunks : List (List β)} {i : Nat} {dir : Directory β}

theorem Beginning.placeChunk (inside : i < chunks.length) (faults : Faults) (tmp : Partial)
    (h : Beginning chunks.flatten dir) :
    Beginning chunks.flatten (placeChunk dir faults tmp (chunkRequest chunks i)).1 := by
  unfold FileUpload.placeChunk
  split_ifs with start
  · refine h.writeUploadChunk inside false faults.write ?_
    intro _ base hbase
    rw [earlier_nil start]
    exact (Option.some.inj hbase).symm
  · rcases continuePartialUpload_cases dir faults tmp (chunkRequest chunks i) with
      ⟨response, same, _⟩ | ⟨content, _, _, _, same⟩ | ⟨content, hstat, size, same⟩
    · rw [same]
      exact h
    · rw [same]
      exact h
    · rw [same]
      refine h.writeUploadChunk inside true faults.write ?_
      intro current base hbase
      subst current
      cases (statPartial_some hstat).symm.trans hbase
      rw [← take_offset_of_starts inside (h content hbase) (by omega), ← size, List.take_length]

variable {faults : Faults} {tmp : Partial} {request : Request β}

theorem Beginning.applyUploadChunk {content : List β}
    (h : Beginning content (FileUpload.placeChunk dir faults tmp request).1) :
    Beginning content (applyUploadChunk dir faults tmp request).1 := by
  unfold FileUpload.applyUploadChunk
  split
  · rename_i next heq
    rw [heq] at h
    exact h.uploadFailed faults tmp
  · rename_i next response heq
    rw [heq] at h
    exact h
  · rename_i next heq
    rw [heq] at h
    split_ifs
    · exact h.renamePartial faults tmp
    · exact h

theorem fileUpload_cases (dir : Directory β) (faults : Faults) (request : Request β) :
    (∃ status text, status ≠ 200 ∧ fileUpload dir faults request = (dir, ⟨status, .error text none⟩)) ∨
      fileUpload dir faults request =
        match applyUploadChunk dir faults (uploadTempPath dir faults request.offset) request with
        | (dir, some response) => (dir, response)
        | (dir, none) => (dir, sendUploadSuccess dir faults request) := by
  unfold fileUpload
  split_ifs with _ tooLong
  · exact .inl ⟨400, "invalid offset", by decide, rfl⟩
  · cases faults.body with
    | none => exact .inl ⟨400, "invalid offset", by decide, rfl⟩
    | some fault =>
      cases fault with
      | tooLarge => exact .inl ⟨413, "upload chunk too large", by decide, rfl⟩
      | unreadable => exact .inl ⟨400, "upload body could not be read", by decide, rfl⟩
  · cases faults.body with
    | none => exact .inr rfl
    | some fault =>
      cases fault with
      | tooLarge => exact .inl ⟨413, "upload chunk too large", by decide, rfl⟩
      | unreadable => exact .inl ⟨400, "upload body could not be read", by decide, rfl⟩

theorem Beginning.fileUpload (inside : i < chunks.length) (faults : Faults) (h : Beginning chunks.flatten dir) :
    Beginning chunks.flatten (fileUpload dir faults (chunkRequest chunks i)).1 := by
  have applied := (h.placeChunk inside faults
    (uploadTempPath dir faults (chunkRequest chunks i).offset)).applyUploadChunk
  rcases fileUpload_cases dir faults (chunkRequest chunks i) with ⟨status, text, _, same⟩ | same
  · rw [same]
    exact h
  · rw [same]
    split
    · rename_i next response heq
      rw [heq] at applied
      exact applied
    · rename_i next heq
      rw [heq] at applied
      exact applied

theorem beginning_of_first (inside : i < chunks.length) (start : (chunkRequest chunks i).offset = 0) (faults : Faults)
    (success : (fileUpload dir faults (chunkRequest chunks i)).2.status = 200) :
    Beginning chunks.flatten (fileUpload dir faults (chunkRequest chunks i)).1 := by
  rcases fileUpload_cases dir faults (chunkRequest chunks i) with ⟨status, text, bad, same⟩ | same
  · rw [same] at success
    exact absurd success bad
  · have path : uploadTempPath dir faults (chunkRequest chunks i).offset = .current := by
      simp [uploadTempPath, start]
    have placed : placeChunk dir faults .current (chunkRequest chunks i) =
        writeUploadChunk dir .current (chunkRequest chunks i).buf false faults.write := by
      simp [placeChunk, start]
    have fits : (chunkRequest chunks i).buf <+: chunks.flatten := by
      simpa [earlier_nil start] using earlier_append_starts inside
    rw [same, path] at success ⊢
    rcases writeUploadChunk_cases dir .current (chunkRequest chunks i).buf false faults.write with
      threw | ⟨base, hbase, ⟨k, threw⟩ | wrote⟩
    · simp [applyUploadChunk, placed, threw, uploadFailed] at success
    · simp [applyUploadChunk, placed, threw, uploadFailed] at success
    · cases hbase
      have written : Beginning chunks.flatten (placeChunk dir faults .current (chunkRequest chunks i)).1 := by
        rw [placed, wrote]
        intro bytes present
        cases present
        exact fits
      have applied := written.applyUploadChunk
      split
      · rename_i next response heq
        rw [heq] at applied
        exact applied
      · rename_i next heq
        rw [heq] at applied
        exact applied

variable {next : Directory β}

theorem placeChunk_last (last : (chunkRequest chunks i).last = true)
    (continues : 0 < (chunkRequest chunks i).offset → ∀ content,
      statPartial dir faults tmp = some content → Fits (chunkRequest chunks i) content →
      Continues chunks i content) (h : placeChunk dir faults tmp (chunkRequest chunks i) = (next, .proceed)) :
    next.read tmp = some chunks.flatten := by
  unfold placeChunk at h
  split_ifs at h with start
  · rcases writeUploadChunk_cases dir tmp (chunkRequest chunks i).buf false faults.write with
      same | ⟨base, hbase, ⟨k, same⟩ | same⟩
    · cases same.symm.trans h
    · cases same.symm.trans h
    · cases hbase
      obtain rfl := (Prod.mk.inj (same.symm.trans h)).1
      rw [read_write, ← earlier_append_last last, earlier_nil start]
  · have later := continues (by omega)
    rcases continuePartialUpload_cases dir faults tmp (chunkRequest chunks i) with
      ⟨response, same, _⟩ | ⟨content, hstat, range, size, same⟩ | ⟨content, hstat, size, same⟩
    · cases same.symm.trans h
    · obtain rfl := (Prod.mk.inj (same.symm.trans h)).1
      rw [statPartial_some hstat] at range ⊢
      have tail := (fileRangeEquals_spec range).2.2
      rw [(later content hstat (.inr ⟨size, tail⟩)).whole last size tail]
    · rcases writeUploadChunk_cases dir tmp (chunkRequest chunks i).buf true faults.write with
        wsame | ⟨base, hbase, ⟨k, wsame⟩ | wsame⟩
      · cases (same.trans wsame).symm.trans h
      · cases (same.trans wsame).symm.trans h
      · cases (statPartial_some hstat).symm.trans hbase
        obtain rfl := (Prod.mk.inj ((same.trans wsame).symm.trans h)).1
        rw [read_write, (later content hstat (.inl size)).append last size]

variable {status bytes : Nat}

theorem placeChunk_saved (h : placeChunk dir faults tmp request = (next, .respond ⟨status, .saved bytes⟩)) :
    next = dir ∧ 0 < request.offset ∧ TakesTarget dir faults tmp request := by
  unfold placeChunk at h
  split_ifs at h with start
  · exact absurd h writeUploadChunk_not_respond
  · rcases continuePartialUpload_cases dir faults tmp request with
      ⟨response, same, takes⟩ | ⟨_, _, _, _, same⟩ | ⟨_, _, _, same⟩
    · obtain ⟨rfl, answered⟩ := Prod.mk.inj (same.symm.trans h)
      cases answered
      exact ⟨rfl, by omega, takes bytes rfl⟩
    · cases same.symm.trans h
    · exact absurd (same.symm.trans h) writeUploadChunk_not_respond

theorem TakesTarget.whole (h : TakesTarget dir faults tmp (chunkRequest chunks i))
    (continues : ∀ content, dir.target = some content → Continues chunks i content) :
    dir.target = some chunks.flatten := by
  obtain ⟨last, _, range⟩ := h
  cases htarget : dir.target with
  | none =>
    rw [htarget] at range
    cases range
  | some content =>
    rw [htarget] at range
    obtain ⟨size, _, tail⟩ := fileRangeEquals_spec range
    rw [(continues content htarget).whole last (size _ rfl).symm tail]

theorem saved_cases (saved : (fileUpload dir faults request).2 = ⟨status, .saved bytes⟩) :
    (∃ next, placeChunk dir faults (uploadTempPath dir faults request.offset) request =
          (next, .respond ⟨status, .saved bytes⟩) ∧ (fileUpload dir faults request).1 = next) ∨
      ∃ next content, placeChunk dir faults (uploadTempPath dir faults request.offset) request =
          (next, .proceed) ∧ request.last = true ∧
        next.read (uploadTempPath dir faults request.offset) = some content ∧
        (fileUpload dir faults request).1.target = some content := by
  rcases fileUpload_cases dir faults request with ⟨_, text, _, same⟩ | same
  · rw [same] at saved
    cases saved
  rw [same] at saved ⊢
  generalize uploadTempPath dir faults request.offset = tmp at *
  unfold applyUploadChunk at saved ⊢
  cases hplace : placeChunk dir faults tmp request with
  | mk next outcome =>
    rw [hplace] at saved
    cases outcome with
    | threw => cases saved
    | respond response =>
      simp only at saved
      exact .inl ⟨next, by rw [saved], rfl⟩
    | proceed =>
      cases last : request.last with
      | false => simp [last, sendUploadSuccess] at saved
      | true =>
        simp only [last, if_true] at saved ⊢
        unfold renamePartial at saved ⊢
        cases hrename : faults.rename with
        | true =>
          rw [hrename] at saved
          cases saved
        | false =>
          cases held : next.read tmp with
          | none =>
            rw [hrename, held] at saved
            cases saved
          | some content => exact .inr ⟨next, content, rfl, trivial, held, rfl⟩

theorem saved_target (partialContinues : 0 < (chunkRequest chunks i).offset → (chunkRequest chunks i).last = true →
      ∀ content, statPartial dir faults (uploadTempPath dir faults (chunkRequest chunks i).offset) =
        some content → Fits (chunkRequest chunks i) content → Continues chunks i content)
    (targetContinues : 0 < (chunkRequest chunks i).offset →
      TakesTarget dir faults (uploadTempPath dir faults (chunkRequest chunks i).offset) (chunkRequest chunks i) →
      ∀ content, dir.target = some content → Continues chunks i content)
    (saved : (fileUpload dir faults (chunkRequest chunks i)).2 = ⟨status, .saved bytes⟩) :
    (fileUpload dir faults (chunkRequest chunks i)).1.target = some chunks.flatten := by
  rcases saved_cases saved with ⟨next, placed, same⟩ | ⟨next, content, placed, last, held, target⟩
  · obtain ⟨rfl, later, taken⟩ := placeChunk_saved placed
    rw [same]
    exact taken.whole (targetContinues later taken)
  · rw [target, ← held]
    exact placeChunk_last last (fun later => partialContinues later last) placed

/-- The condition under which a saved answer can be trusted: where the final
chunk goes to a partial of an earlier version, or is found at the end of an
existing target because the partial is gone, that file also starts with the
bytes of the upload before the chunk. -/
def Permitted (chunks : List (List β)) (s : State β) : Action → Prop
  | .send i faults =>
    let request := chunkRequest chunks i
    let tmp := uploadTempPath s.dir faults request.offset
    0 < request.offset → request.last = true →
      (tmp = .legacy → ∀ content, statPartial s.dir faults tmp = some content →
        Fits request content → Continues chunks i content) ∧
      (TakesTarget s.dir faults tmp request → ∀ content, s.dir.target = some content → Continues chunks i content)
  | .lose _ => True

def Truthful (chunks : List (List β)) (s : State β) : Prop :=
  ∀ status bytes, s.answer = some ⟨status, .saved bytes⟩ → s.dir.target = some chunks.flatten

variable {s t : State β}

theorem step_send (h : step chunks s (.send i faults) = some t) : i ≤ s.confirmed ∧ i < chunks.length ∧
      t.dir = (fileUpload s.dir faults (chunkRequest chunks i)).1 ∧
      t.answer = some (fileUpload s.dir faults (chunkRequest chunks i)).2 ∧
      t.confirmed = if i = s.confirmed ∧ (fileUpload s.dir faults (chunkRequest chunks i)).2.status = 200
        then i + 1 else s.confirmed := by
  obtain ⟨⟨known, inside⟩, same⟩ := Option.ite_none_right_eq_some.mp h
  cases same
  exact ⟨known, inside, rfl, rfl, rfl⟩

theorem step_inv (chunks : List (List β)) (s : State β) (a : Action) (t : State β)
    (h : Inv chunks s ∧ Truthful chunks s) (permitted : Permitted chunks s a)
    (hstep : step chunks s a = some t) : Inv chunks t ∧ Truthful chunks t := by
  cases a with
  | lose tmp =>
    cases hstep
    refine ⟨fun confirmed => (h.1 confirmed).remove tmp, ?_⟩
    intro status bytes answer
    rw [write_target]
    exact h.2 status bytes answer
  | send i faults =>
    obtain ⟨known, inside, dir, answered, confirms⟩ := step_send hstep
    constructor
    · intro confirmed
      rw [dir]
      by_cases first : 0 < s.confirmed
      · exact (h.1 first).fileUpload inside faults
      · have zero : i = 0 := by omega
        rw [confirms] at confirmed
        split_ifs at confirmed with success
        · exact beginning_of_first inside (chunkRequest_zero zero) faults success.2
        · exact absurd confirmed first
    · intro status bytes answer
      rw [dir]
      refine saved_target ?_ ?_ (Option.some.inj (answered.symm.trans answer))
      · intro later last content hstat fits
        cases htmp : uploadTempPath s.dir faults (chunkRequest chunks i).offset with
        | legacy => exact (permitted later last).1 htmp content hstat fits
        | current =>
          rw [htmp] at hstat
          have start := h.1.beginning known later content (statPartial_some hstat)
          refine take_offset_of_starts inside start ?_
          rcases fits with size | ⟨size, _⟩ <;> omega
      · intro later taken
        exact (permitted later taken.1).2 taken

theorem upload_truthful (chunks : List (List β)) (dir : Directory β) (actions : List Action)
    (s : State β) (run : Run (step chunks) (Permitted chunks) { dir } actions s) :
    Truthful chunks s :=
  (run.invariant (step_inv chunks)
    ⟨fun confirmed => absurd confirmed (Nat.lt_irrefl 0), fun _ _ absurd => nomatch absurd⟩).2

/-- With the target present and the current partial lost before the final chunk,
the bytes of the target decide. -/
theorem upload_truthful_lost :
    Truthful [[1], [2]] (⟨⟨some [1, 2], none, none⟩, 2, some ⟨200, .saved 2⟩⟩ : State Nat) := by
  refine upload_truthful [[1], [2]] ⟨some [1, 2], none, none⟩ [.send 0 {}, .lose .current, .send 1 {}] _
    (.cons (fun later => absurd later (by decide))
      (rfl : _ = some (⟨⟨some [1, 2], some [1], none⟩, 1, some ⟨200, .received 1⟩⟩ : State Nat))
      (.cons trivial (rfl : _ = some (⟨⟨some [1, 2], none, none⟩, 1, some ⟨200, .received 1⟩⟩ : State Nat))
        (.cons ?_ rfl (.nil _))))
  refine fun _ _ => ⟨?_, ?_⟩
  · intro absurd
    cases absurd
  intro _ content present
  cases present
  rfl

/-- A target that has the size of the upload and ends with its last chunk is
taken for the upload. -/
theorem tail_taken_for_upload : ∃ s, exec (step [[1], [2]]) { dir := ⟨some [9, 2], none, none⟩ }
        [.send 0 {}, .lose .current, .send 1 {}] = some s ∧ ¬Truthful [[1], [2]] s := by
  refine ⟨⟨⟨some [9, 2], none, none⟩, 2, some ⟨200, .saved 2⟩⟩, rfl, ?_⟩
  intro truthful
  have whole := truthful 200 2 rfl
  exact absurd whole (by decide)

theorem Continues.of_proceed (inside : i < chunks.length) (later : 0 < (chunkRequest chunks i).offset)
    (placed : placeChunk dir faults tmp (chunkRequest chunks i) = (next, .proceed))
    (held : next.read tmp = some chunks.flatten) :
    ∃ content, statPartial dir faults tmp = some content ∧ Continues chunks i content := by
  unfold FileUpload.placeChunk at placed
  rw [if_neg (by omega)] at placed
  rcases continuePartialUpload_cases dir faults tmp (chunkRequest chunks i) with
    ⟨response, same, _⟩ | ⟨content, hstat, _, size, same⟩ | ⟨content, hstat, size, same⟩
  · cases same.symm.trans placed
  · obtain rfl := (Prod.mk.inj (same.symm.trans placed)).1
    refine ⟨content, hstat, ?_⟩
    cases (statPartial_some hstat).symm.trans held
    exact take_offset inside
  · refine ⟨content, hstat, ?_⟩
    rcases writeUploadChunk_cases dir tmp (chunkRequest chunks i).buf true faults.write with
      wrote | ⟨base, hbase, ⟨k, wrote⟩ | wrote⟩
    · cases (same.trans wrote).symm.trans placed
    · cases (same.trans wrote).symm.trans placed
    · cases (statPartial_some hstat).symm.trans hbase
      obtain rfl := (Prod.mk.inj ((same.trans wrote).symm.trans placed)).1
      rw [read_write] at held
      exact continues_of_whole inside (Option.some.inj held) (by omega)

theorem not_permitted_false (hstep : step chunks s (.send i faults) = some t)
    (saved : t.answer = some ⟨status, .saved bytes⟩) (excluded : ¬Permitted chunks s (.send i faults)) :
    ¬Truthful chunks t := by
  intro truthful
  have whole := truthful status bytes saved
  obtain ⟨_, inside, dir, answered, _⟩ := step_send hstep
  rw [dir] at whole
  apply excluded
  intro later last
  have placing := saved_cases (Option.some.inj (answered.symm.trans saved))
  constructor
  · intro _ content hstat _
    rcases placing with ⟨next, placed, _⟩ | ⟨next, target, placed, _, held, same⟩
    · have taken := (placeChunk_saved placed).2.2
      exact absurd (hstat.symm.trans taken.2.1) (by simp)
    · cases same.symm.trans whole
      obtain ⟨_, hstat', continues⟩ := Continues.of_proceed inside later placed held
      cases hstat.symm.trans hstat'
      exact continues
  · intro taken content present
    rcases placing with ⟨next, placed, same⟩ | ⟨next, target, placed, _, held, same⟩
    · obtain ⟨rfl, _, _⟩ := placeChunk_saved placed
      rw [same, present] at whole
      cases whole
      exact take_offset inside
    · cases same.symm.trans whole
      obtain ⟨_, hstat, _⟩ := Continues.of_proceed inside later placed held
      exact absurd (hstat.symm.trans taken.2.1) (by simp)

end Runs

end FileUpload
