import Oyster.FileUpload
import Oyster.Filesystem
import Oyster.Text
import Oyster.Unicode

/-! The routes of the file browser. A path that a client supplies is made canonical
and compared with the allowed roots and the denied paths; the names of uploads, of
their partial files, of new folders and of the temporary files of a save are then
joined to the checked path. A route runs with no change of the files by others. -/
namespace FileRoutes
open Filesystem

def pathText (path : Path) : List Char :=
  if path = [] then ['/'] else path.flatMap ('/' :: ·)

def resolveNames (base : Path) (names : List Name) : Path :=
  names.foldl (fun path name =>
    if name = ['.', '.'] then path.dropLast else if proper name then path ++ [name] else path) base

/-- `path.resolve` with the working directory of the process. -/
def resolve (cwd : Path) (text : List Char) : Path :=
  resolveNames (if text.head? = some '/' then [] else cwd) (text.splitOn '/')

/-- Climbs from a path that is not there; `missing` are the names left behind. -/
def canonicalFrom (host : Host) (disk : Disk) : (existing : List Name) → (missing : Path) → Option Path
  | existing, missing =>
    match realpath host disk existing.reverse with
    | .ok real => some (real ++ missing)
    | .error fault =>
      if fault = .noEntry ∨ fault = .notDirectory then
        match existing with
        | [] => none
        | name :: parent => canonicalFrom host disk parent (name :: missing)
      else none

/-- Resolve links in the existing part of a path without requiring its last names to exist. -/
def canonicalPath (host : Host) (disk : Disk) (path : Path) : Option Path :=
  canonicalFrom host disk path.reverse []

def relative : Path → Path → List Name
  | a :: base, b :: rest =>
    if a = b then relative base rest else List.replicate (base.length + 1) ['.', '.'] ++ b :: rest
  | base, rest => List.replicate base.length ['.', '.'] ++ rest

def isWithin (path root : Path) : Bool :=
  (relative root path).head?.all (· ≠ ['.', '.'])

structure Config where
  home : List Char
  piDir : List Char
  dirname : List Char
  cwd : Path
  cwd_proper : ∀ name ∈ cwd, proper name = true

structure RequestContext where
  roots : List Path
  denied : List Path

def join (dir : List Char) (name : String) : List Char := dir ++ '/' :: name.toList

structure Server where
  config : Config
  context : RequestContext
  host : Host
  currentDir : List Char
  /-- The process id and the random id in the name of a temporary file. -/
  saveTag : List Char
  /-- `localeCompare`, as an order. -/
  atMost : Name → Name → Bool

def RequestContext.safe (context : RequestContext) (real : Path) : Bool :=
  context.roots.any (isWithin real ·) && !context.denied.any (isWithin real ·)

def Server.resolveSafePath (server : Server) (disk : Disk) (path : Path) : Option Path :=
  (canonicalPath server.host disk path).filter server.context.safe

structure DirEntry where
  name : Name
  hidden : Bool

structure FileEntry where
  name : Name
  size : Option Nat
  hidden : Bool

/-- `cause` stands for the message of the system after the text. -/
inductive Body where
  | error (text : List Char) (cause : Option Fault)
  | listing (path : Path) (parent : Option Path) (dirs : List DirEntry) (files : Option (List FileEntry))
      (home workdir : List Char)
  | download (name : List Char) (content : List UInt8)
  | content (path : Path) (text : List Char)
  | saved (path : Path) (bytes : Nat)
  | upload (target : Path) (body : FileUpload.Body)
  | folder (path : Path)

structure Response where
  status : Nat
  body : Body

/-- `returned` are the entries whose content is in the response. -/
structure Outcome where
  response : Response
  disk : Disk
  returned : List Path := []
  written : List Path := []
  removed : List Path := []

def error (status : Nat) (text : List Char) (cause : Option Fault := none) : Response :=
  ⟨status, .error text cause⟩

def forbidden (path : Option (List Char)) : Response :=
  error 403 ("path outside the allowed roots: ".toList ++ path.getD [])

def unchanged (disk : Disk) (response : Response) : Outcome := { response, disk }

def changed (change : Change) (response : Response) : Outcome :=
  { response, disk := change.disk, written := change.written, removed := change.removed }

@[simp] theorem unchanged_returned (disk : Disk) (response : Response) : (unchanged disk response).returned = [] := rfl

def isDirectory (host : Host) (disk : Disk) (path : Path) : Bool :=
  match stat host disk path with
  | .ok (_, .dir) => true
  | _ => false

def existsSync (host : Host) (disk : Disk) (path : Path) : Bool := (stat host disk path).isOk

def statSize (host : Host) (disk : Disk) (path : Path) : Option Nat :=
  match stat host disk path with
  | .ok (real, node) => some (host.size real node)
  | .error _ => none

/-! Browsing and reading. -/

def isHidden (name : Name) : Bool := name.head? = some '.'

def Server.requested (server : Server) (path : Option (List Char)) : List Char :=
  match path with
  | none | some [] => server.currentDir
  | some text => text

def browse (server : Server) (disk : Disk) (path : Option (List Char)) (files : Bool) : Outcome :=
  match server.resolveSafePath disk (resolve server.config.cwd (server.requested path)) with
  | none => unchanged disk (forbidden path)
  | some target =>
    match readdir server.host disk target with
    | .error fault =>
      unchanged disk (error 400 ("cannot read ".toList ++ pathText target ++ ": ".toList) (some fault))
    | .ok (real, entries) =>
      let dirs := (entries.filter fun entry => entry.2 = .dir).map fun entry =>
        (⟨entry.1, isHidden entry.1⟩ : DirEntry)
      let plain := (entries.filter fun entry => entry.2 matches .file _).map fun entry =>
        (⟨entry.1, statSize server.host disk (target ++ [entry.1]), isHidden entry.1⟩ : FileEntry)
      { response := ⟨200, .listing target (if target = [] then none else some target.dropLast)
          (dirs.mergeSort fun a b => server.atMost a.name b.name)
          (if files then some (plain.mergeSort fun a b => server.atMost a.name b.name) else none)
          server.config.home server.currentDir⟩
        disk
        returned := [real] }

def safeName (name : Name) : List Char :=
  let ascii := name.flatMap fun c =>
    if 0x20 ≤ c.toNat ∧ c.toNat ≤ 0x7e then [c] else List.replicate (Text.utf16Length [c]) '_'
  let quoted := ascii.map fun c => if c = '"' ∨ c = '\\' then '\'' else c
  if quoted = [] then "download".toList else quoted

def fileDownload (server : Server) (disk : Disk) (path : Option (List Char)) : Outcome :=
  match server.resolveSafePath disk (resolve server.config.cwd (path.getD [])) with
  | none => unchanged disk (forbidden path)
  | some target =>
    match openRead server.host disk target with
    | .error _ => unchanged disk (error 404 "file could not be read".toList)
    | .ok (real, .file file) =>
      { response := ⟨200, .download (safeName (target.getLast?.getD [])) file.content⟩
        disk
        returned := [real] }
    | .ok _ => unchanged disk (error 400 "not a file".toList)

def maxEditableFileSize : Nat := 2 * 1024 * 1024

def tooLarge (size : Nat) : Response :=
  error 413 ("file too large to edit in browser (".toList ++ (toString size).toList ++ " bytes)".toList)

def fileContent (server : Server) (disk : Disk) (path : Option (List Char)) : Outcome :=
  match server.resolveSafePath disk (resolve server.config.cwd (path.getD [])) with
  | none => unchanged disk (forbidden path)
  | some target =>
    match stat server.host disk target with
    | .error fault => unchanged disk (error 404 [] (some fault))
    | .ok (_, .file file) =>
      if maxEditableFileSize < file.content.length then unchanged disk (tooLarge file.content.length)
      else match openRead server.host disk target with
        | .ok (real, .file file) =>
          if maxEditableFileSize < file.content.length then
            unchanged disk (tooLarge file.content.length)
          else if file.content.contains 0 then
            unchanged disk (error 415 "binary file — download it instead".toList)
          else
            { response := ⟨200, .content target (Utf8.decode file.content)⟩
              disk
              returned := [real] }
        | _ => unchanged disk (error 404 "file could not be read".toList)
    | .ok _ => unchanged disk (error 400 "not a file".toList)

/-! Saving and making folders. -/

/-- What `readJsonBody` gives: the fields of an object, or no object. -/
inductive JsonBody (α : Type) where
  | oversized
  | invalid
  | other
  | object (fields : α)

/-- `none` is a field that is not a string. -/
structure SaveFields where
  path : Option (List Char)
  content : Option (List Char)

structure MkdirFields where
  path : Option (List Char)
  name : Option (List Char)

def bodyTooLarge : Response := error 413 "request body too large".toList

def invalidJson : Response := error 400 "invalid JSON: ".toList (some .other)

def saveTemporary (server : Server) (target : Path) : Path :=
  target.dropLast ++ ['.' :: target.getLast?.getD [] ++ ".save-".toList ++ server.saveTag]

def replaceFile (server : Server) (disk : Disk) (target : Path) (content : List Char) : Change :=
  let temporary := saveTemporary server target
  let staged := write server.host disk .exclusive temporary (Utf8.encode content)
  let moved := if staged.fault.isNone then staged.andThen fun disk => rename server.host disk temporary target
    else staged
  if moved.fault.isNone then moved
  else { moved.andThen fun disk => unlink server.host disk temporary with fault := moved.fault }

def fileSave (server : Server) (disk : Disk) : JsonBody SaveFields → Outcome
  | .oversized => unchanged disk bodyTooLarge
  | .invalid => unchanged disk invalidJson
  | .other | .object ⟨none, _⟩ => unchanged disk (error 400 "path must be a string".toList)
  | .object ⟨some path, content⟩ =>
    match server.resolveSafePath disk (resolve server.config.cwd path), content with
    | none, _ => unchanged disk (forbidden (some path))
    | some _, none => unchanged disk (error 400 "content must be a string".toList)
    | some target, some content =>
      if isDirectory server.host disk target.dropLast then
        let change := replaceFile server disk target content
        changed change (if change.fault.isNone then ⟨200, .saved target (Utf8.encode content).length⟩
          else error 500 "save failed".toList)
      else unchanged disk (error 400 ("no such directory: ".toList ++ pathText target.dropLast))

def validName (name : Name) : Bool :=
  proper name && !name.contains '/' && !name.contains '\\'

def mkdir (server : Server) (disk : Disk) : JsonBody MkdirFields → Outcome
  | .oversized => unchanged disk bodyTooLarge
  | .invalid => unchanged disk invalidJson
  | .other | .object ⟨none, _⟩ | .object ⟨_, none⟩ =>
    unchanged disk (error 400 "path and folder name must be strings".toList)
  | .object ⟨some path, some name⟩ =>
    match server.resolveSafePath disk (resolve server.config.cwd path) with
    | none => unchanged disk (forbidden (some path))
    | some parent =>
      if !validName (Text.trim name) then unchanged disk (error 400 "invalid folder name".toList)
      else if !isDirectory server.host disk parent then
        unchanged disk (error 400 ("not a directory: ".toList ++ pathText parent))
      else
        let target := parent ++ [Text.trim name]
        if existsSync server.host disk target then
          unchanged disk (error 409 ("already exists: ".toList ++ pathText target))
        else
          let change := Filesystem.mkdir server.host disk target
          changed change (if change.fault.isNone then ⟨201, .folder target⟩
            else error 500 "mkdir failed: ".toList change.fault)

/-! Uploads. -/

/-- The parameters of an upload; an offset that is not a non-negative number is `none`. -/
structure UploadQuery where
  dir : Option (List Char)
  name : Option (List Char)
  offset : Option Nat
  last : Option (List Char)

structure Upload where
  dir : Path
  name : Name
  offset : Nat
  last : Bool

def parseUploadRequest (server : Server) (disk : Disk) (query : UploadQuery) : Except Response Upload :=
  match server.resolveSafePath disk (resolve server.config.cwd (query.dir.getD [])) with
  | none => .error (forbidden query.dir)
  | some dir =>
    let name := Text.trim (query.name.getD [])
    if !validName name then .error (error 400 "invalid file name".toList)
    else if !isDirectory server.host disk dir then
      .error (error 400 ("not a directory: ".toList ++ pathText dir))
    else match query.offset with
      | none => .error (error 400 "invalid offset".toList)
      | some offset =>
        if FileUpload.maxSafeInteger < offset then .error (error 400 "invalid offset".toList)
        else .ok ⟨dir, name, offset, query.last ≠ some ['0']⟩

def uploadStart : Name := ".oyster-upload-".toList

def uploadSuffix : Name := ".part".toList

/-- In milliseconds. -/
def staleUploadAge : Nat := 24 * 60 * 60 * 1000

def Upload.currentTmp (upload : Upload) : Path := upload.dir ++ [uploadStart ++ upload.name ++ uploadSuffix]

def Upload.legacyTmp (upload : Upload) : Path := upload.dir ++ ['.' :: upload.name ++ ".upload".toList]

def Upload.target (upload : Upload) : Path := upload.dir ++ [upload.name]

def removeStale (host : Host) (disk : Disk) (path : Path) : Change :=
  match stat host disk path with
  | .ok (_, .file file) => if file.modified + staleUploadAge < host.now then unlink host disk path else { disk }
  | _ => { disk }

def cleanupStaleUploads (host : Host) (disk : Disk) (dir : Path) : Change :=
  match readdir host disk dir with
  | .error _ => { disk }
  | .ok (_, entries) =>
    let partials := entries.filter fun (name, node) =>
      node matches .file _ && uploadStart.isPrefixOf name && uploadSuffix.isSuffixOf name
    partials.foldl (fun change (name, _) => change.andThen (removeStale host · (dir ++ [name]))) { disk }

def fileRangeEquals (host : Host) (disk : Disk) (path : Path) (offset : Nat) (expected : List UInt8)
    (expectedSize : Option Nat) : Bool :=
  match openRead host disk path with
  | .error _ => false
  | .ok (real, node) =>
    let size := host.size real node
    let content := match node with
      | .file file => file.content
      | _ => []
    expectedSize.all (· == size) && decide (offset + expected.length ≤ size)
      && (content.drop offset).take expected.length == expected

def uploadTempPath (host : Host) (disk : Disk) (upload : Upload) : Path :=
  if 0 < upload.offset ∧ ¬existsSync host disk upload.currentTmp ∧ existsSync host disk upload.legacyTmp then
    upload.legacyTmp
  else upload.currentTmp

def writeUploadChunk (host : Host) (disk : Disk) (opening : Opening) (tmp : Path) (buf : List UInt8) :
    Change × FileUpload.Outcome :=
  let change := write host disk opening tmp buf
  (change, if change.fault.isNone then .proceed else .threw)

def continuePartialUpload (host : Host) (disk : Disk) (tmp target : Path)
    (request : FileUpload.Request UInt8) : Change × FileUpload.Outcome :=
  let reached := request.offset + request.buf.length
  match statSize host disk tmp with
  | none =>
    if request.last && fileRangeEquals host disk target request.offset request.buf (some reached)
    then ({ disk }, .respond ⟨200, .saved reached⟩)
    else ({ disk }, .respond (FileUpload.sequenceError none request.offset))
  | some cur =>
    if reached ≤ cur ∧ fileRangeEquals host disk tmp request.offset request.buf none then
      if !request.last then ({ disk }, .respond ⟨200, .received cur⟩)
      else if cur ≠ reached then ({ disk }, .respond (FileUpload.finalChunkError cur))
      else ({ disk }, .proceed)
    else if cur ≠ request.offset then
      ({ disk }, .respond (FileUpload.sequenceError (some cur) request.offset))
    else writeUploadChunk host disk .append tmp request.buf

def placeChunk (host : Host) (disk : Disk) (tmp target : Path) (request : FileUpload.Request UInt8) :
    Change × FileUpload.Outcome :=
  if request.offset = 0 then writeUploadChunk host disk .truncate tmp request.buf
  else continuePartialUpload host disk tmp target request

/-- The `catch` of `applyUploadChunk`. -/
def uploadFailed (host : Host) (change : Change) (tmp : Path) : Change × Option FileUpload.Response :=
  (change.andThen (unlink host · tmp), some ⟨500, .error "upload failed" none⟩)

def applyUploadChunk (host : Host) (disk : Disk) (tmp target : Path)
    (request : FileUpload.Request UInt8) : Change × Option FileUpload.Response :=
  match placeChunk host disk tmp target request with
  | (change, .threw) => uploadFailed host change tmp
  | (change, .respond response) => (change, some response)
  | (change, .proceed) =>
    if request.last then
      let moved := change.andThen (rename host · tmp target)
      if moved.fault.isNone then (moved, none) else uploadFailed host moved tmp
    else (change, none)

def sendUploadSuccess (host : Host) (disk : Disk) (target : Path) (request : FileUpload.Request UInt8) :
    FileUpload.Response :=
  if !request.last then ⟨200, .received (request.offset + request.buf.length)⟩
  else match statSize host disk target with
    | some bytes => ⟨200, .saved bytes⟩
    | none => ⟨500, .error "upload finalization failed" none⟩

def uploadAnswer (target : Path) (response : FileUpload.Response) : Response :=
  ⟨response.status, .upload target response.body⟩

def Upload.request (upload : Upload) (buf : List UInt8) : FileUpload.Request UInt8 :=
  ⟨upload.offset, buf, upload.last⟩

def fileUpload (server : Server) (disk : Disk) (query : UploadQuery)
    (body : Except FileUpload.BodyFault (List UInt8)) : Outcome :=
  match parseUploadRequest server disk query with
  | .error response => unchanged disk response
  | .ok upload =>
    let swept := cleanupStaleUploads server.host disk upload.dir
    match body with
    | .error .tooLarge => changed swept (error 413 "upload chunk too large".toList)
    | .error .unreadable => changed swept (error 400 "upload body could not be read".toList)
    | .ok buf =>
      if FileUpload.maxSafeInteger < upload.offset + buf.length then
        changed swept (error 400 "invalid offset".toList)
      else
        let tmp := uploadTempPath server.host swept.disk upload
        let placed := applyUploadChunk server.host swept.disk tmp upload.target (upload.request buf)
        let response := placed.2.getD (sendUploadSuccess server.host placed.1.disk upload.target (upload.request buf))
        changed (swept.andThen fun _ => placed.1) (uploadAnswer upload.target response)

inductive Request where
  | browse (path : Option (List Char)) (files : Bool)
  | fileDownload (path : Option (List Char))
  | fileContent (path : Option (List Char))
  | fileSave (body : JsonBody SaveFields)
  | fileUpload (query : UploadQuery) (body : Except FileUpload.BodyFault (List UInt8))
  | mkdir (body : JsonBody MkdirFields)

def handle (server : Server) (disk : Disk) : Request → Outcome
  | .browse path files => browse server disk path files
  | .fileDownload path => fileDownload server disk path
  | .fileContent path => fileContent server disk path
  | .fileSave body => fileSave server disk body
  | .fileUpload query body => fileUpload server disk query body
  | .mkdir body => mkdir server disk body

end FileRoutes
