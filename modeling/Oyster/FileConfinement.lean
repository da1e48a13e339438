import Oyster.FileRoutes

/-! What the routes of the file browser return and put in place. Making a path
canonical gives one that leads nowhere but to itself, so what is checked is what is
opened; the names joined to it afterwards are not checked again. -/
namespace FileRoutes
open Filesystem

def RequestContext.Confined (context : RequestContext) (path : Path) : Prop :=
  (∃ root ∈ context.roots, root <+: path) ∧ ∀ blocked ∈ context.denied, ¬blocked <+: path

def Request.path (server : Server) : Request → Option (List Char)
  | .browse path _ => some (server.requested path)
  | .fileDownload path | .fileContent path => some (path.getD [])
  | .fileSave (.object fields) => fields.path
  | .fileUpload query _ => some (query.dir.getD [])
  | .mkdir (.object fields) => fields.path
  | .fileSave _ | .mkdir _ => none

theorem resolveNames_proper {base : Path} {names : List Name} (named : ∀ name ∈ base, proper name = true) :
    ∀ name ∈ resolveNames base names, proper name = true := by
  unfold resolveNames
  induction names generalizing base with
  | nil => exact named
  | cons name rest ih =>
    rw [List.foldl_cons]
    apply ih
    split_ifs with up isProper
    · exact fun name mem => named name (List.mem_of_mem_dropLast mem)
    · intro other mem
      rcases List.mem_append.mp mem with mem | last
      · exact named other mem
      · exact List.mem_singleton.mp last ▸ isProper
    · exact named

variable {host : Host} {disk : Disk}

variable {real : Path} {existing missing : Path}

structure Checked (server : Server) (disk : Disk) (text : List Char) (target : Path) : Prop where
  canonical : canonicalPath server.host disk (resolve server.config.cwd text) = some target
  located : Located disk target
  named : ∀ name ∈ target, proper name = true
  confined : server.context.Confined target

section Check
variable {server : Server} {disk : Disk} {text : List Char}

end Check

/-! What is returned. -/

variable {path : Option (List Char)} {server : Server} {files : Bool}

variable {body : Except FileUpload.BodyFault (List UInt8)} {query : UploadQuery}

def Outcome.Frames (disk : Disk) (outcome : Outcome) : Prop :=
  ∀ path, path ∉ outcome.written → path ∉ outcome.removed → Disk.node outcome.disk path = Disk.node disk path

variable {response : Response}

variable {target : Path}

/-- The partial upload is known to hold the chunk already. -/
def Held (host : Host) (disk : Disk) (tmp : Path) (request : FileUpload.Request UInt8) : Prop :=
  0 < request.offset ∧ (∃ cur, statSize host disk tmp = some cur ∧ request.offset + request.buf.length ≤ cur) ∧
    fileRangeEquals host disk tmp request.offset request.buf none = true

section Written
variable {server : Server} {host : Host} {disk : Disk}

variable {above : Path} {name : Name}

variable {content : List Char}

variable {tmp target path : Path} {request : FileUpload.Request UInt8} {opening : Opening}

end Written

section Confinement
variable {server : Server} {context : RequestContext} {disk : Disk} {above : Path}

variable {name : Name}

variable {text : List Char} {content : List Char}

variable {path : Option (List Char)}

end Confinement

/-! An upload to a store of secrets. -/

def absolute (text : String) : Path := resolve [] text.toList

end FileRoutes
