import CinderHTTP.Base.Decimal
import CinderHTTP.Response.Build
import CinderHTTP.Static.Mime

/-!
# Serving static files

The rest of `static_files.c`: a relative path is resolved under the canonical
document root, a directory is replaced by its index file, and the file is
opened and attached to the response.  The error pages are built here too.
-/

namespace CinderHTTP

def pathMax : Nat := 4096
def httpMaxStaticFileSize : Nat := 64 * 1024 * 1024

/-- The path is the root, or continues it at a slash. -/
def pathIsWithinRoot (path root : Bytes) : Bool :=
  if path.length < root.length then false
  else if path.take root.length ≠ root then false
  else if path.length = root.length then true
  else (path.drop root.length).head? = some slash

/-- `snprintf` into a buffer of `PATH_MAX` bytes. -/
def printPath (text : Bytes) : Except StaticFileError Bytes :=
  if text.length ≥ pathMax then .error .badTarget else .ok text

def joinRootRelative (root relative : Bytes) :
    Except StaticFileError Bytes :=
  printPath (if relative = [] then root else root ++ slash :: relative)

/-! ## Resolving -/

/-- A path that passed the checks: its canonical form, the size found and
whether it is a directory. -/
structure Resolved where
  path : Bytes
  size : Nat
  isDir : Bool
  deriving DecidableEq

def checkStat (stat : Stat) : Except StaticFileError (Nat × Bool) :=
  match stat.kind with
  | .directory => .ok (0, true)
  | .other => .error .forbidden
  | .regular =>
      if stat.size < 0 then .error .ioError
      else if stat.size > httpMaxStaticFileSize then .error .tooLarge
      else if stat.size > sizeMax then .error .tooLarge
      else .ok (stat.size.toNat, false)

/-- The checks on a path, up to the copy of the result. -/
def locateUnderRoot (fs : FileSystem) (canonicalRoot relative : Bytes) :
    Except StaticFileError Resolved :=
  match joinRootRelative canonicalRoot relative with
  | .error failure => .error failure
  | .ok joined =>
      match fs.realpath joined with
      | .error .enoent => .error .notFound
      | .error .eacces => .error .forbidden
      | .error .other => .error .notFound
      | .ok resolved =>
          if !pathIsWithinRoot resolved canonicalRoot then .error .forbidden
          else
            match fs.stat resolved with
            | .error .enoent => .error .notFound
            | .error .eacces => .error .forbidden
            | .error .other => .error .ioError
            | .ok stat =>
                match checkStat stat with
                | .error failure => .error failure
                | .ok (size, isDir) =>
                    .ok { path := resolved, size := size, isDir := isDir }

def resolveUnderRoot (fs : FileSystem) (canonicalRoot relative : Bytes)
    (process : Process) : Except StaticFileError Resolved × Process :=
  match locateUnderRoot fs canonicalRoot relative with
  | .error failure => (.error failure, process)
  | .ok resolved =>
      let copy := process.malloc
      if !copy.1 then (.error .outOfMemory, copy.2)
      else (.ok resolved, copy.2)

def tryIndex (fs : FileSystem) (canonicalRoot dirRelative : Bytes)
    (process : Process) : Except StaticFileError Resolved × Process :=
  match printPath (if dirRelative = [] then ascii "index.html"
      else dirRelative ++ ascii "/index.html") with
  | .error failure => (.error failure, process)
  | .ok indexRelative =>
      match resolveUnderRoot fs canonicalRoot indexRelative process with
      | (.error failure, process) => (.error failure, process)
      | (.ok resolved, process) =>
          if resolved.isDir then (.error .forbidden, process)
          else (.ok resolved, process)

/-! ## Opening -/

/-- The checks on an open descriptor.  A regular file becomes the body of the
response; otherwise the descriptor is closed and the response destroyed. -/
def attachDescriptor (descriptor : Descriptor) (response : Response)
    (process : Process) :
    (Except StaticFileError Unit × Response) × Process :=
  let reject := fun (failure : StaticFileError) =>
    let destroyed := httpResponseDestroy response (process.close descriptor)
    ((.error failure, destroyed.1), destroyed.2)
  match descriptor.file.fstat with
  | .error _ => reject .ioError
  | .ok stat =>
      if stat.kind ≠ .regular then reject .forbidden
      else if stat.size < 0 then reject .ioError
      else if stat.size > httpMaxStaticFileSize then reject .tooLarge
      else if stat.size > sizeMax then reject .tooLarge
      else
        match httpResponseSetFileBody response descriptor stat.size
            process with
        | ((true, filled), process) => ((.ok (), filled), process)
        | ((false, unfilled), process) =>
            let destroyed :=
              httpResponseDestroy unfilled (process.close descriptor)
            ((.error .outOfMemory, destroyed.1), destroyed.2)

def fillFileResponse (fs : FileSystem) (response : Response) (path : Bytes)
    (process : Process) :
    (Except StaticFileError Unit × Response) × Process :=
  let destroyed := httpResponseDestroy response process
  let fresh := httpResponseSetStatus destroyed.1 200
  match httpResponseAddHeader fresh (ascii "Content-Type")
      (mimeTypeFromPath path) destroyed.2 with
  | ((false, response), process) => ((.error .outOfMemory, response), process)
  | ((true, response), process) =>
      match process.openRead fs path with
      | (.error errno, process) =>
          let destroyed := httpResponseDestroy response process
          let failure :=
            match errno with
            | .eacces => StaticFileError.forbidden
            | .enoent => .notFound
            | .other => .ioError
          ((.error failure, destroyed.1), destroyed.2)
      | (.ok descriptor, process) =>
          attachDescriptor descriptor response process

/-! ## Serving -/

/-- The three lexical stages. -/
def relativePath (target : Bytes) (process : Process) :
    Except StaticFileError Bytes × Process :=
  match staticFilesExtractPath target process with
  | (.error failure, process) => (.error failure, process)
  | (.ok path, process) =>
      match staticFilesUrlDecode path process with
      | (.error failure, process) => (.error failure, process)
      | (.ok decoded, process) => staticFilesNormalizePath decoded process

/-- The file to open for a relative path: the path itself, or the index file
of a directory. -/
def resolveTarget (fs : FileSystem) (canonicalRoot relative : Bytes)
    (process : Process) : Except StaticFileError Resolved × Process :=
  match resolveUnderRoot fs canonicalRoot relative process with
  | (.error failure, process) => (.error failure, process)
  | (.ok resolved, process) =>
      if resolved.isDir then
        match tryIndex fs canonicalRoot relative process with
        | (.error .notFound, process) => (.error .forbidden, process)
        | (.error failure, process) => (.error failure, process)
        | (.ok index, process) => (.ok index, process)
      else (.ok resolved, process)

/-- The canonical document root, when it is a directory. -/
def canonicalDocumentRoot (fs : FileSystem) (documentRoot : Bytes) :
    Option Bytes :=
  match fs.realpath documentRoot with
  | .error _ => none
  | .ok root =>
      match fs.stat root with
      | .error _ => none
      | .ok stat => if stat.kind = .directory then some root else none

/-- The part of `static_files_serve` that finds the file. -/
def findFile (fs : FileSystem) (documentRoot target : Bytes)
    (process : Process) : Except StaticFileError Resolved × Process :=
  match relativePath target process with
  | (.error failure, process) => (.error failure, process)
  | (.ok relative, process) =>
      match canonicalDocumentRoot fs documentRoot with
      | none => (.error .ioError, process)
      | some root => resolveTarget fs root relative process

def staticFilesServe (fs : FileSystem) (documentRoot : Bytes)
    (request : Request) (response : Response) (process : Process) :
    (Except StaticFileError Unit × Response) × Process :=
  match request.target with
  | none => ((.error .badTarget, response), process)
  | some target =>
      let destroyed := httpResponseDestroy response process
      match findFile fs documentRoot target destroyed.2 with
      | (.error failure, process) => ((.error failure, destroyed.1), process)
      | (.ok resolved, process) =>
          match fillFileResponse fs destroyed.1 resolved.path process with
          | ((.ok _, filled), process) => ((.ok (), filled), process)
          | ((.error failure, unfilled), process) =>
              let cleaned := httpResponseDestroy unfilled process
              ((.error failure, cleaned.1), cleaned.2)

theorem staticFilesServe_ok {fs : FileSystem} {documentRoot : Bytes}
    {request : Request} {response filled : Response}
    {process later : Process}
    (success : staticFilesServe fs documentRoot request response process =
      ((.ok (), filled), later)) :
    ∃ target resolved between, request.target = some target ∧
      findFile fs documentRoot target
        (httpResponseDestroy response process).2 = (.ok resolved, between) ∧
      fillFileResponse fs (httpResponseDestroy response process).1
        resolved.path between = ((.ok (), filled), later) := by
  unfold staticFilesServe at success
  cases targeted : request.target with
  | none => simp [targeted] at success
  | some target =>
      simp only [targeted] at success
      rcases found : findFile fs documentRoot target
        (httpResponseDestroy response process).2 with
          ⟨failure | resolved, between⟩
      · simp [found] at success
      simp only [found] at success
      rcases filling : fillFileResponse fs
        (httpResponseDestroy response process).1 resolved.path between with
          ⟨⟨failure | ⟨⟩, attached⟩, afterFill⟩
      · simp [filling] at success
      simp only [filling, Prod.mk.injEq, true_and] at success
      obtain ⟨rfl, rfl⟩ := success
      exact ⟨target, resolved, between, rfl, found, filling⟩

/-! ## Error pages -/

def errorPage (statusCode : Int) (heading : Bytes) : Bytes :=
  ascii "<!doctype html>\n<html><head><title>" ++
    signedDecimal statusCode ++ [space] ++ heading ++
    ascii "</title></head><body><h1>" ++
    signedDecimal statusCode ++ [space] ++ heading ++
    ascii "</h1></body></html>\n"

def errorPageSize : Nat := 512

def staticFilesBuildError (response : Response) (statusCode : Int)
    (heading : Bytes) (process : Process) : (Bool × Response) × Process :=
  if (errorPage statusCode heading).length ≥ errorPageSize then
    ((false, response), process)
  else
    buildWithType (ascii "text/html; charset=utf-8") response statusCode
      (some (errorPage statusCode heading)) process

/-- The request for the custom page. -/
def notFoundRequest : Request :=
  { httpRequestInit with
    method := .get
    target := some (ascii "/404.html")
    version := some (ascii "HTTP/1.1") }

def staticFilesBuildNotFound (fs : FileSystem) (documentRoot : Bytes)
    (response : Response) (process : Process) :
    (Bool × Response) × Process :=
  match staticFilesServe fs documentRoot notFoundRequest httpResponseInit
      process with
  | ((.ok _, page), process) =>
      let destroyed := httpResponseDestroy response process
      ((true, httpResponseSetStatus page 404), destroyed.2)
  | ((.error _, page), process) =>
      let destroyed := httpResponseDestroy page process
      staticFilesBuildError response 404 (ascii "Not Found") destroyed.2

end CinderHTTP
