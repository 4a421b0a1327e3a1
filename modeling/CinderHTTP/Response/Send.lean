import CinderHTTP.Response.Build
import CinderHTTP.Base.Decimal

/-!
# Serializing and sending responses

`http_response_serialize_headers`, `http_response_serialize`, `send_all`,
`send_file_body` and `http_response_send`.  The kernel answers `send`,
`sendfile`, `lseek` and `read` from scripts.  When a script is exhausted the
call takes or gives everything it was asked for.  The functions return the
bytes that reached the socket with the flag for success.
-/

namespace CinderHTTP

/-! ## Serialization -/

def statusLine (response : Response) : Bytes :=
  ascii "HTTP/1.1 " ++ signedDecimal response.statusCode ++ [space] ++
    response.reasonPhrase ++ crlf

def lengthHeader (response : Response) : Bytes :=
  ascii "Content-Length: " ++ decimal response.bodyLength ++ crlf

def serverHeader : Bytes := ascii "Server: CinderHTTP/1.0\r\n"

def connectionHeader : Bytes := ascii "Connection: close\r\n"

def needServer (response : Response) : Bool :=
  !responseHasHeader response (ascii "Server")

def needConnection (response : Response) : Bool :=
  !responseHasHeader response (ascii "Connection") &&
    !response.suppressAutoConnectionClose

def needContentLength (response : Response) : Bool :=
  !responseHasHeader response (ascii "Content-Length")

def headerLine (header : Header) : Bytes :=
  header.name ++ [colon, space] ++ header.value ++ crlf

/-- The size computed before anything is written. -/
def serializedTotal (response : Response) : Nat :=
  (statusLine response).length +
    (response.headers.map fun header =>
      header.name.length + 2 + (header.value.length + 2)).sum +
    (if needServer response then serverHeader.length else 0) +
    (if needConnection response then connectionHeader.length else 0) +
    (if needContentLength response then (lengthHeader response).length
      else 0) + 2

/-- The bytes written. -/
def serializedBytes (response : Response) : Bytes :=
  statusLine response ++
    (response.headers.map headerLine).flatten ++
    (if needServer response then serverHeader else []) ++
    (if needConnection response then connectionHeader else []) ++
    (if needContentLength response then lengthHeader response else []) ++
    crlf

def statusLineSize : Nat := 128
def lengthHeaderSize : Nat := 64

def httpResponseSerializeHeaders (response : Response) (process : Process) :
    Option Bytes × Process :=
  if (statusLine response).length ≥ statusLineSize then (none, process)
  else if (lengthHeader response).length ≥ lengthHeaderSize then
    (none, process)
  else
    let buffer := process.malloc
    if !buffer.1 then (none, buffer.2)
    else if (serializedBytes response).length ≠ serializedTotal response then
      (none, buffer.2)
    else (some (serializedBytes response), buffer.2)

def httpResponseSerialize (response : Response) (omitBody : Bool)
    (process : Process) : Option Bytes × Process :=
  match httpResponseSerializeHeaders response process with
  | (none, process) => (none, process)
  | (some headers, process) =>
      match response.body with
      | none => (some headers, process)
      | some body =>
          if !omitBody && response.bodyKind == .memory &&
              response.bodyLength > 0 then
            let buffer := process.malloc
            if !buffer.1 then (none, buffer.2)
            else (some (headers ++ body.take response.bodyLength), buffer.2)
          else (some headers, process)

/-! ## Sending from memory -/

/-- One answer of `send`.  An accepted size is at least one byte and at most
what was offered. -/
inductive SendAnswer where
  | accepted (size : Nat)
  | zero
  | interrupted
  | failed
  deriving DecidableEq, Repr

structure SendResult where
  success : Bool
  sent : Bytes
  script : List SendAnswer
  deriving DecidableEq, Repr

def sendAll (buffer : Bytes) : List SendAnswer → SendResult
  | [] => { success := true, sent := buffer, script := [] }
  | answer :: script =>
      if buffer = [] then
        { success := true, sent := [], script := answer :: script }
      else
        match answer with
        | .interrupted => sendAll buffer script
        | .failed => { success := false, sent := [], script := script }
        | .zero => { success := false, sent := [], script := script }
        | .accepted size =>
            let count := min (max size 1) buffer.length
            let rest := sendAll (buffer.drop count) script
            { rest with sent := buffer.take count ++ rest.sent }

/-! ## Sending from a file -/

def httpStaticSendChunk : Nat := 32768

/-- One answer of `sendfile`; `unsupported` stands for EINVAL and ENOSYS. -/
inductive SendfileAnswer where
  | sent (size : Nat)
  | eof
  | interrupted
  | unsupported
  | failed
  deriving DecidableEq, Repr

inductive ReadAnswer where
  | got (size : Nat)
  | eof
  | interrupted
  | failed
  deriving DecidableEq, Repr

/-- The answers of the kernel while one response is sent. -/
structure Transfer where
  sends : List SendAnswer := []
  sendfiles : List SendfileAnswer := []
  lseek : Bool := true
  reads : List ReadAnswer := []
  deriving DecidableEq, Repr

/-- How the `sendfile` loop ends: with an error return, or at an offset. -/
structure SendfileResult where
  left : Bool
  sent : Bytes
  offset : Nat
  deriving DecidableEq, Repr

/-- The bytes of the file at an offset, at most as many as asked for. -/
def fileBytes (content : Bytes) (offset count : Nat) : Bytes :=
  (content.drop offset).take count

def sendfileLoop (content : Bytes) (length offset : Nat) :
    List SendfileAnswer → SendfileResult
  | [] =>
      let bytes := fileBytes content offset (length - offset)
      -- a file that is too short answers the next call with end-of-file
      { left := bytes.length = length - offset
        sent := bytes
        offset := offset + bytes.length }
  | answer :: script =>
      if length - offset = 0 then
        { left := true, sent := [], offset := offset }
      else
        match answer with
        | .interrupted => sendfileLoop content length offset script
        | .unsupported =>
            { left := offset = 0, sent := [], offset := offset }
        | .failed => { left := false, sent := [], offset := offset }
        | .eof => { left := false, sent := [], offset := offset }
        | .sent size =>
            let bytes := fileBytes content offset
              (min (max size 1) (length - offset))
            if bytes = [] then
              { left := false, sent := [], offset := offset }
            else
              let rest := sendfileLoop content length
                (offset + bytes.length) script
              { rest with sent := bytes ++ rest.sent }

/-- The portable loop: `read` into a chunk, then `send_all`. -/
def copyLoop (content : Bytes) (position remaining : Nat)
    (reads : List ReadAnswer) (sends : List SendAnswer) : SendResult :=
  if remaining = 0 then { success := true, sent := [], script := sends }
  else
    let want := min remaining httpStaticSendChunk
    match _answer : reads.headD (.got want) with
    | .interrupted => copyLoop content position remaining reads.tail sends
    | .failed => { success := false, sent := [], script := sends }
    | .eof => { success := false, sent := [], script := sends }
    | .got size =>
        let chunk := fileBytes content position (min (max size 1) want)
        if chunk = [] then
          { success := false, sent := [], script := sends }
        else
          let chunkSent := sendAll chunk sends
          if !chunkSent.success then chunkSent
          else
            let rest := copyLoop content (position + chunk.length)
              (remaining - chunk.length) reads.tail chunkSent.script
            { rest with sent := chunkSent.sent ++ rest.sent }
termination_by remaining + reads.length
decreasing_by
  · cases reads with
    | nil => simp at _answer
    | cons first others => simp
  · have positive : 0 < chunk.length := List.length_pos_iff.mpr (by assumption)
    change remaining - chunk.length + reads.tail.length <
      remaining + reads.length
    rw [List.length_tail]
    omega

def sendFileBody (file : OpenFile) (length : Nat) (transfer : Transfer) :
    SendResult :=
  if length = 0 then
    { success := true, sent := [], script := transfer.sends }
  else
    let fast := sendfileLoop file.content length 0 transfer.sendfiles
    if !fast.left then
      { success := false, sent := fast.sent, script := transfer.sends }
    else if fast.offset = length then
      { success := true, sent := fast.sent, script := transfer.sends }
    else if !transfer.lseek then
      { success := false, sent := fast.sent, script := transfer.sends }
    else
      let slow := copyLoop file.content fast.offset (length - fast.offset)
        transfer.reads transfer.sends
      { slow with sent := fast.sent ++ slow.sent }

/-! ## Sending a response -/

/-- The part of `http_response_send` behind the header section. -/
def sendBody (response : Response) (transfer : Transfer) : SendResult :=
  match response.bodyKind with
  | .memory =>
      if response.bodyLength = 0 then
        { success := true, sent := [], script := transfer.sends }
      else
        match response.body with
        | none => { success := false, sent := [], script := transfer.sends }
        | some body =>
            sendAll (body.take response.bodyLength) transfer.sends
  | .file =>
      match response.fileFd with
      | none => { success := false, sent := [], script := transfer.sends }
      | some descriptor =>
          sendFileBody descriptor.file response.bodyLength transfer
  | .none => { success := true, sent := [], script := transfer.sends }

/-- Whether `http_response_send` returned 0, and what reached the socket. -/
structure Sending where
  success : Bool
  sent : Bytes
  deriving DecidableEq, Repr

def httpResponseSend (response : Response) (omitBody : Bool)
    (process : Process) (transfer : Transfer) : Sending × Process :=
  match httpResponseSerializeHeaders response process with
  | (none, process) => ({ success := false, sent := [] }, process)
  | (some headers, process) =>
      let head := sendAll headers transfer.sends
      if !head.success then
        ({ success := false, sent := head.sent }, process)
      else if omitBody then
        ({ success := true, sent := head.sent }, process)
      else
        let rest := sendBody response { transfer with sends := head.script }
        ({ success := rest.success, sent := head.sent ++ rest.sent },
          process)

end CinderHTTP
