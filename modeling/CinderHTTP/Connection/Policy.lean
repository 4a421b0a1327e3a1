import CinderHTTP.Http.Parser
import CinderHTTP.Response.Send

/-!
# Connection persistence

The functions of `http_connection.c`: tokens of a Connection field, whether a
request asks for a persistent connection, and how a response announces what
the server decided.
-/

namespace CinderHTTP

def tokenEqualCi (element token : Bytes) : Bool :=
  if element.length ≠ token.length then false
  else
    (element.zip token).all fun pair =>
      asciiTolower pair.1 == asciiTolower pair.2

/-- The scan for a token from a position of the value. -/
def hasTokenFrom (cursor token : Bytes) : Bool :=
  if skipOws cursor = [] then false
  else
    let element := (skipOws cursor).takeWhile (· ≠ comma)
    let rest := (skipOws cursor).dropWhile (· ≠ comma)
    if tokenEqualCi (trimOwsEnd element) token then true
    else hasTokenFrom (rest.drop 1) token
termination_by cursor.length
decreasing_by
  have shorter : (skipOws cursor).length ≤ cursor.length :=
    (List.dropWhile_suffix isOws).length_le
  have nonempty : 0 < (skipOws cursor).length :=
    List.length_pos_iff.mpr (by assumption)
  have behind : ((skipOws cursor).dropWhile (· ≠ comma)).length ≤
      (skipOws cursor).length := (List.dropWhile_suffix _).length_le
  rw [List.length_drop]
  omega

def httpHeaderValueHasToken (value : Option Bytes) (token : Bytes) : Bool :=
  match value with
  | none => false
  | some value => if token = [] then false else hasTokenFrom value token

def httpRequestWantsKeepAlive (request : Request) : Bool :=
  match request.version with
  | none => false
  | some version =>
      let connection := httpRequestGetHeader request (ascii "Connection")
      if httpHeaderValueHasToken connection (ascii "close") then false
      else if version = ascii "HTTP/1.1" then true
      else if version = ascii "HTTP/1.0" then
        httpHeaderValueHasToken connection (ascii "keep-alive")
      else false

def httpResponseApplyConnectionPolicy (response : Response)
    (keepAlive : Bool) (httpVersion : Option Bytes) (process : Process) :
    (Bool × Response) × Process :=
  if !keepAlive then
    httpResponseSetHeader
      { response with suppressAutoConnectionClose := false }
      (ascii "Connection") (ascii "close") process
  else if httpVersion = some (ascii "HTTP/1.0") then
    httpResponseSetHeader
      { response with suppressAutoConnectionClose := false }
      (ascii "Connection") (ascii "keep-alive") process
  else
    let removed :=
      (httpResponseRemoveHeader response (ascii "Connection")).2
    ((true, { removed with suppressAutoConnectionClose := true }), process)

end CinderHTTP
