import Cadeloop.Reasoning.Rfc7230

/-!
# ASGI `send` of an HTTP response (`crates/pyshim/src/http.rs`)

`process_send` turns the messages of an application into the bytes of one response.  The
connection is open and not a WebSocket here, and a message has been taken out of its dict: what
raises before that touches no state.
-/

namespace Cadeloop.Pyshim.Http

open Cadeloop.Reasoning
open Rfc7230 (Field crlf)

/-! ## 1. Statuses and bytes -/

-- 1xx, 204, 304: terminated by the end of the headers
def statusForbidsBody (status : Nat) : Bool :=
  (100 ≤ status && status < 200) || status = 204 || status = 304

-- 205: no content, but explicitly framed
def statusRequiresEmptyBody (status : Nat) : Bool := status = 205

def statusForbidsContentLength (status : Nat) : Bool :=
  (100 ≤ status && status < 200) || status = 204 || status = 205

def statusText : Nat → String
  | 100 => "Continue"
  | 101 => "Switching Protocols"
  | 200 => "OK"
  | 201 => "Created"
  | 202 => "Accepted"
  | 204 => "No Content"
  | 206 => "Partial Content"
  | 301 => "Moved Permanently"
  | 302 => "Found"
  | 303 => "See Other"
  | 304 => "Not Modified"
  | 307 => "Temporary Redirect"
  | 308 => "Permanent Redirect"
  | 400 => "Bad Request"
  | 401 => "Unauthorized"
  | 403 => "Forbidden"
  | 404 => "Not Found"
  | 405 => "Method Not Allowed"
  | 406 => "Not Acceptable"
  | 408 => "Request Timeout"
  | 409 => "Conflict"
  | 410 => "Gone"
  | 412 => "Precondition Failed"
  | 413 => "Payload Too Large"
  | 414 => "URI Too Long"
  | 415 => "Unsupported Media Type"
  | 422 => "Unprocessable Entity"
  | 429 => "Too Many Requests"
  | 431 => "Request Header Fields Too Large"
  | 500 => "Internal Server Error"
  | 501 => "Not Implemented"
  | 502 => "Bad Gateway"
  | 503 => "Service Unavailable"
  | 504 => "Gateway Timeout"
  | _ => ""

def isAsciiDigit (b : UInt8) : Bool := 48 ≤ b.toNat && b.toNat ≤ 57

def isAsciiAlphanumeric (b : UInt8) : Bool :=
  isAsciiDigit b || (65 ≤ b.toNat && b.toNat ≤ 90) || (97 ≤ b.toNat && b.toNat ≤ 122)

def isTchar (b : UInt8) : Bool := isAsciiAlphanumeric b || (ascii "!#$%&'*+-.^_`|~").contains b

-- HTAB, SP, VCHAR and obs-text
def isFieldVchar (b : UInt8) : Bool :=
  b.toNat = 9 || (32 ≤ b.toNat && b.toNat ≤ 126) || 128 ≤ b.toNat

-- what `trim_ascii` trims
def isAsciiWhitespace (b : UInt8) : Bool :=
  b.toNat = 32 || b.toNat = 9 || b.toNat = 10 || b.toNat = 12 || b.toNat = 13

def eqIgnoreAsciiCase (a b : Bytes) : Bool := lower a = lower b

/-! ## 2. The date line -/

def days : List String := ["Sun", "Mon", "Tue", "Wed", "Thu", "Fri", "Sat"]

def months : List String :=
  ["Jan", "Feb", "Mar", "Apr", "May", "Jun", "Jul", "Aug", "Sep", "Oct", "Nov", "Dec"]

-- a number with at least two digits
def twoDigits (n : Nat) : Bytes := if n < 10 then ascii "0" ++ numeral 10 n else numeral 10 n

/-- The value of the date line at `unixSecs`: civil from days. -/
def dateValue (unixSecs : Nat) : Bytes :=
  let day := unixSecs / 86400
  let secs := unixSecs % 86400
  let h := secs / 3600
  let m := secs / 60 % 60
  let s := secs % 60
  let z := day + 719468
  let era := z / 146097
  let doe := z % 146097
  let yoe := (doe - doe / 1460 + doe / 36524 - doe / 146096) / 365
  let y := yoe + era * 400
  let doy := doe - (365 * yoe + yoe / 4 - yoe / 100)
  let mp := (5 * doy + 2) / 153
  let d := doy - (153 * mp + 2) / 5 + 1
  let month := if mp < 10 then mp + 3 else mp - 9
  let year := if month ≤ 2 then y + 1 else y
  let weekday := (day + 4) % 7
  ascii (days.getD weekday "") ++ ascii ", " ++ twoDigits d ++ ascii " " ++
    ascii (months.getD (month - 1) "") ++ ascii " " ++ numeral 10 year ++ ascii " " ++
    twoDigits h ++ ascii ":" ++ twoDigits m ++ ascii ":" ++ twoDigits s ++ ascii " GMT"

def buildDateLine (unixSecs : Nat) : Bytes := ascii "date: " ++ dateValue unixSecs ++ crlf

/-! ## 3. The connection -/

inductive RespPhase where
  | idle
  -- the head is buffered until the first body message decides the framing
  | started
  | streaming
  -- the body is complete, the terminating chunk withheld
  | awaitingTrailers
  | done
  deriving DecidableEq

structure HttpConn where
  keepAlive : Bool
  resp : RespPhase
  respHead : Bytes
  respStartedWithLength : Bool
  respAppConnection : Bool
  -- below 2^64
  respDeclaredLength : Option Nat
  respBodySent : Nat
  rawStream : Bool
  activeHead : Bool
  respBodyless : Bool
  respEmpty : Bool
  trailersStarted : Bool
  respTrailers : Bool
  activeMinor : Nat
  -- futures of parked `receive()` calls
  recvWaiters : List Nat
  logStatus : Nat
  deriving DecidableEq

/-- A connection that has just been accepted. -/
def HttpConn.new : HttpConn where
  keepAlive := true
  resp := .idle
  respHead := []
  respStartedWithLength := false
  respAppConnection := false
  respDeclaredLength := none
  respBodySent := 0
  rawStream := false
  activeHead := false
  respBodyless := false
  respEmpty := false
  trailersStarted := false
  respTrailers := false
  activeMinor := 1
  recvWaiters := []
  logStatus := 0

/-- The reset of `pump_requests` when it starts a request. -/
def HttpConn.startRequest (c : HttpConn) (keepAlive head : Bool) (minor : Nat) : HttpConn :=
  { c with
    keepAlive
    resp := .idle
    respHead := []
    respStartedWithLength := false
    respAppConnection := false
    respDeclaredLength := none
    respBodySent := 0
    rawStream := false
    activeHead := head
    respBodyless := false
    respEmpty := false
    respTrailers := false
    trailersStarted := false
    activeMinor := minor }

/-! ## 4. Checks -/

-- every one is raised as a RuntimeError
inductive SendErr where
  | proto (message : String)
  deriving DecidableEq

-- `{b:#04x}`
def hexByte (b : UInt8) : String :=
  "0x" ++ String.ofList [Nat.digitChar (b.toNat / 16), Nat.digitChar (b.toNat % 16)]

def validateResponseHeader (name value : Bytes) : Except String Unit :=
  if name = [] then .error "empty header name"
  else match name.find? fun b => !isTchar b with
    | some b => .error s!"invalid byte {hexByte b} in header name"
    | none =>
      match value.find? fun b => !isFieldVchar b with
      | some b => .error s!"invalid byte {hexByte b} in header value"
      | none => .ok ()

def forbiddenTrailers : List String :=
  ["transfer-encoding", "content-length", "host", "cache-control", "expect", "max-forwards", "pragma",
    "range", "te", "authorization", "set-cookie", "content-encoding", "content-type",
    "content-range", "trailer"]

def isForbiddenTrailer (name : Bytes) : Bool :=
  (forbiddenTrailers.map ascii).contains ((lower name).filter fun b => !(ascii " \t").contains b)

/-- What a content-length value declares, given what one before it did. -/
def contentLength (declared : Option Nat) (value : Bytes) : Except SendErr Nat :=
  let digits := trim isAsciiWhitespace value
  let valid := !digits.isEmpty && digits.all isAsciiDigit
  let parsed := if valid then (readNumeral 10 digits).filter fun n => n < 2 ^ 64 else none
  match parsed with
  | none => .error (.proto "ASGI application sent a non-numeric content-length")
  | some n =>
    if declared.any fun prev => prev ≠ n then
      .error (.proto "ASGI application sent conflicting content-length headers")
    else .ok n

def announceKeepAlive10 (c : HttpConn) (out : Bytes) : Bytes :=
  if c.activeMinor = 0 ∧ c.keepAlive = true ∧ c.respAppConnection = false then
    out ++ ascii "connection: keep-alive\r\n"
  else out

def lengthMismatch (c : HttpConn) (finalMessage : Bool) : Option SendErr :=
  if c.activeHead || c.respBodyless || c.respEmpty then none
  else match c.respDeclaredLength with
    | none => none
    | some declared =>
      if c.respBodySent > declared then
        some (.proto "response body exceeded the declared content-length")
      else if finalMessage && c.respBodySent < declared then
        some (.proto "response body was shorter than the declared content-length")
      else none

def pushChunk (out body : Bytes) : Bytes := out ++ numeral 16 body.length ++ crlf ++ body ++ crlf

/-! ## 5. Messages -/

inductive Message where
  | start (status : Option UInt16) (headers : List Field) (trailers : Bool)
  | body (body : Bytes) (moreBody : Bool)
  | trailers (headers : List Field) (moreTrailers : Bool)
  | other (kind : String)

structure Reply where
  result : Except SendErr Unit
  conn : HttpConn
  -- the buffers handed to `http_enqueue`, and the waiters that get http.disconnect
  enqueued : List Bytes
  released : List Nat

def reject (c : HttpConn) (message : String) : Reply := ⟨.error (.proto message), c, [], []⟩

/-- Once the response is complete, parked `receive()` calls get http.disconnect. -/
def releaseAfterResponse (c : HttpConn) : HttpConn × List Nat :=
  if c.resp ≠ .done ∨ c.recvWaiters = [] then (c, []) else ({ c with recvWaiters := [] }, c.recvWaiters)

def enqueue (c : HttpConn) (out : Bytes) : Reply :=
  let r := releaseAfterResponse c
  ⟨.ok (), r.1, [out], r.2⟩

/-! ## 6. `http.response.start` -/

-- what the loop over the headers accumulates
structure HeadScan where
  head : Bytes
  declaredLength : Option Nat
  sawClose : Bool
  sawConnection : Bool

def saysClose (value : Bytes) : Bool :=
  (lower value).tails.any fun w => (ascii "close").isPrefixOf w

def startHeader (status : Nat) (a : HeadScan) (h : Field) : Except SendErr HeadScan :=
  match validateResponseHeader h.1 h.2 with
  | .error why => .error (.proto s!"ASGI application sent an invalid response header: {why}")
  | .ok () =>
    let isLength := eqIgnoreAsciiCase h.1 (ascii "content-length")
    if isLength && statusForbidsContentLength status then .ok a
    else
      let declared :=
        if isLength then (contentLength a.declaredLength h.2).map some else .ok a.declaredLength
      match declared with
      | .error e => .error e
      | .ok declaredLength =>
        if eqIgnoreAsciiCase h.1 (ascii "transfer-encoding") then .ok { a with declaredLength }
        else
          let isConnection := eqIgnoreAsciiCase h.1 (ascii "connection")
          let sawConnection := a.sawConnection || isConnection
          let sawClose := a.sawClose || (isConnection && saysClose h.2)
          if eqIgnoreAsciiCase h.1 (ascii "date") || eqIgnoreAsciiCase h.1 (ascii "server") then
            .ok { a with declaredLength, sawConnection, sawClose }
          else
            .ok { declaredLength, sawConnection, sawClose
                  head := a.head ++ h.1 ++ ascii ": " ++ h.2 ++ crlf }

def statusLine (minor status : Nat) : Bytes :=
  ascii (if minor = 0 then "HTTP/1.0 " else "HTTP/1.1 ") ++ numeral 10 status ++ ascii " " ++
    ascii (statusText status)

def sendStart (unixSecs : Nat) (c : HttpConn) (status : Option UInt16) (headers : List Field)
    (trailers : Bool) : Reply :=
  match status with
  | none => reject c "http.response.start missing 'status'"
  | some status =>
    let status := status.toNat
    if ¬ (100 ≤ status ∧ status ≤ 999) then
      reject c s!"ASGI application sent an invalid response status: {status}"
    else if status < 200 then
      reject c (s!"ASGI application sent informational status {status}; interim " ++
        "responses are not supported on http.response.start")
    else
      match headers.foldlM (startHeader status)
          ⟨statusLine c.activeMinor status ++ crlf, none, false, false⟩ with
      | .error e => ⟨.error e, c, [], []⟩
      | .ok a =>
        if c.resp ≠ .idle then reject c "http.response.start sent twice"
        else
          ⟨.ok (), { c with
              respHead := a.head ++ ascii "server: cadeloop\r\n" ++ buildDateLine unixSecs
              respTrailers := trailers
              respStartedWithLength := a.declaredLength.isSome
              respDeclaredLength := a.declaredLength
              respBodySent := 0
              respBodyless := statusForbidsBody status
              respEmpty := statusRequiresEmptyBody status
              keepAlive := c.keepAlive && !a.sawClose
              respAppConnection := a.sawConnection
              resp := .started
              logStatus := status }, [], []⟩

/-! ## 7. `http.response.body` -/

-- the response to a HEAD, or one whose status has no content: body bytes are suppressed
def HttpConn.headReq (c : HttpConn) : Bool := c.activeHead || c.respBodyless || c.respEmpty

-- a length check that fails leaves the connection as it is by then
def checked (c : HttpConn) (finalMessage : Bool) (next : HttpConn) (out : Bytes) : Reply :=
  match lengthMismatch c finalMessage with
  | some e => ⟨.error e, c, [], []⟩
  | none => enqueue next out

-- promised trailers force a body into chunks
def HttpConn.trailers (c : HttpConn) : Bool :=
  c.respTrailers && !c.headReq && 1 ≤ c.activeMinor && !c.respStartedWithLength

/-- The first body message decides the framing. -/
def sendFirstBody (c : HttpConn) (body : Bytes) (more : Bool) : Reply :=
  let out := c.respHead
  let sawLength := c.respStartedWithLength
  let headReq := c.headReq
  let trailers := c.trailers
  let c := { c with respHead := [] }
  if (!more && !trailers) || c.respEmpty then
    let framed := if c.respEmpty then 0 else body.length
    let out := if !sawLength && !c.respBodyless then
      out ++ ascii "content-length: " ++ numeral 10 framed ++ crlf else out
    let out := announceKeepAlive10 c out ++ crlf
    let out := if headReq then out else out ++ body
    let c := { c with respBodySent := if headReq then 0 else body.length }
    if more then checked c (!more) { c with rawStream := true, resp := .streaming } out
    else checked c (!more) { c with resp := .done } out
  else if !trailers && (sawLength || headReq || c.activeMinor = 0) then
    let c := if c.activeMinor = 0 ∧ sawLength = false ∧ headReq = false then
      { c with keepAlive := false } else c
    let out := announceKeepAlive10 c out ++ crlf
    let out := if headReq then out else out ++ body
    let c := { c with respBodySent := body.length }
    checked c false { c with rawStream := true, resp := .streaming } out
  else
    let out := out ++ ascii "transfer-encoding: chunked\r\n\r\n"
    let out := if body = [] then out else pushChunk out body
    enqueue { c with
      rawStream := false
      respBodySent := body.length
      resp := if more then .streaming else .awaitingTrailers } out

-- `u64::saturating_add`
def saturatingAdd (a b : Nat) : Nat := min (a + b) (2 ^ 64 - 1)

def sendNextBody (c : HttpConn) (body : Bytes) (more : Bool) : Reply :=
  let raw := c.rawStream
  let headReq := c.headReq
  let out :=
    if headReq then [] else if raw then body else if body = [] then [] else pushChunk [] body
  let c := { c with respBodySent := saturatingAdd c.respBodySent body.length }
  if more then checked c (!more) c out
  else if !raw && !headReq && c.respTrailers then
    checked c (!more) { c with resp := .awaitingTrailers } out
  else
    let out := if !raw && !headReq then out ++ ascii "0\r\n\r\n" else out
    checked c (!more) { c with resp := .done } out

def sendBody (c : HttpConn) (body : Bytes) (more : Bool) : Reply :=
  match c.resp with
  | .idle => reject c "http.response.body before http.response.start"
  | .done => reject c "http.response.body after the response completed"
  | .awaitingTrailers =>
    reject c "http.response.body after the body completed; send http.response.trailers"
  | .started => sendFirstBody c body more
  | .streaming => sendNextBody c body more

/-! ## 8. `http.response.trailers` -/

def asciiString (v : Bytes) : String := String.ofList (v.map fun b => Char.ofNat b.toNat)

def trailerField (fields : Bytes) (h : Field) : Except SendErr Bytes :=
  match validateResponseHeader h.1 h.2 with
  | .error why => .error (.proto s!"ASGI application sent an invalid trailer: {why}")
  | .ok () =>
    if isForbiddenTrailer h.1 then
      .error (.proto
        s!"ASGI application sent a trailer that is not allowed in trailers: {asciiString h.1}")
    else .ok (fields ++ h.1 ++ ascii ": " ++ h.2 ++ crlf)

def sendTrailers (c : HttpConn) (headers : List Field) (more : Bool) : Reply :=
  match headers.foldlM trailerField [] with
  | .error e => ⟨.error e, c, [], []⟩
  | .ok fields =>
    if c.resp ≠ .awaitingTrailers then
      reject c "http.response.trailers without a preceding body that promised them"
    else
      let out := if c.trailersStarted then fields else ascii "0\r\n" ++ fields
      let c := { c with trailersStarted := true }
      if more then enqueue c out else enqueue { c with resp := .done } (out ++ crlf)

/-! ## 9. `process_send` -/

def processSend (unixSecs : Nat) (c : HttpConn) : Message → Reply
  | .start status headers trailers => sendStart unixSecs c status headers trailers
  | .body body more => sendBody c body more
  | .trailers headers more => sendTrailers c headers more
  | .other kind => reject c s!"unsupported ASGI message type: {kind}"

/-! ## 10. Error responses -/

/-- `error_response`: the minor version is what the parser saw, and a bogus one answers as 1.1. -/
def errorResponse (status : Nat) (reason : String) (minor : Nat) : Bytes :=
  statusLine minor status ++ crlf ++ ascii "server: cadeloop\r\ncontent-type: text/plain\r\n" ++
    ascii "content-length: " ++ numeral 10 (ascii reason).length ++ crlf ++
    ascii "connection: close\r\n\r\n" ++ ascii reason

end Cadeloop.Pyshim.Http
