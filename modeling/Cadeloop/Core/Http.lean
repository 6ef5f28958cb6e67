import Cadeloop.Reasoning.Numerals
import Cadeloop.Core.Ws

/-!
# Request parsing (`crates/core/src/http.rs`)

`Acc` is the request accumulator, one definition for each callback that the vendored parser drives it
by.  A callback returns 0, or -1 to stop the parser.  The parser itself is a parameter: an `Execution`
is what one call of it did, the callbacks it made and how it ended.  Sizes are `usize` on a 64-bit
target and never wrap here, so they are `Nat`.
-/

namespace Cadeloop.Core.Http

open Cadeloop.Reasoning
open Cadeloop.Core.Ws (fromUtf8)

/-! ## 1. Limits, requests, errors -/

structure Limits where
  maxHeaderBytes : Nat := 64 * 1024
  maxHeaders : Nat := 100
  maxUrl : Nat := 8 * 1024
  maxBody : Option Nat := some (16 * 1024 * 1024)

/-- One fully parsed request. -/
structure Request where
  method : String
  httpMinor : UInt8
  keepAlive : Bool
  upgrade : Bool
  url : Bytes
  headers : List (Bytes × Bytes)
  body : Bytes
  deriving DecidableEq

/-- What a header list holds in names and values. -/
def fieldBytes (hs : List (Bytes × Bytes)) : Nat := (hs.map fun h => h.1.length + h.2.length).sum

/-- What a parsed request counts for in the pipeline's budget. -/
def Request.queuedSize (r : Request) : Nat :=
  r.url.length + r.body.length + (r.headers.map fun h => h.1.length + h.2.length + 4).sum

structure ParseError where
  status : Nat
  reason : String
  deriving DecidableEq

def urlTooLong : ParseError := ⟨414, "request target too long"⟩
def headersTooLarge : ParseError := ⟨431, "headers too large"⟩
def tooManyHeaders : ParseError := ⟨431, "too many headers"⟩
def oneHost : ParseError := ⟨400, "HTTP/1.1 requires exactly one Host header"⟩
def bodyTooLarge : ParseError := ⟨413, "body too large"⟩
def malformed : ParseError := ⟨400, "malformed request"⟩

/-! ## 2. What the head is asked -/

/-- `char::is_whitespace`. -/
def isWhitespace (c : Char) : Bool :=
  let n := c.toNat
  (9 ≤ n && n ≤ 13) || n == 0x20 || n == 0x85 || n == 0xA0 || n == 0x1680 ||
    (0x2000 ≤ n && n ≤ 0x200A) || n == 0x2028 || n == 0x2029 || n == 0x202F || n == 0x205F ||
    n == 0x3000

/-- The digits of a number below 2^64. -/
def parseDigits : Nat → List Char → Option Nat
  | acc, [] => some acc
  | acc, c :: cs =>
    if c.isDigit ∧ acc * 10 + (c.toNat - 48) < 2 ^ 64 then
      parseDigits (acc * 10 + (c.toNat - 48)) cs
    else none

/-- `str::parse::<u64>`: one leading `+` is read over. -/
def parseU64 (cs : List Char) : Option Nat :=
  match cs with
  | '+' :: c :: cs => parseDigits 0 (c :: cs)
  | [] => none
  | cs => parseDigits 0 cs

def contentLength : Bytes := ascii "content-length"
def expect : Bytes := ascii "expect"
def host : Bytes := ascii "host"
def hundredContinue : Bytes := ascii "100-continue"

/-- The first `Content-Length` of a head, if it parses. -/
def declaredLength (headers : List (Bytes × Bytes)) : Option Nat :=
  (headers.find? fun h => h.1 == contentLength).bind fun h =>
    (fromUtf8 h.2).bind fun s =>
      parseU64 ((s.toList.dropWhile isWhitespace).rdropWhile isWhitespace)

/-- `u8::is_ascii_whitespace`. -/
def isAsciiWhitespace (b : UInt8) : Bool :=
  b == 0x20 || b == 0x09 || b == 0x0A || b == 0x0C || b == 0x0D

/-- `Expect` is a comma-separated list, its tokens case-insensitive. -/
def expects (headers : List (Bytes × Bytes)) : Bool :=
  (headers.filter fun h => h.1 == expect).any fun h =>
    (h.2.splitOn 0x2C).any fun tok => lower (trim isAsciiWhitespace tok) == hundredContinue

def hosts (headers : List (Bytes × Bytes)) : Nat := (headers.filter fun h => h.1 == host).length

/-! ## 3. The accumulator -/

structure Acc where
  limits : Limits
  url : Bytes := []
  headers : List (Bytes × Bytes) := []
  field : Bytes := []
  value : Bytes := []
  inValue : Bool := false
  headerBytes : Nat := 0
  body : Bytes := []
  completed : List Request := []
  error : Option ParseError := none
  -- a head (request line and headers) is mid-receipt
  inHead : Bool := false
  owesContinue : Bool := false
  -- a request that expects `100 Continue` still waits for its body
  expectingBody : Bool := false

/-- What the callbacks read of the parser that drives them. -/
structure Llhttp where
  method : String
  httpMajor : UInt8
  httpMinor : UInt8
  upgrade : Bool
  shouldKeepAlive : Bool

inductive Callback where
  | messageBegin
  | url (span : Bytes)
  | headerField (span : Bytes)
  | headerValue (span : Bytes)
  | headersComplete (p : Llhttp)
  | body (span : Bytes)
  | messageComplete (p : Llhttp)

namespace Acc

def fail (a : Acc) (e : ParseError) : Acc × Int := ({ a with error := some e }, -1)

def declaredContentLength (a : Acc) : Option Nat := declaredLength a.headers

def expectsContinue (a : Acc) : Bool := expects a.headers

def commitHeader (a : Acc) : Acc :=
  if !a.inValue then a
  else
    let a' := { a with inValue := false, field := [], value := [] }
    -- a trailer is dropped
    if !a.inHead then a'
    else { a' with headers := a.headers ++ [(lower a.field, a.value)] }

def onUrl (a : Acc) (span : Bytes) : Acc × Int :=
  if a.limits.maxUrl < a.url.length + span.length then a.fail urlTooLong
  else ({ a with url := a.url ++ span }, 0)

def onHeaderField (a : Acc) (span : Bytes) : Acc × Int :=
  let a := a.commitHeader
  let a := { a with headerBytes := a.headerBytes + span.length }
  if a.limits.maxHeaderBytes < a.headerBytes then a.fail headersTooLarge
  else if a.limits.maxHeaders ≤ a.headers.length then a.fail tooManyHeaders
  else ({ a with field := a.field ++ span }, 0)

def onHeaderValue (a : Acc) (span : Bytes) : Acc × Int :=
  let a := { a with inValue := true, headerBytes := a.headerBytes + span.length }
  if a.limits.maxHeaderBytes < a.headerBytes then a.fail headersTooLarge
  else ({ a with value := a.value ++ span }, 0)

def onMessageBegin (a : Acc) : Acc × Int := ({ a with inHead := true }, 0)

/-- A declared length is over the cap. -/
def declaredTooLarge (a : Acc) : Bool :=
  match a.limits.maxBody, a.declaredContentLength with
  | some cap, some declared => cap < declared
  | _, _ => false

def onHeadersComplete (a : Acc) (p : Llhttp) : Acc × Int :=
  let a := { a.commitHeader with inHead := false }
  if 1 ≤ p.httpMinor ∧ hosts a.headers ≠ 1 then a.fail oneHost
  else if a.declaredTooLarge then a.fail bodyTooLarge
  else if 1 ≤ p.httpMinor ∧ a.expectsContinue then
    ({ a with owesContinue := true, expectingBody := true }, 0)
  else (a, 0)

def onBody (a : Acc) (span : Bytes) : Acc × Int :=
  match a.limits.maxBody with
  | some cap =>
    if cap < a.body.length + span.length then a.fail bodyTooLarge
    else ({ a with body := a.body ++ span }, 0)
  | none => ({ a with body := a.body ++ span }, 0)

def onMessageComplete (a : Acc) (p : Llhttp) : Acc × Int :=
  ({ a with
      owesContinue := false
      expectingBody := false
      completed := a.completed ++
        [{ method := p.method, httpMinor := p.httpMinor, keepAlive := p.shouldKeepAlive,
           upgrade := p.upgrade, url := a.url, headers := a.headers, body := a.body }]
      url := []
      headers := []
      body := []
      headerBytes := 0
      field := []
      value := []
      inValue := false }, 0)

def callback (a : Acc) : Callback → Acc × Int
  | .messageBegin => a.onMessageBegin
  | .url span => a.onUrl span
  | .headerField span => a.onHeaderField span
  | .headerValue span => a.onHeaderValue span
  | .headersComplete p => a.onHeadersComplete p
  | .body span => a.onBody span
  | .messageComplete p => a.onMessageComplete p

/-- The callbacks in turn, up to the first that does not return 0. -/
def drive (a : Acc) : List Callback → Acc × Int
  | [] => (a, 0)
  | c :: cs => if (a.callback c).2 = 0 then (a.callback c).1.drive cs else a.callback c

end Acc

/-! ## 4. The parser -/

/-- How `llhttp_execute` ended, for want of a callback that stopped it. -/
inductive Rc where
  | ok
  -- the byte its `error_pos` points at
  | pausedUpgrade (errorPos : Nat)
  | error
  deriving DecidableEq

/-- One call of `llhttp_execute`. -/
structure Execution where
  callbacks : List Callback
  -- `http_major` and `http_minor` after it
  version : UInt8 × UInt8
  rc : Rc

structure HttpParser where
  acc : Acc
  version : UInt8 × UInt8 := (0, 0)
  -- the error `llhttp_execute` ended with is kept and returned again
  failed : Bool := false
  upgraded : Bool := false

namespace HttpParser

def new (limits : Limits) : HttpParser := { acc := { limits } }

def reported (p : HttpParser) : ParseError := p.acc.error.getD malformed

/-- `some offset`: the bytes from `offset` on belong to the upgraded protocol. -/
def feed (p : HttpParser) (len : Nat) (run : Execution) :
    HttpParser × Except ParseError (Option Nat) :=
  if p.upgraded then (p, .ok (some 0))
  else if p.failed then (p, .error p.reported)
  else
    let (acc, rc) := p.acc.drive run.callbacks
    let p := { p with acc, version := run.version }
    if rc ≠ 0 then ({ p with failed := true }, .error p.reported)
    else
      match run.rc with
      | .pausedUpgrade errorPos => ({ p with upgraded := true }, .ok (some (min errorPos len)))
      | .error => ({ p with failed := true }, .error p.reported)
      | .ok => (p, .ok none)

def httpVersion (p : HttpParser) : Option (UInt8 × UInt8) :=
  if p.version = (0, 0) then none else some p.version

def nextRequest (p : HttpParser) : Option Request × HttpParser :=
  match p.acc.completed with
  | [] => (none, p)
  | r :: rs => (some r, { p with acc := { p.acc with completed := rs } })

def hasRequest (p : HttpParser) : Bool := !p.acc.completed.isEmpty

def inHead (p : HttpParser) : Bool := p.acc.inHead

/-- True once for each head that carried `Expect: 100-continue`. -/
def takeOwesContinue (p : HttpParser) : Bool × HttpParser :=
  (p.acc.owesContinue, { p with acc := { p.acc with owesContinue := false } })

def expectingBody (p : HttpParser) : Bool := p.acc.expectingBody

end HttpParser

end Cadeloop.Core.Http
