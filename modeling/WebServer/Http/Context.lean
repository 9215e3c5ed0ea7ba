import WebServer.Http.Request

/-!
# The incremental parser

Model of `http/http_context.h`. `parseRequest` is a loop without a bound in the source. The rounds here
are bounded by the extent of the buffer and running out of them is undefined, so that where the model
has a value the loop ends.
-/

namespace WebServer.Http

open Net Lib RandomAccess

/-- `HTTPContext::HTTPRequestParseState` -/
inductive HTTPRequestParseState where
  | kExpectRequestLine
  | kExpectHeader
  | kExpectBody
  | kGotAll
deriving DecidableEq, Repr

/-- `class HTTPContext` -/
structure HTTPContext where
  state_ : HTTPRequestParseState
  request_ : HTTPRequest
deriving DecidableEq

namespace HTTPContext

/-- `HTTPContext::HTTPContext` -/
def new : HTTPContext := ⟨.kExpectRequestLine, .new⟩

/-- `HTTPContext::resetState` -/
def resetState (ctx : HTTPContext) : HTTPContext := { ctx with state_ := .kExpectRequestLine }

/-- `HTTPContext::parseFinished` -/
def parseFinished (ctx : HTTPContext) : Bool := ctx.state_ = .kGotAll

variable {B I : Type} [BufferType B I]

/-- `HTTPContext::parseRequestLine` after the method: from `// set URI` on. -/
def parseURI (req : HTTPRequest) (buff : B) (start end_ : I) : Option (Bool × HTTPRequest) := do
  let split ← find buff start end_ (char '?')
  if !same buff split end_ then
    -- request has query
    let (_, req) ← req.setPath buff start split
    let start ← plus buff split 1
    let split ← find buff start end_ (char ' ')
    let (_, req) ← req.setQuery buff start split
    req.setVersion buff (← plus buff split 1) end_
  else
    -- request has no query
    let split ← find buff start end_ (char ' ')
    let (_, req) ← req.setPath buff start split
    req.setVersion buff (← plus buff split 1) end_

/-- `HTTPContext::parseRequestLine`, on the context's request. -/
def parseRequestLine (req : HTTPRequest) (buff : B) (start end_ : I) :
    Option (Bool × HTTPRequest) := do
  let split ← find buff start end_ (char ' ')
  if same buff split end_ then
    some (false, req)
  else
    let (ok, req) ← req.setMethod buff start split
    if !ok then some (false, req) else parseURI req buff (← plus buff split 1) end_

/-- `HTTPContext::parseHeader`, on the context's request. -/
def parseHeader (req : HTTPRequest) (buff : B) (start end_ : I) : Option (Bool × HTTPRequest) := do
  let colon ← find buff start end_ (char ':')
  if same buff colon end_ then
    some (false, req)
  else
    req.setHeader buff start colon end_

/-- `HTTPContext::parseOneLine` -/
def parseOneLine (ctx : HTTPContext) (buff : B) (start end_ : I) : Option (Bool × HTTPContext) :=
  match ctx.state_ with
  | .kExpectRequestLine => do
    let (ok, req) ← parseRequestLine ctx.request_ buff start end_
    if !ok then
      some (false, { ctx with request_ := req })
    else
      some (true, ⟨.kExpectHeader, req⟩)
  | .kExpectHeader =>
    if same buff start end_ then
      -- meet empty line
      some (true, { ctx with
        state_ := if ctx.request_.expectBody then .kExpectBody else .kGotAll })
    else do
      let (ok, req) ← parseHeader ctx.request_ buff start end_
      some (ok, { ctx with request_ := req })
  | .kExpectBody => some (true, { ctx with state_ := .kGotAll })
  | .kGotAll => some (true, ctx)

def parseLoop : Nat → HTTPContext → B → Option (Bool × HTTPContext × B)
  | 0, _, _ => none
  | fuel + 1, ctx, buff => do
    if ctx.state_ ≠ .kGotAll then
      let crlf_iter ← search buff (BufferType.readerIter buff) (BufferType.end_ buff) kCRLF
      if !same buff crlf_iter (BufferType.end_ buff) then
        let (ok, ctx) ← ctx.parseOneLine buff (BufferType.readerIter buff) crlf_iter
        if ok then
          let (_, buff) ← BufferType.readUntil buff (← plus buff crlf_iter 2)
          parseLoop fuel ctx buff
        else
          some (false, ctx, buff)
      else
        -- received data is not enough to parse
        some (true, ctx, buff)
    else
      some (true, ctx, buff)

/-- `HTTPContext::parseRequest` -/
def parseRequest (ctx : HTTPContext) (buff : B) : Option (Bool × HTTPContext × B) :=
  parseLoop (extent buff + 1) ctx buff

end HTTPContext

end WebServer.Http
