import Muxiva.Lib.Framing
import Muxiva.Lib.Lines
import Muxiva.Lib.Utf8

/-! Studio's HTTP server: `read_request` reads a request in pieces as they come, and
`handle_connection` answers it. What lies behind the routes is a parameter. -/
set_option linter.all false
namespace Muxiva.Studio

def maxHeaderBytes : ℕ := 16 * 1024

/-- `MAX_DOCUMENT_BYTES`. -/
def maxDocumentBytes : ℕ := 1024 * 1024

structure HttpRequest where
  method : Text
  path : Text
  authorization : Option Text
  body : String
  deriving DecidableEq

structure RequestError where
  status : String
  message : String
  deriving DecidableEq

def badRequest (message : String) : RequestError := ⟨"400 Bad Request", message⟩

def headersTooLarge : RequestError :=
  ⟨"431 Request Header Fields Too Large", "request headers exceed 16 KiB"⟩

/-- What follows the pieces: the peer is done, or a read fails. -/
inductive Ending where
  | eof
  | failed
  deriving DecidableEq

def headerMark : List UInt8 := [13, 10, 13, 10]

/-- `parse::<usize>`. -/
def parseUsize (t : Text) : Option ℕ :=
  let digits := match t with
    | '+' :: rest => rest
    | _ => t
  if digits = [] ∨ digits.any (!·.isDigit) then none
  else
    let n := digits.foldl (fun n c => n * 10 + (c.toNat - '0'.toNat)) 0
    if n ≤ 18446744073709551615 then some n else none

/-- The first loop of `read_request`: the bytes so far, the length of the header, the pieces left. -/
def readHeader (ending : Ending) :
    List UInt8 → List (List UInt8) → Except RequestError (List UInt8 × ℕ × List (List UInt8))
  | _, [] =>
    match ending with
    | .eof => .error (badRequest "incomplete request")
    | .failed => .error (badRequest "failed to read request")
  | bytes, piece :: pieces =>
    let bytes := bytes ++ piece
    match Framing.endOf headerMark bytes with
    | some headerEnd =>
      if maxHeaderBytes < headerEnd then .error headersTooLarge else .ok (bytes, headerEnd, pieces)
    | none =>
      if maxHeaderBytes < bytes.length then .error headersTooLarge
      else readHeader ending bytes pieces

/-- One header line, with the content length and the authorization so far. -/
def headerLine (st : ℕ × Option Text) (line : Text) : Except RequestError (ℕ × Option Text) :=
  match splitOnce ':' line with
  | none => .ok st
  | some (name, value) =>
    let name := (trim name).map Char.toLower
    if name = "content-length".toList then
      match parseUsize (trim value) with
      | some contentLength => .ok (contentLength, st.2)
      | none => .error (badRequest "invalid Content-Length")
    else if name = "authorization".toList then .ok (st.1, some (trim value))
    else .ok st

/-- The request without its body, and the length of that. -/
structure Head where
  method : Text
  path : Text
  authorization : Option Text
  contentLength : ℕ

def parseHead (header : List UInt8) : Except RequestError Head :=
  match Utf8.decode header with
  | none => .error (badRequest "request headers must be UTF-8")
  | some headers =>
    let ls := lines headers.toList
    let requestLine := splitWhitespace (ls.headD [])
    let method := requestLine.headD []
    let path := ((requestLine.drop 1).headD []).takeWhile (· ≠ '?')
    if method = [] ∨ path = [] then .error (badRequest "invalid request line")
    else
      match (ls.drop 1).foldlM headerLine (0, none) with
      | .error e => .error e
      | .ok (contentLength, authorization) =>
        if maxDocumentBytes < contentLength then
          .error ⟨"413 Payload Too Large", "graph document exceeds 1 MiB"⟩
        else .ok ⟨method, path, authorization, contentLength⟩

/-- The second loop of `read_request`. -/
def readBody (ending : Ending) (expected : ℕ) :
    List UInt8 → List (List UInt8) → Except RequestError (List UInt8)
  | bytes, [] =>
    if expected ≤ bytes.length then .ok bytes
    else
      match ending with
      | .eof => .error (badRequest "incomplete request body")
      | .failed => .error (badRequest "failed to read request body")
  | bytes, piece :: pieces =>
    if expected ≤ bytes.length then .ok bytes
    else readBody ending expected ((bytes ++ piece).take expected) pieces

def Head.withBody (head : Head) (body : List UInt8) : Except RequestError HttpRequest :=
  match Utf8.decode body with
  | none => .error (badRequest "request body must be UTF-8")
  | some body => .ok ⟨head.method, head.path, head.authorization, body⟩

/-- `read_request`, of what each read returns. -/
def readRequest (ending : Ending) (pieces : List (List UInt8)) : Except RequestError HttpRequest :=
  match readHeader ending [] pieces with
  | .error e => .error e
  | .ok (bytes, headerEnd, pieces) =>
    match parseHead (bytes.take headerEnd) with
    | .error e => .error e
    | .ok head =>
      let expected := headerEnd + head.contentLength
      match readBody ending expected bytes pieces with
      | .error e => .error e
      | .ok bytes => head.withBody ((bytes.take expected).drop headerEnd)

structure Response where
  status : String
  contentType : String
  payload : List UInt8
  deriving DecidableEq

/-- The files compiled in by name, and what answers authorized requests. -/
structure Backend where
  asset : String → List UInt8
  artifact : Text → Text → Response
  api : HttpRequest → Response

/-- The routes that need no token: the path, the content type and the constant. -/
def staticRoutes : List (String × String × String) :=
  let css := "text/css; charset=utf-8"
  [("/", "text/html; charset=utf-8", "INDEX"),
    ("/assets/studio.css", css, "STYLES"),
    ("/assets/brand.css", css, "BRAND_STYLES"),
    ("/assets/runtime.css", css, "RUNTIME_STYLES"),
    ("/assets/observability.css", css, "OBSERVABILITY_STYLES"),
    ("/assets/observability-history.css", css, "OBSERVABILITY_HISTORY_STYLES"),
    ("/assets/media-dump.css", css, "MEDIA_DUMP_STYLES"),
    ("/assets/semantic-trace.css", css, "SEMANTIC_TRACE_STYLES"),
    ("/assets/node-lab.css", css, "NODE_LAB_STYLES"),
    ("/assets/provider-help.css", css, "PROVIDER_HELP_STYLES"),
    ("/assets/studio.js", "text/javascript; charset=utf-8", "SCRIPT")]

def unauthorized : Response :=
  ⟨"401 Unauthorized", "text/plain; charset=utf-8", Utf8.bytes "unauthorized"⟩

def route (b : Backend) (request : HttpRequest) (authorized : Bool) : Response :=
  match staticRoutes.find? fun r => request.method = "GET".toList ∧ request.path = r.1.toList with
  | some (_, contentType, constant) => ⟨"200 OK", contentType, b.asset constant⟩
  | none => if authorized then b.api request else unauthorized

def artifactPrefix : Text := "/api/v1/observability/media-artifacts/".toList

/-- `handle_connection` behind `read_request`. -/
def respond (b : Backend) (token : Text) (request : HttpRequest) : Response :=
  let get := request.method = "GET".toList
  let authorized := request.authorization = some ("Bearer ".toList ++ token)
  if get ∧ request.path = "/assets/muxiva-logo.png".toList then
    ⟨"200 OK", "image/png", b.asset "LOGO"⟩
  else if authorized ∧ get ∧ artifactPrefix.isPrefixOf request.path then
    match (request.path.drop artifactPrefix.length).splitOn '/' with
    | [runId] => b.artifact runId []
    | [runId, artifactId] => b.artifact runId artifactId
    | _ => route b request authorized
  else route b request authorized

def handleConnection (b : Backend) (token : Text) (ending : Ending) (pieces : List (List UInt8)) :
    Response :=
  match readRequest ending pieces with
  | .error e => ⟨e.status, "text/plain", Utf8.bytes e.message⟩
  | .ok request => respond b token request

end Muxiva.Studio
