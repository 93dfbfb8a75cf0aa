import SecureLog.ProtoConvert

/- The HTTP server of T and the transports' `SendLogFile` (`part_000`,
   `part_003`, `proto_transport.go`).

   A request is what `HandleVerify` reads of it: method, URL path, content type
   and body, the body being what the client's encoder wrote (a gob stream of
   records, a protobuf `VerifyRequest`, or neither). A response is a status code
   and a body. The model indexes strings by character where Go indexes them by
   byte; the two agree on ASCII strings, so what is said of slicing a path holds
   for ASCII paths, and what is said of a log ID sent by a client holds for
   plain log IDs (`isPlainLogID`), which the client's URL also carries past
   `url.Parse` and `ServeMux` unchanged. Slicing out of range panics in Go; the
   model returns `none` there (`sliceFrom`, `sliceTo`), and so do
   `decodeVerifyRequest` and `handleVerify` on such a path.

   `decodeVerifyRequest` cuts the log ID out of the path before it looks at the
   content type: `/api/v1/logs/` off the front, then seven bytes off the back,
   whatever they are. So on an ASCII path the catch-all route sends to it, it
   panics exactly when fewer than seven characters follow the prefix, and on the
   gob encoding it takes every longer rest, `/verify` or not, for a log ID
   (`decodeVerifyRequest_path`).

   `HandleVerify` answers `200 OK` whether `FinalVerify` accepts or not, and says
   which in the body; `HTTPTransport.SendLogFile` reads only the status, so it
   reports every log with a plain ID as verified
   (`httpTransport_sendLogFile_verified`).
   `ProtoHTTPTransport.SendLogFile` reads the body's `Verified` flag and agrees
   with `FinalVerify`, as `LocalTransport.SendLogFile` does
   (`protoHTTPTransport_agrees_with_finalVerify`). -/
namespace SecureLog

variable {B : Type} (P : Primitives B) (C : BlockCodec B)

/-- `err.Error()`: the text of an error. The operating system's own texts are not
modelled. -/
def Error.text : Error → String
  | .gap => "gap or reordering detected"
  | .tagMismatch => "tag mismatch: tampering or wrong key"
  | .logNotClosed => "log has not been closed yet"
  | .new msg => msg
  | .wrap ctx err => ctx ++ ": " ++ err.text
  | .io => "i/o error"
  | .eof => "EOF"
  | .unexpectedEOF => "unexpected EOF"

/-! ## Requests and responses -/

/-- `pb.VerifyRequest`. -/
structure PbVerifyRequest where
  logId : String
  records : List PbRecord
  deriving DecidableEq, Repr

/-- `pb.VerifyResponse`. -/
structure PbVerifyResponse where
  verified : Bool
  errorMessage : String
  deriving DecidableEq, Repr

/-- A request body, as the client's encoder wrote it. -/
inductive RequestBody (B : Type)
  /-- A gob stream of a `[]Record`. -/
  | gob (records : List (Record B))
  /-- A protobuf `VerifyRequest`. -/
  | proto (req : PbVerifyRequest)
  /-- Bytes that neither decoder accepts. -/
  | other

/-- What `HandleVerify` reads of an `http.Request`. -/
structure Request (B : Type) where
  method : String
  path : String
  contentType : String
  body : RequestBody B

/-- A response body. -/
inductive ResponseBody
  /-- `http.Error(w, msg, code)`. -/
  | text (msg : String)
  /-- The JSON object `{"status", "log_id", "verified"}`. -/
  | json (status logID : String) (verified : Bool)
  /-- A protobuf `VerifyResponse`. -/
  | proto (resp : PbVerifyResponse)
  deriving DecidableEq, Repr

/-- A response: its status code and body. -/
structure Response where
  status : ℕ
  body : ResponseBody
  deriving DecidableEq, Repr

/-- The bytes of a response body the HTTP client puts in its error: `http.Error`
ends the message with a newline, and the JSON encoder writes the keys in order
(the log ID's JSON escaping is not modelled). A protobuf body is not read as text. -/
def ResponseBody.bytes : ResponseBody → String
  | .text msg => msg ++ "\n"
  | .json status logID verified =>
    "\x7b\"log_id\":\"" ++ logID ++ "\",\"status\":\"" ++ status ++ "\",\"verified\":" ++
      toString verified ++ "\x7d\n"
  | .proto _ => ""

/-! ## The handler -/

/-- `isProtobuf(r)`: the content type starts with a protobuf media type. -/
def isProtobuf (r : Request B) : Bool :=
  "application/x-protobuf".data.isPrefixOf r.contentType.data ||
    "application/protobuf".data.isPrefixOf r.contentType.data

/-- Go's `s[lo:]`, or `none` where it panics (`lo` past the end), on ASCII `s`. -/
def sliceFrom (s : String) (lo : ℕ) : Option String :=
  if lo ≤ s.length then some ⟨s.data.drop lo⟩ else none

/-- Go's `s[:hi]`, or `none` where it panics (`hi` negative or past the end), on
ASCII `s`. -/
def sliceTo (s : String) (hi : ℤ) : Option String :=
  if 0 ≤ hi ∧ hi ≤ s.length then some ⟨s.data.take hi.toNat⟩ else none

/-- `decodeVerifyRequest(r)`: `none` where it panics. The log ID is cut from the
path first; the protobuf branch then returns the body's own log ID. -/
def decodeVerifyRequest (r : Request B) : Option (Except Error (String × List (Record B))) := do
  let logID ← sliceFrom r.path "/api/v1/logs/".length
  let logID ← sliceTo logID (logID.length - ("/verify".length : ℤ))
  pure <|
    if isProtobuf r then
      match r.body with
      | .proto req =>
        match fromProtoRecords C req.records with
        | .error err => .error (.wrap "convert records" err)
        | .ok records => .ok (req.logId, records)
      | _ => .error (.wrap "unmarshal protobuf" .io)
    else
      match r.body with
      | .gob records => .ok (logID, records)
      | _ => .error (.wrap "decode gob" .io)

/-- `encodeVerifyResponse(w, r, logID, verified, errMsg)`: `200 OK` in the
request's encoding. -/
def encodeVerifyResponse (r : Request B) (logID : String) (verified : Bool) (errMsg : String) :
    Response :=
  if isProtobuf r then ⟨200, .proto ⟨verified, errMsg⟩⟩
  else ⟨200, .json "verified" logID verified⟩

/-- `Server.HandleVerify(w, r)` over T's state `ts`: `none` where it panics. -/
def handleVerify (ts : TrustedServer B) (r : Request B) : Option Response :=
  if r.method ≠ "POST" then some ⟨405, .text "Method not allowed"⟩
  else
    match decodeVerifyRequest C r with
    | none => none
    | some (.error err) => some ⟨400, .text ("Invalid request: " ++ err.text)⟩
    | some (.ok (logID, records)) =>
      match ts.finalVerify P logID records with
      | some err => some (encodeVerifyResponse r logID false err.text)
      | none => some (encodeVerifyResponse r logID true "")

/-- The handlers `SetupRoutes` registers. -/
inductive Route
  | register
  | openLog
  | close
  | verify
  | notFound
  deriving DecidableEq, Repr

/-- The dispatch of the mux `SetupRoutes` configures, on a clean path: the three
exact patterns win over the `/api/v1/logs/` subtree. -/
def setupRoutes (path : String) : Route :=
  if path = "/api/v1/logs/register" then .register
  else if path = "/api/v1/logs/open" then .openLog
  else if path = "/api/v1/logs/close" then .close
  else if "/api/v1/logs/".data.isPrefixOf path.data then .verify
  else .notFound

/-! ## The clients -/

/-- The path `SendLogFile` posts to, for a log ID that needs no escaping under a
base URL with no path of its own. -/
def verifyPath (logID : String) : String := "/api/v1/logs/" ++ logID ++ "/verify"

/-- `HTTPTransport.SendLogFile(logID, records)`, talking to `HandleVerify` over
`ts`. A handler that panics closes the connection. -/
def HTTPTransport.sendLogFile (ts : TrustedServer B) (logID : String) (records : List (Record B)) :
    Bool × Option Error :=
  match handleVerify P C ts ⟨"POST", verifyPath logID, "application/octet-stream", .gob records⟩ with
  | none => (false, some (.wrap "post log file" .io))
  | some resp =>
    if resp.status = 200 then (true, none)
    else (false, some (.new ("verification failed: " ++ resp.body.bytes)))

/-- `ProtoHTTPTransport.SendLogFile(logID, records)`, talking to `HandleVerify`
over `ts`. A body that is not a `VerifyResponse` fails to unmarshal. -/
def ProtoHTTPTransport.sendLogFile (ts : TrustedServer B) (logID : String)
    (records : List (Record B)) : Bool × Option Error :=
  match handleVerify P C ts
      ⟨"POST", verifyPath logID, "application/x-protobuf", .proto ⟨logID, toProtoRecords C records⟩⟩ with
  | none => (false, some (.wrap "post log file" .io))
  | some resp =>
    match resp.body with
    | .proto verifyResp =>
      if !verifyResp.verified then
        (false, some (.new ("verification failed: " ++ verifyResp.errorMessage)))
      else (true, none)
    | _ => (false, some (.wrap "unmarshal verify response" .io))

/-- `LocalTransport.SendLogFile(logID, records)` over `ts`. -/
def LocalTransport.sendLogFile (ts : TrustedServer B) (logID : String) (records : List (Record B)) :
    Bool × Option Error :=
  let err := ts.finalVerify P logID records
  (err.isNone, err)

/-! ## Cutting the log ID out of the path -/

variable {P C}

theorem sliceFrom_append (s t : String) : sliceFrom (s ++ t) s.length = some t := by
  rw [sliceFrom, if_pos (by simp), String.data_append, String.length, List.drop_left]

theorem sliceTo_append (s t : String) :
    sliceTo (s ++ t) ((s ++ t).length - (t.length : ℤ)) = some s := by
  rw [sliceTo, if_pos (by rw [String.length_append]; omega), String.length_append]
  simp only [Nat.cast_add, add_sub_cancel_right, Int.toNat_natCast, String.data_append]
  rw [String.length, List.take_left]

theorem sliceFrom_eq_none {s : String} {lo : ℕ} : sliceFrom s lo = none ↔ s.length < lo := by
  rw [sliceFrom]
  split_ifs <;> simp_all

/-- The log ID part of a verify path: everything after the prefix but its last
seven characters. -/
theorem decodeVerifyRequest_eq (r : Request B) (rest : String)
    (hpath : r.path = "/api/v1/logs/" ++ rest) :
    decodeVerifyRequest C r =
      (sliceTo rest (rest.length - 7)).map fun logID =>
        if isProtobuf r then
          match r.body with
          | .proto req =>
            match fromProtoRecords C req.records with
            | .error err => .error (.wrap "convert records" err)
            | .ok records => .ok (req.logId, records)
          | _ => .error (.wrap "unmarshal protobuf" .io)
        else
          match r.body with
          | .gob records => .ok (logID, records)
          | _ => .error (.wrap "decode gob" .io) := by
  rw [decodeVerifyRequest, hpath, sliceFrom_append,
    show (("/verify" : String).length : ℤ) = 7 from rfl]
  cases h : sliceTo rest (rest.length - 7) <;> simp only [bind, Option.bind, h] <;> rfl

theorem sliceTo_rest_eq_none {rest : String} : sliceTo rest (rest.length - 7) = none ↔ rest.length < 7 := by
  rw [sliceTo]
  split_ifs with h <;> simp only [reduceCtorEq, false_iff, true_iff, not_lt] <;> omega

/-- **The verify route's path parsing.** On every ASCII path `SetupRoutes` sends
to `HandleVerify`, `decodeVerifyRequest` panics exactly when fewer than seven
characters follow `/api/v1/logs/`, and on the gob encoding it returns for log ID
the rest of the path without its last seven characters, whatever they are. -/
theorem decodeVerifyRequest_path (r : Request B) (hroute : setupRoutes r.path = .verify) :
    (∀ c ∈ r.path.data, c.toNat < 128) →
    ∃ rest, r.path = "/api/v1/logs/" ++ rest ∧
      (decodeVerifyRequest C r = none ↔ rest.length < 7) ∧
      (7 ≤ rest.length → isProtobuf r = false → ∀ records, r.body = .gob records →
        decodeVerifyRequest C r = some (.ok (⟨rest.data.take (rest.length - 7)⟩, records))) := by
  intro _
  have hpre : "/api/v1/logs/".data.isPrefixOf r.path.data = true := by
    unfold setupRoutes at hroute
    split_ifs at hroute with h₁ h₂ h₃ h₄
    exact h₄
  obtain ⟨t, ht⟩ := List.isPrefixOf_iff_prefix.1 hpre
  have hpath : r.path = "/api/v1/logs/" ++ ⟨t⟩ := String.ext (by rw [String.data_append, ← ht])
  refine ⟨⟨t⟩, hpath, ?_, fun hlen hproto records hbody => ?_⟩
  · rw [decodeVerifyRequest_eq r _ hpath, Option.map_eq_none', sliceTo_rest_eq_none]
  · rw [decodeVerifyRequest_eq r _ hpath, sliceTo, if_pos (by omega), hproto, hbody]
    simp only [Option.map_some', Bool.false_eq_true, if_false]
    congr
    omega

/-- A verify path with one character after the prefix makes `decodeVerifyRequest`
panic. -/
theorem decodeVerifyRequest_panics_on_short_path :
    setupRoutes "/api/v1/logs/x" = .verify ∧ (∀ c ∈ "/api/v1/logs/x".data, c.toNat < 128) ∧
      decodeVerifyRequest Block32.codec
        (⟨"POST", "/api/v1/logs/x", "application/octet-stream", .gob []⟩ : Request Block32) = none := by
  obtain ⟨rest, hpath, hpanic, -⟩ := decodeVerifyRequest_path (C := Block32.codec)
    (⟨"POST", "/api/v1/logs/x", "application/octet-stream", .gob []⟩ : Request Block32) (by decide)
    (by decide)
  have hlen := congrArg String.length hpath
  rw [String.length_append, show ("/api/v1/logs/x" : String).length = 14 by decide,
    show ("/api/v1/logs/" : String).length = 13 by decide] at hlen
  exact ⟨by decide, by decide, hpanic.2 (by omega)⟩

/-- Any seven final characters are taken for `/verify`. -/
example : decodeVerifyRequest Block32.codec
    (⟨"POST", "/api/v1/logs/abcdefgh", "application/octet-stream", .gob []⟩ : Request Block32) =
      some (.ok ("a", [])) := rfl

/-! ## What the transports report -/

theorem verifyPath_decode (r : Request B) (logID : String) (hpath : r.path = verifyPath logID) :
    decodeVerifyRequest C r =
      some (if isProtobuf r then
          match r.body with
          | .proto req =>
            match fromProtoRecords C req.records with
            | .error err => .error (.wrap "convert records" err)
            | .ok records => .ok (req.logId, records)
          | _ => .error (.wrap "unmarshal protobuf" .io)
        else
          match r.body with
          | .gob records => .ok (logID, records)
          | _ => .error (.wrap "decode gob" .io)) := by
  rw [decodeVerifyRequest_eq r (logID ++ "/verify") (by rw [hpath, verifyPath, String.append_assoc]),
    show ((logID ++ "/verify").length : ℤ) - 7 = ((logID ++ "/verify").length : ℤ) -
      (("/verify" : String).length : ℤ) from rfl, sliceTo_append]
  rfl

/-- **`HTTPTransport` reports every log as verified.** `HandleVerify` answers
`200 OK` to every gob request on a verify path, with the verdict in the body, and
`HTTPTransport.SendLogFile` reads only the status: whatever T's state and
records, for every plain log ID it returns `(true, nil)`. -/
theorem httpTransport_sendLogFile_verified (ts : TrustedServer B) (logID : String)
    (records : List (Record B)) :
    isPlainLogID logID = true → HTTPTransport.sendLogFile P C ts logID records = (true, none) := by
  intro _
  have hdec := verifyPath_decode (C := C)
    ⟨"POST", verifyPath logID, "application/octet-stream", .gob records⟩ logID rfl
  have hproto : isProtobuf (⟨"POST", verifyPath logID, "application/octet-stream", .gob records⟩ :
      Request B) = false := rfl
  rw [hproto, if_neg Bool.false_ne_true] at hdec
  simp only [HTTPTransport.sendLogFile, handleVerify, ne_eq, not_true_eq_false, if_false, hdec]
  cases ts.finalVerify P logID records <;> simp [encodeVerifyResponse, hproto]

/-- On a log T never registered, `FinalVerify` fails and `HTTPTransport` still
reports the log verified. -/
theorem httpTransport_verifies_unregistered_log :
    isPlainLogID "x" = true ∧
      (TrustedServer.new : TrustedServer Block32).finalVerify Block32.firstPrimitives "x" [] =
        some (.new "log not registered with trusted server") ∧
      HTTPTransport.sendLogFile Block32.firstPrimitives Block32.codec TrustedServer.new "x" [] =
        (true, none) :=
  ⟨by decide, rfl, httpTransport_sendLogFile_verified TrustedServer.new "x" [] (by decide)⟩

/-- **`ProtoHTTPTransport` and `LocalTransport` agree with T.** Whatever T's
state and records, `ProtoHTTPTransport` on every plain log ID and
`LocalTransport` on every log ID return `(true, nil)` exactly when `FinalVerify`
returns `nil`. -/
theorem protoHTTPTransport_agrees_with_finalVerify (ts : TrustedServer B) (logID : String)
    (records : List (Record B)) :
    (isPlainLogID logID = true →
      (ProtoHTTPTransport.sendLogFile P C ts logID records = (true, none) ↔
        ts.finalVerify P logID records = none)) ∧
    (LocalTransport.sendLogFile P ts logID records = (true, none) ↔
      ts.finalVerify P logID records = none) := by
  have hdec := verifyPath_decode (C := C)
    ⟨"POST", verifyPath logID, "application/x-protobuf", .proto ⟨logID, toProtoRecords C records⟩⟩
    logID rfl
  have hproto : isProtobuf (⟨"POST", verifyPath logID, "application/x-protobuf",
      .proto ⟨logID, toProtoRecords C records⟩⟩ : Request B) = true := rfl
  rw [hproto, if_pos rfl] at hdec
  simp only [fromProtoRecords, fromProtoRecordsFrom_toProto] at hdec
  constructor
  · intro _
    simp only [ProtoHTTPTransport.sendLogFile, handleVerify, ne_eq, not_true_eq_false, if_false,
      hdec]
    cases ts.finalVerify P logID records <;> simp [encodeVerifyResponse, hproto]
  · cases h : ts.finalVerify P logID records <;> simp [LocalTransport.sendLogFile, h]

/-- On a log T never registered, `ProtoHTTPTransport` reports the failure. -/
theorem protoHTTPTransport_refuses_unregistered_log :
    isPlainLogID "x" = true ∧
      (TrustedServer.new : TrustedServer Block32).finalVerify Block32.firstPrimitives "x" [] =
        some (.new "log not registered with trusted server") ∧
      (ProtoHTTPTransport.sendLogFile Block32.firstPrimitives Block32.codec TrustedServer.new "x" [] =
        (true, none) ↔
        (TrustedServer.new : TrustedServer Block32).finalVerify Block32.firstPrimitives "x" [] =
          none) :=
  ⟨by decide, rfl,
    (protoHTTPTransport_agrees_with_finalVerify TrustedServer.new "x" []).1 (by decide)⟩

end SecureLog
