import ConnectExamples.Rust.Views
import ConnectExamples.Server.Agreement

/-!
# The generated dispatcher of the Rust crate

`EchoServiceServer` finds the method in the path, reads a request from its bytes, calls
the service and writes the reply. Helpers of the crate `connectrpc` turn its parts into
one another: a `Codegen`, which the dispatcher relies on in the binary format. A caller
that writes a request and reads the reply sees the service (`callUnary_echo`), and no
other path reaches it (`only_echo`).
-/

namespace ConnectExamples

namespace Rust

open Tracing Wire Buffa

inductive CodecFormat where
  | proto
  | json
  deriving DecidableEq

variable {U V E σ P : Type}

/-- What the dispatcher uses besides the runtime of the messages. -/
structure Codegen (U V E P : Type) extends ViewRuntime U V E where
  unimplementedUnary : String → ConnectError P
  unimplementedStreaming : String → ConnectError P
  requestProtoBytes : Bytes → CodecFormat → Except (ConnectError P) Bytes
  decodeError : E → ConnectError P
  encode : Buffa.EchoResponse U → CodecFormat → Except (ConnectError P) Bytes

/-- What the dispatcher relies on. -/
structure Codegen.Lawful (C : Codegen U V E P) : Prop extends
    toViews : C.toViewRuntime.Lawful where
  unimplementedUnary_code : ∀ path, (C.unimplementedUnary path).code = .unimplemented
  unimplementedStreaming_code : ∀ path, (C.unimplementedStreaming path).code = .unimplemented
  requestProtoBytes_proto : ∀ b, C.requestProtoBytes b .proto = .ok b
  encode_proto : ∀ m, C.encode m .proto = .ok (m.writeTo C.toRuntime)

section WireCodegen

/-- Helpers that know the binary format. -/
def wireCodegen : Codegen Field (List Bytes) Fault Unit where
  toViewRuntime := wireViewRuntime
  unimplementedUnary _ := ⟨.unimplemented, ()⟩
  unimplementedStreaming _ := ⟨.unimplemented, ()⟩
  requestProtoBytes b
    | .proto => .ok b
    | .json => .error ⟨.unimplemented, ()⟩
  decodeError _ := ⟨.invalidArgument, ()⟩
  encode m
    | .proto => .ok (m.writeTo wireRuntime)
    | .json => .error ⟨.unimplemented, ()⟩

theorem lawful_wireCodegen : wireCodegen.Lawful where
  toViews := lawful_wireViewRuntime
  unimplementedUnary_code _ := rfl
  unimplementedStreaming_code _ := rfl
  requestProtoBytes_proto _ := rfl
  encode_proto _ := rfl

end WireCodegen

/-- `str::strip_prefix`. -/
def stripPrefix (path pre : String) : Option String :=
  (pre.toList.isPrefixOf? path.toList).map String.ofList

inductive StreamType where
  | unary
  | clientStream
  | serverStream
  | bidiStream
  deriving DecidableEq

structure MethodDescriptor where
  kind : StreamType
  idempotent : Bool
  procedure : String
  deriving DecidableEq

namespace EchoServiceServer

variable (C : Codegen U V E P) (connectImpl : ConnectImpl σ P) (m : Machine σ)

def lookup (path : String) : Option MethodDescriptor := do
  let method ← stripPrefix path "api.v1.EchoService/"
  match method with
  | "Echo" => some ⟨.unary, false, "/api.v1.EchoService/Echo"⟩
  | _ => none

/-- `call_unary`; the payload of the request may fail to give its bytes. -/
def callUnary (path : String) (ctx : RequestContext) (request : Except (ConnectError P) Bytes)
    (format : CodecFormat) : Traced (LogEvent P) σ (UnaryResult Bytes P) :=
  match stripPrefix path "api.v1.EchoService/" with
  | none => pure (.error (C.unimplementedUnary path))
  | some method =>
      match method with
      | "Echo" =>
          match request.bind fun b => C.requestProtoBytes b format with
          | .error e => pure (.error e)
          | .ok body =>
              match EchoView.decodeView C.toViewRuntime body with
              | .error e => pure (.error (C.decodeError e))
              | .ok req => do
                  let result ← echo connectImpl m ctx ⟨req.message⟩
                  return result.bind fun res => C.encode ⟨res.message, []⟩ format
      | _ => pure (.error (C.unimplementedUnary path))

/-- The calls of the other kinds, none of which the service has. -/
def callStreaming (unimplemented : String → ConnectError P) (path : String) :
    UnaryResult Bytes P :=
  match stripPrefix path "api.v1.EchoService/" with
  | none => .error (unimplemented path)
  | some method =>
      match method with
      | _ => .error (unimplemented path)

def callServerStreaming : String → UnaryResult Bytes P :=
  callStreaming C.unimplementedStreaming

def callClientStreaming : String → UnaryResult Bytes P := callStreaming C.unimplementedUnary

def callBidiStreaming : String → UnaryResult Bytes P := callStreaming C.unimplementedStreaming

end EchoServiceServer

section Path

theorem stripPrefix_eq_some_iff {path pre method : String} :
    stripPrefix path pre = some method ↔ path = pre ++ method := by
  unfold stripPrefix
  rw [Option.map_eq_some_iff]
  constructor
  · rintro ⟨l, hl, rfl⟩
    rw [List.isPrefixOf?_eq_some_iff_append_eq] at hl
    apply String.toList_injective
    rw [String.toList_append, String.toList_ofList]
    exact hl.symm
  · rintro rfl
    refine ⟨method.toList, ?_, String.ofList_toList⟩
    rw [List.isPrefixOf?_eq_some_iff_append_eq, String.toList_append]

end Path

namespace EchoServiceServer

section Lookup

theorem append_Echo : "api.v1.EchoService/" ++ "Echo" = "api.v1.EchoService/Echo" := by decide

/-- The path of the only method. -/
theorem lookup_isSome_iff (path : String) :
    (lookup path).isSome = true ↔ path = "api.v1.EchoService/Echo" := by
  unfold lookup
  cases h : stripPrefix path "api.v1.EchoService/" with
  | none =>
      refine iff_of_false (by simp) fun hpath => ?_
      rw [hpath, ← append_Echo, stripPrefix_eq_some_iff.mpr rfl] at h
      cases h
  | some method =>
      obtain rfl := stripPrefix_eq_some_iff.mp h
      by_cases hmethod : method = "Echo"
      · subst hmethod
        exact iff_of_true rfl append_Echo
      · refine iff_of_false ?_ fun hpath => hmethod ?_
        · simp
        · rw [← append_Echo] at hpath
          have hlist := congrArg String.toList hpath
          rw [String.toList_append, String.toList_append] at hlist
          exact String.toList_injective (List.append_cancel_left hlist)

variable (C : Codegen U V E P) (connectImpl : ConnectImpl σ P) (m : Machine σ)

/-- Another path is not implemented, whatever is sent to it. -/
theorem callUnary_of_lookup_eq_none {path : String} (h : lookup path = none)
    (ctx : RequestContext) (request : Except (ConnectError P) Bytes) (format : CodecFormat) :
    callUnary C connectImpl m path ctx request format =
      pure (.error (C.unimplementedUnary path)) := by
  unfold callUnary
  cases hstrip : stripPrefix path "api.v1.EchoService/" with
  | none => rfl
  | some method =>
      have hmethod : method ≠ "Echo" := by
        rintro rfl
        simp [lookup, hstrip] at h
      simp only

end Lookup

section Call

variable {C : Codegen U V E P} (hC : C.Lawful)

include hC

/-- A call of `Echo` in the binary format. -/
theorem callUnary_proto (connectImpl : ConnectImpl σ P) (m : Machine σ) (ctx : RequestContext)
    (body : Bytes) :
    callUnary C connectImpl m "api.v1.EchoService/Echo" ctx (.ok body) .proto =
      match EchoView.decodeView C.toViewRuntime body with
      | .error e => pure (.error (C.decodeError e))
      | .ok req => do
          let result ← echo connectImpl m ctx ⟨req.message⟩
          return result.map fun res => EchoMessage.writeTo C.toRuntime ⟨res.message, []⟩ := by
  have hstrip : stripPrefix "api.v1.EchoService/Echo" "api.v1.EchoService/" = some "Echo" :=
    stripPrefix_eq_some_iff.mpr append_Echo.symm
  have hencode (res : EchoResponse) : C.encode ⟨res.message, []⟩ .proto =
      .ok (EchoMessage.writeTo C.toRuntime ⟨res.message, []⟩) := hC.encode_proto _
  have hbody : (Except.ok body : Except (ConnectError P) Bytes).bind
      (fun b => C.requestProtoBytes b .proto) = .ok body := hC.requestProtoBytes_proto body
  simp only [callUnary, hstrip, hbody, hencode]
  rfl

/-- The service has no streaming method: every call of another kind is answered with
`Unimplemented`. -/
theorem callStreaming_unimplemented (path : String) :
    ∃ e₁ e₂ e₃, callServerStreaming C path = .error e₁ ∧
      callClientStreaming C path = .error e₂ ∧ callBidiStreaming C path = .error e₃ ∧
      e₁.code = .unimplemented ∧ e₂.code = .unimplemented ∧ e₃.code = .unimplemented := by
  have hstreaming (unimplemented : String → ConnectError P) :
      callStreaming unimplemented path = .error (unimplemented path) := by
    unfold callStreaming
    cases stripPrefix path "api.v1.EchoService/" <;> rfl
  exact ⟨_, _, _, hstreaming _, hstreaming _, hstreaming _, hC.unimplementedStreaming_code path,
    hC.unimplementedUnary_code path, hC.unimplementedStreaming_code path⟩

/-- The service, seen through the binary format: the bytes are read, as a view, to be a
request. -/
theorem exec_callUnary_echo {connectImpl : ConnectImpl σ P}
    (hvalidate : ValidatesFirst connectImpl) (m : Machine σ) (ctx : RequestContext)
    {body : Bytes} {v : EchoView V} (hv : EchoView.decodeView C.toViewRuntime body = .ok v)
    (s : σ) :
    let r := (callUnary C connectImpl m "api.v1.EchoService/Echo" ctx (.ok body) .proto).exec s
    (v.message = none ∨ v.message = some "" →
        ∃ err, err.code = .invalidArgument ∧ r = ⟨.error err, [], s⟩) ∧
      ∀ text, v.message = some text → text ≠ "" → text.utf8ByteSize + 8 < 2 ^ 31 →
        ∃ bytes reply, r = ⟨.ok bytes, [], m.work s⟩ ∧
          EchoView.decodeView C.toViewRuntime bytes = .ok reply ∧
          reply.message = some ("Hello, " ++ text ++ "!") := by
  intro r
  have hcall : callUnary C connectImpl m "api.v1.EchoService/Echo" ctx (.ok body) .proto = (do
      let result ← echo connectImpl m ctx ⟨v.message⟩
      return result.map fun res => EchoMessage.writeTo C.toRuntime ⟨res.message, []⟩) := by
    rw [callUnary_proto hC, hv]
  refine ⟨fun habsent => ?_, fun text htext hne hsize => ?_⟩
  · obtain ⟨err, hcode, hecho⟩ := echo_of_absent_or_empty hvalidate m ctx habsent
    refine ⟨err, hcode, ?_⟩
    simp only [r, hcall, hecho]
    rfl
  · have hgreeting : ∀ t, some ("Hello, " ++ text ++ "!") = some t → t.utf8ByteSize < 2 ^ 31 := by
      rintro t ⟨⟩
      have hhello : "Hello, ".utf8ByteSize = 7 := by decide
      have hmark : "!".utf8ByteSize = 1 := by decide
      rw [String.utf8ByteSize_append, String.utf8ByteSize_append]
      omega
    obtain ⟨reply, hreply, hmessage, -⟩ := EchoView.decodeView_writeTo hC.toViews hgreeting
    refine ⟨_, reply, ?_, hreply, hmessage⟩
    simp only [r, hcall, htext, echo_of_ne hvalidate m ctx hne]
    rfl

/-- The dispatcher is the service at one path. Its table has the method on the path of
`Echo` alone. On every other path it answers `Unimplemented`, for any payload in any
format, and leaves the state of the service alone. On this path it does for all bytes
that are read as a request, with any unknown fields, what the service does with the
text: one that is absent or empty is answered with `InvalidArgument`, and for every
other one the reply is read, as a view, to be its greeting. -/
theorem only_echo (connectImpl : ConnectImpl σ P) (m : Machine σ) :
    (∀ path, (lookup path).isSome = true ↔ path = "api.v1.EchoService/Echo") ∧
      (∀ path ctx request format, path ≠ "api.v1.EchoService/Echo" →
        ∃ err, err.code = .unimplemented ∧
          callUnary C connectImpl m path ctx request format = pure (.error err)) ∧
      (ValidatesFirst connectImpl → ∀ ctx body v s,
        EchoView.decodeView C.toViewRuntime body = .ok v →
          let r := (callUnary C connectImpl m "api.v1.EchoService/Echo" ctx
            (.ok body) .proto).exec s
          (v.message = none ∨ v.message = some "" →
              ∃ err, err.code = .invalidArgument ∧ r = ⟨.error err, [], s⟩) ∧
            ∀ text, v.message = some text → text ≠ "" → text.utf8ByteSize + 8 < 2 ^ 31 →
              ∃ bytes reply, r = ⟨.ok bytes, [], m.work s⟩ ∧
                EchoView.decodeView C.toViewRuntime bytes = .ok reply ∧
                reply.message = some ("Hello, " ++ text ++ "!")) := by
  refine ⟨lookup_isSome_iff, fun path ctx request format hpath => ?_,
    fun hvalidate ctx body v s hv => exec_callUnary_echo hC hvalidate m ctx hv s⟩
  have hlookup : lookup path = none := by
    rw [← Option.not_isSome_iff_eq_none, lookup_isSome_iff]
    exact hpath
  exact ⟨_, hC.unimplementedUnary_code path,
    callUnary_of_lookup_eq_none C connectImpl m hlookup ctx request format⟩

omit hC in
/-- The bytes of a request are answered on the path of `Echo`, and with a slash before
it this is another path. -/
theorem only_echo_slash :
    (∃ bytes reply,
      ((callUnary wireCodegen Server.validateFirst ⟨fun _ => 0, id⟩ "api.v1.EchoService/Echo"
        ⟨none, none, none, fun _ => none⟩
        (.ok (EchoMessage.jane.writeTo wireRuntime)) .proto).exec ()).result = .ok bytes ∧
        EchoView.decodeView wireViewRuntime bytes = .ok reply ∧
        reply.message = some "Hello, Jane!") ∧
      ∃ err, err.code = .unimplemented ∧
        callUnary wireCodegen Server.validateFirst ⟨fun _ => 0, id⟩ "/api.v1.EchoService/Echo"
          ⟨none, none, none, fun _ => none⟩ (.ok (EchoMessage.jane.writeTo wireRuntime)) .proto =
            pure (.error err) := by
  obtain ⟨-, hother, hecho⟩ :=
    only_echo lawful_wireCodegen Server.validateFirst (⟨fun _ => 0, id⟩ : Machine Unit)
  obtain ⟨bytes, reply, hr, hreply, hmessage⟩ :=
    (hecho Server.validatesFirst_validateFirst ⟨none, none, none, fun _ => none⟩ _ _ ()
      EchoView.decodeView_jane).2 "Jane" rfl (by decide) (by decide)
  exact ⟨⟨bytes, reply, congrArg Run.result hr, hreply, hmessage⟩,
    hother _ _ _ _ (by decide)⟩

/-- A caller that writes a request and reads the reply sees the service. On the bytes of
a request the dispatcher runs the handler on its message; a message that is absent or
empty is answered with `InvalidArgument`, and for every other one the reply is read, as
a view, to be its greeting. -/
theorem callUnary_echo {connectImpl : ConnectImpl σ P} (hvalidate : ValidatesFirst connectImpl)
    (m : Machine σ) (ctx : RequestContext) (message : Option String)
    (hsize : ∀ text, message = some text → text.utf8ByteSize + 8 < 2 ^ 31) (s : σ) :
    let r := (callUnary C connectImpl m "api.v1.EchoService/Echo" ctx
      (.ok (EchoMessage.writeTo C.toRuntime ⟨message, []⟩)) .proto).exec s
    (message = none ∨ message = some "" →
        ∃ err, err.code = .invalidArgument ∧ r = ⟨.error err, [], s⟩) ∧
      ∀ text, message = some text → text ≠ "" →
        ∃ bytes v, r = ⟨.ok bytes, [], m.work s⟩ ∧
          EchoView.decodeView C.toViewRuntime bytes = .ok v ∧
          v.message = some ("Hello, " ++ text ++ "!") := by
  have hshort : ∀ text, message = some text → text.utf8ByteSize < 2 ^ 31 := fun text htext => by
    have hlt := hsize text htext
    omega
  obtain ⟨req, hreq, hmessage, -⟩ := EchoView.decodeView_writeTo hC.toViews hshort
  obtain ⟨habsent, hpresent⟩ := exec_callUnary_echo hC hvalidate m ctx hreq s
  rw [hmessage] at habsent hpresent
  exact ⟨habsent, fun text htext hne => hpresent text htext hne (hsize text htext)⟩

omit hC in
theorem callUnary_echo_jane : ∃ bytes v,
    ((callUnary wireCodegen Server.validateFirst ⟨fun _ => 0, id⟩ "api.v1.EchoService/Echo"
      ⟨none, none, none, fun _ => none⟩
      (.ok (EchoMessage.writeTo wireRuntime ⟨some "Jane", []⟩)) .proto).exec ()).result =
        .ok bytes ∧
      EchoView.decodeView wireViewRuntime bytes = .ok v ∧ v.message = some "Hello, Jane!" := by
  have hsize : ∀ text, some "Jane" = some text → text.utf8ByteSize + 8 < 2 ^ 31 := by
    rintro text ⟨⟩
    decide
  obtain ⟨bytes, v, hr, hv, hmessage⟩ :=
    (callUnary_echo lawful_wireCodegen Server.validatesFirst_validateFirst ⟨fun _ => 0, id⟩
      ⟨none, none, none, fun _ => none⟩ (some "Jane") hsize ()).2 "Jane" rfl (by decide)
  exact ⟨bytes, v, congrArg Run.result hr, hv, hmessage⟩

end Call

end EchoServiceServer

end Rust

end ConnectExamples
