import ConnectExamples.Connect.Code
import ConnectExamples.Tracing.Traced

/-!
# What the Rust code sees of the `connectrpc` crate

Errors, and the requests that reach an interceptor. Of a request the
interceptor reads the context only, so its body is a type variable, and so is
the response.
-/

namespace ConnectExamples

namespace Rust

/-- `connectrpc::ConnectError`: its code, and everything else it carries. -/
structure ConnectError (P : Type) where
  code : Code
  payload : P
  deriving DecidableEq

/-- `http::HeaderValue`, by what its method `to_str` returns: a text, or nothing where
it fails. -/
structure HeaderValue where
  toStr : Option String

/-- `connectrpc::RequestContext`. A protocol and an address are given by the
text they are printed as. -/
structure RequestContext where
  path : Option String
  protocol : Option String
  peerAddr : Option String
  header : String → Option HeaderValue

structure UnaryRequest (β : Type) where
  ctx : RequestContext
  body : β

end Rust

def Outcome.toRust {α P : Type} : Outcome α P → Except (Rust.ConnectError P) α
  | .ok value => .ok value
  | .error (code, payload) => .error ⟨code, payload⟩

end ConnectExamples
