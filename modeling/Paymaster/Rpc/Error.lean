import Paymaster.Json.Basic

/-!
# Coded errors

Every refusal that reaches a caller carries a code, a message and data. Protocol errors
have the standard codes; refusals of the service have stable codes of their own, so a
caller can branch on them. A kind fixes the code and the usual message; either may be
replaced for a single error.
-/

namespace Paymaster

inductive RpcError.Kind where
  | parse
  | invalidRequest
  | methodNotFound
  | invalidParams
  | internal
  | insufficientGas
  | accountDisabled
  | frequentRequest
  | accountLookupFailed
  | general
  deriving DecidableEq, Repr

namespace RpcError.Kind

def code : Kind → Int
  | .parse => -32700
  | .invalidRequest => -32600
  | .methodNotFound => -32601
  | .invalidParams => -32602
  | .internal => -32603
  | .insufficientGas => -32001
  | .accountDisabled => -32002
  | .frequentRequest => -32003
  | .accountLookupFailed => -32004
  | .general => -32603

def message : Kind → Text
  | .parse => "Parse error"
  | .invalidRequest => "Invalid Request"
  | .methodNotFound => "Method not found"
  | .invalidParams => "Invalid params"
  | .internal => "Internal error"
  | .insufficientGas => "insufficient gas"
  | .accountDisabled => "account disabled"
  | .frequentRequest => "frequent requests"
  | .accountLookupFailed => "account lookup failed"
  | .general => "Internal error"

end RpcError.Kind

/-- An error as the caller sees it. -/
structure RpcError where
  kind : RpcError.Kind
  code : Int := kind.code
  message : Text := kind.message
  data : Json := .null
  deriving Repr

namespace RpcError

/-- The error of a kind without data. -/
def plain (kind : Kind) : RpcError :=
  { kind }

/-- The error of a kind with a text as its data. -/
def because (kind : Kind) (reason : Text) : RpcError :=
  { kind, data := .text reason }

/-- The members under which an error is sent. -/
def toJson (e : RpcError) : Json :=
  .object [("code", .int e.code), ("message", .text e.message), ("data", e.data)]

end RpcError

end Paymaster
