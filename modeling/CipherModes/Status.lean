/-!
# Outcomes of backend calls

A call that fails reports one of seven statuses, and the error carries the
name of the operation beside it.
-/

set_option autoImplicit false

namespace CipherModes

inductive Status
  | notFound
  /-- A parameter was rejected: a key size, a nonce size, a wrong kind of key. -/
  | invalidParameter
  /-- The handle is unknown, closed or of the wrong kind. -/
  | invalidHandle
  | notSupported
  /-- The output buffer cannot hold the result. -/
  | bufferTooSmall
  /-- The input length does not fit the operation. -/
  | invalidBufferSize
  /-- The tag does not belong to the message. -/
  | authTagMismatch
  deriving DecidableEq, Repr

namespace Status

def code : Status → UInt32
  | notFound => 0xC0000225
  | invalidParameter => 0xC000000D
  | invalidHandle => 0xC0000008
  | notSupported => 0xC00000BB
  | bufferTooSmall => 0xC0000023
  | invalidBufferSize => 0xC0000206
  | authTagMismatch => 0xC000A002

def message : Status → String
  | notFound => "algorithm not found"
  | invalidParameter => "invalid parameter"
  | invalidHandle => "invalid handle"
  | notSupported => "not supported"
  | bufferTooSmall => "buffer too small"
  | invalidBufferSize => "invalid buffer size"
  | authTagMismatch => "authentication tag mismatch"

def name : Status → String
  | notFound => "NotFound"
  | invalidParameter => "InvalidParameter"
  | invalidHandle => "InvalidHandle"
  | notSupported => "NotSupported"
  | bufferTooSmall => "BufferTooSmall"
  | invalidBufferSize => "InvalidBufferSize"
  | authTagMismatch => "AuthTagMismatch"

def all : List Status :=
  [notFound, invalidParameter, invalidHandle, notSupported, bufferTooSmall, invalidBufferSize,
    authTagMismatch]

def ofName? (text : String) : Option Status := all.find? (·.name == text)

theorem mem_all (status : Status) : status ∈ all := by cases status <;> simp [all]

theorem code_injective {left right : Status} (same : left.code = right.code) : left = right := by
  revert same
  cases left <;> cases right <;> decide

end Status

/-- A failed backend call: the operation and the status it reported. -/
structure BackendError where
  operation : String
  status : Status
  deriving DecidableEq, Repr

/-- A number as eight upper-case hexadecimal digits, more if it needs them. -/
def hexCode (value : Nat) : String :=
  let digits := (Nat.toDigits 16 value).map Char.toUpper
  String.ofList (List.replicate (8 - digits.length) '0' ++ digits)

def BackendError.message (error : BackendError) : String :=
  error.operation ++ " failed: " ++ error.status.message ++ " (0x" ++
    hexCode error.status.code.toNat ++ ")"

end CipherModes
