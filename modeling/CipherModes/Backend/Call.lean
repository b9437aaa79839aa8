import CipherModes.Backend.Handle
import CipherModes.Backend.Property
import CipherModes.Status

/-!
# Calls of a backend

A backend opens providers, imports keys into them and does the cryptography,
one call at a time. A call carries the contents that its output buffers had;
the reply carries what they hold afterwards, also when the call failed. A
backend is any state machine that answers calls and keeps the buffers' lengths.
-/

set_option autoImplicit false

namespace CipherModes

inductive Direction
  | encrypt
  | decrypt
  deriving DecidableEq, Repr

inductive Operation
  | openProvider
  | closeProvider
  | importKey
  | destroyKey
  | getProperty
  | setProperty
  | encrypt
  | decrypt
  | aeadEncrypt
  | aeadDecrypt
  | fipsEnabled
  deriving DecidableEq, Repr

namespace Operation

/-- The name under which a kind of call is reported. -/
def name : Operation → String
  | openProvider => "OpenAlgorithmProvider"
  | closeProvider => "CloseAlgorithmProvider"
  | importKey => "ImportKey"
  | destroyKey => "DestroyKey"
  | getProperty => "GetProperty"
  | setProperty => "SetProperty"
  | encrypt => "Encrypt"
  | decrypt => "Decrypt"
  | aeadEncrypt => "AeadEncrypt"
  | aeadDecrypt => "AeadDecrypt"
  | fipsEnabled => "FipsEnabled"

def all : List Operation :=
  [openProvider, closeProvider, importKey, destroyKey, getProperty, setProperty, encrypt, decrypt,
    aeadEncrypt, aeadDecrypt, fipsEnabled]

def ofName? (text : String) : Option Operation := all.find? (·.name == text)

/-- The call gives a handle back. -/
def isRelease : Operation → Bool
  | closeProvider | destroyKey => true
  | _ => false

end Operation

inductive Call
  | openProvider (algorithm : String) (flags : ProviderFlags)
  | closeProvider (provider : Handle)
  /-- Makes a key of a secret, bound to a provider and its chaining mode. -/
  | importKey (provider : Handle) (secret : Bytes)
  | destroyKey (key : Handle)
  /-- Reads a property into a buffer. -/
  | getProperty (handle : Handle) (name : String) (output : Bytes)
  | setProperty (handle : Handle) (name : String) (value : Bytes)
  /-- Transforms whole blocks one by one into a buffer. -/
  | crypt (direction : Direction) (key : Handle) (input output : Bytes)
  /-- Encrypts a buffer in place and writes its tag. -/
  | aeadEncrypt (key : Handle) (nonce aad buffer tag : Bytes)
  /-- Decrypts a buffer in place if the tag is its tag. -/
  | aeadDecrypt (key : Handle) (nonce aad buffer tag : Bytes)
  | fipsEnabled
  deriving DecidableEq, Repr

namespace Call

def operation : Call → Operation
  | openProvider .. => .openProvider
  | closeProvider .. => .closeProvider
  | importKey .. => .importKey
  | destroyKey .. => .destroyKey
  | getProperty .. => .getProperty
  | setProperty .. => .setProperty
  | crypt .encrypt .. => .encrypt
  | crypt .decrypt .. => .decrypt
  | aeadEncrypt .. => .aeadEncrypt
  | aeadDecrypt .. => .aeadDecrypt
  | fipsEnabled => .fipsEnabled

def handle? : Call → Option Handle
  | openProvider .. | fipsEnabled => none
  | closeProvider handle | importKey handle _ | destroyKey handle | getProperty handle _ _
  | setProperty handle _ _ | crypt _ handle _ _ | aeadEncrypt handle _ _ _ _
  | aeadDecrypt handle _ _ _ _ => some handle

/-- What a successful call returns: a handle, a number of bytes, an answer to a
question, or nothing. -/
abbrev Value : Call → Type
  | openProvider .. | importKey .. => Handle
  | getProperty .. | crypt .. => Nat
  | fipsEnabled => Bool
  | closeProvider .. | destroyKey .. | setProperty .. | aeadEncrypt .. | aeadDecrypt .. => Unit

/-- The contents of the buffer that a call may write, empty if it has none. -/
def output : Call → Bytes
  | getProperty _ _ output | crypt _ _ _ output => output
  | aeadEncrypt _ _ _ buffer _ | aeadDecrypt _ _ _ buffer _ => buffer
  | _ => []

/-- The contents of the buffer for a tag, empty if a call has none. -/
def tagOutput : Call → Bytes
  | aeadEncrypt _ _ _ _ tag => tag
  | _ => []

end Call

/-- The answer to a call: its result and what its buffers hold afterwards. -/
structure Reply (call : Call) where
  result : Except BackendError call.Value
  output : Bytes := call.output
  tagOutput : Bytes := call.tagOutput

namespace Reply

/-- The call succeeded and wrote nothing. -/
def succeed {call : Call} (value : call.Value) : Reply call := { result := .ok value }

/-- The call failed and wrote nothing. -/
def fail {call : Call} (status : Status) : Reply call :=
  { result := .error ⟨call.operation.name, status⟩ }

/-- The buffers have the lengths that they had. -/
def KeepsLengths {call : Call} (reply : Reply call) : Prop :=
  reply.output.length = call.output.length ∧ reply.tagOutput.length = call.tagOutput.length

theorem keepsLengths_succeed {call : Call} (value : call.Value) :
    (succeed value : Reply call).KeepsLengths := ⟨rfl, rfl⟩

theorem keepsLengths_fail {call : Call} (status : Status) :
    (fail status : Reply call).KeepsLengths := ⟨rfl, rfl⟩

end Reply

/-- A state machine that answers calls. -/
structure Backend (σ : Type) where
  answer : (call : Call) → σ → Reply call × σ
  describe : σ → String
  /-- A buffer is never made longer or shorter. -/
  keepsLengths : ∀ call state, (answer call state).1.KeepsLengths

namespace Backend

variable {σ : Type}

def call (backend : Backend σ) (call : Call) : StateM σ (Reply call) := backend.answer call

end Backend

end CipherModes
