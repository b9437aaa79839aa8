import CipherModes.Backend.Query
import CipherModes.KeyPolicy

/-!
# Open providers and imported keys

A provider is held under its handle; a key is held with the provider it was
imported into. Giving a handle back ignores what the backend says about it.
-/

set_option autoImplicit false

namespace CipherModes

variable {σ : Type}

/-- An operation on a backend that may fail. -/
abbrev Action (σ α : Type) := ExceptT CipherError (StateM σ) α

/-- An operation on a backend whose failures are those of its calls. -/
def Action.ofCall {α : Type} (call : ExceptT BackendError (StateM σ) α) : Action σ α :=
  fun state =>
    let (result, state) := call state
    (result.mapError .backend, state)

/-- A result that was known without asking the backend. -/
def Action.ofExcept {α : Type} (result : Except CipherError α) : Action σ α :=
  fun state => (result, state)

structure Provider where
  raw : Handle
  algorithm : String
  deriving DecidableEq, Repr

namespace Provider

def acquire (backend : Backend σ) (algorithm : String) (flags : ProviderFlags) :
    Action σ Provider := fun state =>
  let (reply, state) := backend.answer (.openProvider algorithm flags) state
  match reply.result with
  | .error error => (.error (.backend error), state)
  | .ok raw => (.ok { raw, algorithm }, state)

def release (backend : Backend σ) (provider : Provider) : StateM σ Unit := fun state =>
  ((), (backend.answer (.closeProvider provider.raw) state).2)

def setText (backend : Backend σ) (provider : Provider) (name text : String) : Action σ Unit :=
  .ofCall (backend.setText provider.raw name text)

def getWord (backend : Backend σ) (provider : Provider) (name : String) : Action σ UInt32 :=
  .ofCall (backend.getWord provider.raw name)

def getKeyLengths (backend : Backend σ) (provider : Provider) : Action σ KeyLengths :=
  .ofCall (backend.getKeyLengths provider.raw)

def describe (provider : Provider) : String :=
  "ProviderHandle \x7b algorithm: \"" ++ provider.algorithm ++ "\", raw: " ++
    provider.raw.describe ++ ", .. \x7d"

end Provider

structure ImportedKey where
  provider : Provider
  raw : Handle
  bits : UInt32
  deriving DecidableEq, Repr

namespace ImportedKey

def acquire (backend : Backend σ) (provider : Provider) (secret : Bytes) :
    Action σ ImportedKey := fun state =>
  let (reply, state) := backend.answer (.importKey provider.raw secret) state
  match reply.result with
  | .error error => (.error (.backend error), state)
  | .ok raw => (.ok { provider, raw, bits := keyBits secret.length }, state)

/-- Destroys a key; its provider stays open. -/
def release (backend : Backend σ) (key : ImportedKey) : StateM σ Unit := fun state =>
  ((), (backend.answer (.destroyKey key.raw) state).2)

def describe (key : ImportedKey) : String :=
  "KeyHandle \x7b raw: " ++ key.raw.describe ++ ", bits: " ++ toString key.bits.toNat ++
    ", .. \x7d"

end ImportedKey

end CipherModes
