import CipherModes.Aes.Cipher
import CipherModes.Backend.Call
import CipherModes.Gcm.Sealed
import CipherModes.Settings

/-!
# The state of a token

A token is a backend that keeps everything in memory: its providers and keys
in tables indexed by handle, and how many handles it has issued. A key holds
what was made of its secret when it was imported.
-/

set_option autoImplicit false

namespace CipherModes

/-- Values indexed by handle, the latest first. -/
structure HandleTable (α : Type) where
  entries : List (Handle × α)
  deriving Repr

namespace HandleTable

variable {α : Type}

def empty : HandleTable α := ⟨[]⟩

def get? (table : HandleTable α) (handle : Handle) : Option α :=
  (table.entries.find? (·.1 == handle)).map (·.2)

def insert (table : HandleTable α) (handle : Handle) (value : α) : HandleTable α :=
  ⟨(handle, value) :: table.entries.filter (·.1 != handle)⟩

def erase (table : HandleTable α) (handle : Handle) : HandleTable α :=
  ⟨table.entries.filter (·.1 != handle)⟩

/-- Replaces the value of a handle that is there. -/
def replace (table : HandleTable α) (handle : Handle) (value : α) : HandleTable α :=
  ⟨table.entries.map fun entry => if entry.1 == handle then (entry.1, value) else entry⟩

def size (table : HandleTable α) : Nat := table.entries.length

def handles (table : HandleTable α) : List Handle := table.entries.map (·.1)

end HandleTable

/-- What a key can do, by the chaining mode its provider had. -/
inductive KeyMaterial
  /-- Transforms single blocks. -/
  | blocks (schedule : Aes.Schedule)
  /-- Encrypts with authentication. -/
  | sealing (schedule : Aes.Schedule)
  deriving DecidableEq, Repr

/-- The key of a secret in a chaining mode. Keys are not made for chained
blocks, and only secrets of 16, 24 or 32 bytes make keys. -/
def KeyMaterial.ofSecret (mode : ChainingMode) (secret : Bytes) : Except Status KeyMaterial :=
  match mode with
  | .cbc => .error .notSupported
  | .ecb => ((Aes.Schedule.ofSecret? secret).map .blocks).elim (.error .invalidParameter) .ok
  | .gcm => ((Aes.Schedule.ofSecret? secret).map .sealing).elim (.error .invalidParameter) .ok

/-- An imported key: its provider, its length in bits and what it can do. -/
structure KeyObject where
  provider : Handle
  bits : UInt32
  material : KeyMaterial
  deriving DecidableEq, Repr

structure Token where
  settings : Settings
  /-- How many handles have been issued. -/
  issued : UInt64 := 0
  /-- The open providers and their chaining modes. -/
  providers : HandleTable ChainingMode := .empty
  keys : HandleTable KeyObject := .empty
  providersOpened : Nat := 0
  keysImported : Nat := 0
  deriving Repr

namespace Token

/-- A token that nothing has been asked of. -/
def fresh (settings : Settings) : Token := { settings }

def checked (settings : Settings) : Except InvalidSetting Token :=
  match settings.invalid? with
  | some cause => .error cause
  | none => .ok (fresh settings)

/-- Open providers, live keys, providers opened and keys imported. -/
def counters (token : Token) : List Nat :=
  [token.providers.size, token.keys.size, token.providersOpened, token.keysImported]

def describe (token : Token) : String :=
  "SoftBackend \x7b open_providers: " ++ toString token.providers.size ++ ", open_keys: " ++
    toString token.keys.size ++ ", fips_mode: " ++ toString token.settings.fipsMode ++ " \x7d"

end Token

end CipherModes
