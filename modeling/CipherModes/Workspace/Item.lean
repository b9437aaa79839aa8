import CipherModes.Cbc
import CipherModes.Gcm.Ordered
import CipherModes.RotatingCipher
import CipherModes.Script

/-!
# What a workspace holds

The objects that a workspace names, and what each of them keeps alive: an
engine, a key, a provider. A stream keeps nothing alive; it lives on the cipher
that it was made from and goes with it.
-/

set_option autoImplicit false

namespace CipherModes

inductive Item
  | engine (engine : EngineId)
  | cipher (cipher : AesCipher)
  /-- A rotating cipher and the number of calls made on it. -/
  | rotating (cipher : RotatingCipher) (made : Nat)
  /-- A stream over the cipher of a given name. -/
  | stream (source : String) (stream : Cbc)
  | gcm (gcm : Gcm)
  /-- GCM over a cipher of its own. -/
  | blockwise (cipher : AesCipher) (mode : Gcm.Blockwise)
  /-- GCM over a rotating cipher of its own. -/
  | rotatingGcm (cipher : RotatingCipher) (made : Nat) (mode : Gcm.Blockwise)
  | ordered (ordered : Gcm.Ordered)
  | provider (provider : Provider)
  | acquired (value : ScriptedValue)
  | key (key : ImportedKey)
  deriving DecidableEq, Repr

/-- The engine that a GCM keeps alive. -/
def Gcm.engine? : Gcm → Option EngineId
  | native _ => none
  | blockwise cipher _ => some cipher.engine

def Gcm.ownedKey : Gcm → ImportedKey
  | native key => key
  | blockwise cipher _ => cipher.key

namespace Item

def engine? : Item → Option EngineId
  | engine id => some id
  | cipher aes | blockwise aes _ => some aes.engine
  | gcm mode => mode.engine?
  | ordered mode => mode.gcm.engine?
  | rotating .. | stream .. | rotatingGcm .. | provider _ | acquired _ | key _ => none

def key? : Item → Option ImportedKey
  | key imported => some imported
  | cipher aes | blockwise aes _ => some aes.key
  | gcm mode => some mode.ownedKey
  | ordered mode => some mode.gcm.ownedKey
  | engine _ | rotating .. | stream .. | rotatingGcm .. | provider _ | acquired _ => none

/-- The provider that an object holds without a key. -/
def provider? : Item → Option Provider
  | provider opened => some opened
  | acquired value => some value.provider
  | _ => none

def providers (item : Item) : List Provider :=
  item.provider?.toList ++ (item.key?.map (·.provider)).toList

def isStreamOf (source : String) : Item → Bool
  | stream other _ => other == source
  | _ => false

end Item

end CipherModes
