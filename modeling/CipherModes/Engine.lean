import CipherModes.BlockCipher
import CipherModes.ProviderCache

/-!
# Engines and AES ciphers

An engine is a cache of AES providers, one for each chaining mode it needs. A
cipher is a key for single blocks imported through an engine; it keeps its
secret, from which further keys and ciphers can be made through the same engine.
-/

set_option autoImplicit false

namespace CipherModes

variable {σ : Type}

/-- A provider of AES in some mode, and what it allows. -/
structure AesAlgorithm where
  provider : Provider
  allowed : AllowedKeyLengths
  /-- The block length that the provider reports, never zero. -/
  blockSize : Nat
  deriving DecidableEq, Repr

namespace AesAlgorithm

/-- Puts a new provider into a mode and reads its limits. -/
def initialise (backend : Backend σ) (mode : ChainingMode) (provider : Provider) :
    Action σ AesAlgorithm := do
  provider.setText backend PropertyName.chainingMode mode.text
  let lengths ← provider.getKeyLengths backend
  let allowed ← Action.ofExcept (AllowedKeyLengths.check lengths)
  let blockSize ← provider.getWord backend PropertyName.blockLength
  if blockSize = 0 then throw (.invalidBlockSize 0)
  else return { provider, allowed, blockSize := blockSize.toNat }

def importKey (backend : Backend σ) (algorithm : AesAlgorithm) (secret : Bytes) :
    Action σ ImportedKey :=
  let bits := keyBits secret.length
  if algorithm.allowed.allows bits then ImportedKey.acquire backend algorithm.provider secret
  else throw (.invalidKeySize bits)

end AesAlgorithm

/-- The cache of an engine with the backend it drives. -/
abbrev Driven (σ : Type) := Caching AesAlgorithm σ

namespace Driven

def fresh (backend : σ) : Driven σ := { cache := .empty, backend }

def algorithm (backend : Backend σ) (mode : ChainingMode) : Action (Driven σ) AesAlgorithm :=
  ProviderCache.acquire backend AesAlgorithm.provider ⟨aesAlgorithm, .none, mode.text⟩
    fun _ provider => Caching.tryBackend (AesAlgorithm.initialise backend mode provider)

def fips (backend : Backend σ) : Action σ Bool := fun state =>
  let (reply, state) := backend.answer .fipsEnabled state
  (reply.result.mapError .backend, state)

/-- Imports a secret through the provider of a mode: the key and the block
length. -/
def importKey (backend : Backend σ) (mode : ChainingMode) (secret : Bytes) :
    Action (Driven σ) (ImportedKey × Nat) := do
  let algorithm ← algorithm backend mode
  let key ← Caching.tryBackend (algorithm.importKey backend secret)
  return (key, algorithm.blockSize)

end Driven

abbrev EngineId := Nat

/-- A key for single blocks, made through an engine. -/
structure AesCipher where
  engine : EngineId
  key : ImportedKey
  secret : Bytes
  blockSize : Nat
  deriving DecidableEq, Repr

namespace AesCipher

def create (backend : Backend σ) (engine : EngineId) (secret : Bytes) :
    Action (Driven σ) AesCipher := do
  let (key, blockSize) ← Driven.importKey backend .ecb secret
  return { engine, key, secret, blockSize }

/-- The cipher as a block cipher over the state of its backend: each block is
one call, which sees exactly one block of either buffer. -/
def blockCipher (backend : Backend σ) (cipher : AesCipher) : BlockCipher σ where
  blockSize := cipher.blockSize
  transform direction source destination state :=
    let (reply, state) :=
      backend.answer
        (.crypt direction cipher.key.raw (source.take cipher.blockSize)
          (destination.take cipher.blockSize))
        state
    ((reply.result.mapError .backend |>.map fun _ => (),
      reply.output ++ destination.drop cipher.blockSize), state)
  keepsLength direction source destination state := by
    have same := (backend.keepsLengths
      (.crypt direction cipher.key.raw (source.take cipher.blockSize)
        (destination.take cipher.blockSize)) state).1
    have front : (destination.take cipher.blockSize).length +
        (destination.drop cipher.blockSize).length = destination.length := by
      rw [← List.length_append, List.take_append_drop]
    exact List.length_append.trans ((congrArg (· + _) same).trans front)

/-- Transforms the first block of a source into the first block of a
destination. -/
def cryptBlock (backend : Backend σ) (cipher : AesCipher) (direction : Direction)
    (source destination : Bytes) : StateM σ (Except Fault Unit × Bytes) := do
  if source.length < cipher.blockSize then
    return (.error (.broken .sourceHoldsBlock), destination)
  else if destination.length < cipher.blockSize then
    return (.error (.broken .destinationHoldsBlock), destination)
  else
    let (result, destination) ←
      (cipher.blockCipher backend).transform direction source destination
    return (result.mapError .error, destination)

def describe (cipher : AesCipher) : String :=
  "AesCipher \x7b key_bits: " ++ toString cipher.key.bits.toNat ++ ", block_size: " ++
    toString cipher.blockSize ++ ", .. \x7d"

end AesCipher

end CipherModes
