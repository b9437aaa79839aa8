import CipherModes.BlockCipher

/-!
# Cipher block chaining

A stream holds the chaining block, which carries over from call to call, so a
message may be processed in pieces. Encryption adds the chaining block before
the cipher, decryption after it; in both the next chaining block is the
ciphertext. A cipher that fails partway leaves the blocks before it processed
and the stream chained to them.
-/

set_option autoImplicit false

namespace CipherModes

/-- A stream of chained blocks. -/
structure Cbc where
  direction : Direction
  /-- The last ciphertext block, as long as the blocks of the cipher. -/
  chain : Bytes
  deriving DecidableEq, Repr

namespace Cbc

variable {σ : Type}

def blockSize (stream : Cbc) : Nat := stream.chain.length

def start (blockSize : Nat) (direction : Direction) (iv : Bytes) : Except Precondition Cbc :=
  if iv.length = blockSize then .ok { direction, chain := iv } else .error .chainIsBlock

/-- Restarts a stream from another chaining block. -/
def restart (stream : Cbc) (iv : Bytes) : Except Precondition Cbc :=
  if iv.length = stream.blockSize then .ok { stream with chain := iv } else .error .chainIsBlock

/-- Processes one block in place: the result, the block and the next chaining
block. -/
def cryptBlock (cipher : BlockCipher σ) (direction : Direction) (chain block : Bytes) :
    StateM σ (Except CipherError Unit × Bytes × Bytes) := do
  match direction with
  | .encrypt =>
      let (result, output) ← cipher.transform .encrypt (Bytes.xor block chain) block
      match result with
      | .error error => return (.error error, output, chain)
      | .ok () => return (.ok (), output, output)
  | .decrypt =>
      let (result, output) ← cipher.transform .decrypt block block
      match result with
      | .error error => return (.error error, output, chain)
      | .ok () => return (.ok (), Bytes.xor output chain, block)

/-- Processes so many blocks in place, up to the first that fails: the result,
the buffer and the chaining block. -/
def cryptFront (cipher : BlockCipher σ) (direction : Direction) :
    (count : Nat) → (chain buffer : Bytes) → StateM σ (Except CipherError Unit × Bytes × Bytes)
  | 0, chain, buffer => return (.ok (), buffer, chain)
  | count + 1, chain, buffer => do
      let rest := buffer.drop chain.length
      let (result, block, next) ← cryptBlock cipher direction chain (buffer.take chain.length)
      match result with
      | .error error => return (.error error, block ++ rest, next)
      | .ok () =>
          let (result, rest, last) ← cryptFront cipher direction count next rest
          return (result, block ++ rest, last)

/-- What a stream asks of the input of a call. -/
def refusal? (stream : Cbc) (input : Bytes) : Option Precondition :=
  if stream.blockSize = 0 then some .blockIsNonempty
  else if input.length % stream.blockSize ≠ 0 then some .wholeBlocks
  else none

/-- Processes all blocks of a buffer in place: the result, the buffer and the
stream afterwards. -/
def cryptInPlace (cipher : BlockCipher σ) (stream : Cbc) (buffer : Bytes) :
    StateM σ (Except Fault Unit × Bytes × Cbc) := do
  match stream.refusal? buffer with
  | some precondition => return (.error (.broken precondition), buffer, stream)
  | none =>
      let count := buffer.length / stream.blockSize
      let (result, buffer, chain) ←
        cryptFront cipher stream.direction count stream.chain buffer
      return (result.mapError .error, buffer, { stream with chain })

/-- Processes all blocks of a source into the front of a destination: the
result, the destination and the stream afterwards. -/
def crypt (cipher : BlockCipher σ) (stream : Cbc) (source destination : Bytes) :
    StateM σ (Except Fault Unit × Bytes × Cbc) := do
  match stream.refusal? source with
  | some precondition => return (.error (.broken precondition), destination, stream)
  | none =>
      if destination.length < source.length then
        return (.error (.broken .destinationHoldsSource), destination, stream)
      else
        let (result, buffer, stream) ← cryptInPlace cipher stream source
        return (result, buffer ++ destination.drop source.length, stream)

def describe (stream : Cbc) : String :=
  let direction : String :=
    match stream.direction with
    | .encrypt => "Encrypt"
    | .decrypt => "Decrypt"
  "Cbc \x7b direction: " ++ direction ++ ", block_size: " ++ toString stream.blockSize ++
    ", .. \x7d"

end Cbc

end CipherModes
