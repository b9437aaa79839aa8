import CipherModes.Workspace.Item

/-!
# Commands of a workspace

What a workspace can be told to do, and what it answers. A command names the
objects that it works on; one that makes an object also names the new object.
-/

set_option autoImplicit false

namespace CipherModes

inductive Command
  | call (call : Call)
  | setText (handle : Handle) (name text : String)
  | getWord (handle : Handle) (name : String)
  | getKeyLengths (handle : Handle)
  | newEngine (target : String)
  /-- Names an engine once more. -/
  | cloneEngine (engine target : String)
  | engineOf (cipher target : String)
  | countCached (engine : String)
  | fips (engine : String)
  | newCipher (engine : String) (secret : Bytes) (target : String)
  | cryptBlock (direction : Direction) (cipher : String) (source destination : Bytes)
  | newRotating (cipher : RotatingCipher) (target : String)
  | newStream (cipher : String) (direction : Direction) (iv : Bytes) (target : String)
  | cryptStream (stream : String) (source destination : Bytes)
  | cryptStreamInPlace (stream : String) (buffer : Bytes)
  | restartStream (stream : String) (iv : Bytes)
  | inspectStream (stream : String)
  | newGcm (cipher : String) (nonceSize tagSize : Nat) (target : String)
  | newBlockwise (engine : String) (secret : Bytes) (nonceSize tagSize : Nat) (target : String)
  | newRotatingGcm (cipher : RotatingCipher) (nonceSize tagSize : Nat) (target : String)
  | newOrdered (cipher target : String)
  /-- Turns a GCM into one with ordered nonces; the GCM loses its name. -/
  | orderGcm (gcm target : String)
  /-- Seals a message onto a destination, or into a new buffer that replaces it. -/
  | sealMessage (gcm : String) (destination nonce plaintext aad : Bytes) (replaces : Bool)
  /-- Opens a message onto a destination, or into a new buffer that replaces it. -/
  | openMessage (gcm : String) (destination nonce sealedText aad : Bytes) (replaces : Bool)
  | newProvider (algorithm : String) (flags : ProviderFlags) (target : String)
  | setProviderText (provider name text : String)
  | getProviderWord (provider name : String)
  | getProviderKeyLengths (provider : String)
  | newKey (provider : String) (secret : Bytes) (target : String)
  /-- Acquires the value of a script from the cache, and names it or not. -/
  | acquire (key : CacheKey) (script : Script) (target : Option String)
  | cacheSize
  | dropCache
  | drop (name : String)
  | describe (name : String)
  | describeBackend
  | describeCache
  deriving Repr

inductive Response
  /-- Done, and there is nothing to tell. -/
  | done
  | noSuchItem
  | failed (fault : Fault)
  | replied (call : Call) (reply : Reply call)
  | number (value : Nat)
  | truth (value : Bool)
  | lengths (lengths : KeyLengths)
  | text (text : String)
  | cipher (cipher : AesCipher)
  /-- The result of a block and the destination. -/
  | block (result : Except Fault Unit) (destination : Bytes)
  | stream (stream : Cbc)
  /-- The result of a call on a stream, its buffer if it has one, and the
  chaining block. -/
  | streamed (result : Except Fault Unit) (buffer : Option Bytes) (chain : Bytes)
  | gcm (gcm : Gcm)
  | sizes (nonceSize tagSize : Nat)
  | ordered (ordered : Gcm.Ordered)
  /-- The result of sealing or opening, the destination, and the least nonce
  where nonces are ordered. -/
  | sealed (result : Except Fault Unit) (destination : Bytes) (minNext : Option Nat)
  | key (key : ImportedKey)
  | value (value : ScriptedValue)

end CipherModes
