import CipherModes.ProviderCache

/-!
# Scripted initialisers

An initialiser given as data: it sets and reads properties of its provider,
acquires further values from the same cache, and may fail. What it reads goes
into the log of the value that it makes. Scripts nest as deeply as they like.
-/

set_option autoImplicit false

namespace CipherModes

/-- A script: an action and what follows it. -/
inductive Script
  | finish
  | setText (name text : String) (next : Script)
  | getWord (name : String) (next : Script)
  | getKeyLengths (next : Script)
  | checkKeyLengths (next : Script)
  | cacheSize (next : Script)
  /-- Acquires another value and takes its number. -/
  | acquire (key : CacheKey) (inner next : Script)
  | fail
  deriving Repr

/-- What a script has read. -/
inductive LogEntry
  | number (value : Nat)
  | lengths (value : KeyLengths)
  deriving DecidableEq, Repr

/-- The value that a script makes of its provider. -/
structure ScriptedValue where
  provider : Provider
  /-- The number of the start. -/
  serial : Nat
  log : List LogEntry
  deriving DecidableEq, Repr

namespace Script

variable {σ : Type}

/-- Runs a script on a provider, with what it has read so far. -/
def run (backend : Backend σ) (serial : Nat) (provider : Provider) :
    Script → List LogEntry → Action (Caching ScriptedValue σ) ScriptedValue
  | finish, log => return { provider, serial, log }
  | setText name text next, log => do
      Caching.tryBackend (provider.setText backend name text)
      run backend serial provider next log
  | getWord name next, log => do
      let word ← Caching.tryBackend (provider.getWord backend name)
      run backend serial provider next (log ++ [.number word.toNat])
  | getKeyLengths next, log => do
      let lengths ← Caching.tryBackend (provider.getKeyLengths backend)
      run backend serial provider next (log ++ [.lengths lengths])
  | checkKeyLengths next, log => do
      let lengths ← Caching.tryBackend (provider.getKeyLengths backend)
      let allowed ← Action.ofExcept (AllowedKeyLengths.check lengths)
      run backend serial provider next (log ++ [.lengths allowed.lengths])
  | cacheSize next, log => do
      let state ← getThe (Caching ScriptedValue σ)
      run backend serial provider next (log ++ [.number state.cache.size])
  | acquire key inner next, log => do
      let value ← ProviderCache.acquire backend ScriptedValue.provider key
        fun innerSerial innerProvider => run backend innerSerial innerProvider inner []
      run backend serial provider next (log ++ [.number value.serial])
  | fail, _ => throw (.malformedProperty PropertyName.chainingMode)

def acquireValue (backend : Backend σ) (key : CacheKey) (script : Script) :
    Action (Caching ScriptedValue σ) ScriptedValue :=
  ProviderCache.acquire backend ScriptedValue.provider key fun serial provider =>
    run backend serial provider script []

end Script

end CipherModes
