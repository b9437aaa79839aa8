import CipherModes.Backend.Call

/-!
# A record of calls

Any backend can be made to keep a record of the calls made on it, with their
replies. The record changes no reply. A line of a record tells a call by its
arguments, long ones by their length only.
-/

set_option autoImplicit false

namespace CipherModes

structure Event where
  call : Call
  reply : Reply call

/-- A state and the calls made so far, in order. -/
structure Recorded (σ : Type) where
  inner : σ
  events : List Event := []

namespace Backend

variable {σ : Type}

/-- Answers as the given backend and records it. -/
def recorded (backend : Backend σ) : Backend (Recorded σ) where
  answer call state :=
    let (reply, inner) := backend.answer call state.inner
    (reply, { inner, events := state.events ++ [⟨call, reply⟩] })
  describe state := backend.describe state.inner
  keepsLengths call state := backend.keepsLengths call state.inner

end Backend

namespace Call

/-- A name and its arguments, without spaces at the end. -/
private def line (operation : Operation) (arguments : List String) : String :=
  let text := (String.intercalate " " (operation.name :: arguments)).toList
  String.ofList (text.reverse.dropWhile (· == ' ')).reverse

def describe (call : Call) : String :=
  let number (handle : Handle) : String := toString handle.id.toNat
  let size (bytes : Bytes) : String := toString bytes.length
  line call.operation <|
    match call with
    | openProvider algorithm flags => [algorithm, toString flags.bits.toNat]
    | closeProvider provider => [number provider]
    | importKey provider secret => [number provider, size secret]
    | destroyKey key => [number key]
    | getProperty handle name output => [number handle, name, size output]
    | setProperty handle name value => [number handle, name, Bytes.hex value]
    | crypt _ key input output => [number key, Bytes.hex input, size output]
    | aeadEncrypt key nonce aad buffer tag | aeadDecrypt key nonce aad buffer tag =>
        [number key, size nonce, size aad, size buffer, size tag]
    | fipsEnabled => []

def closes? : Call → Option Handle
  | closeProvider provider => some provider
  | _ => none

end Call

/-- Where providers are closed one after the other, the record tells them in
ascending order: the order in which a cache closes its providers means nothing. -/
def sortCloses (calls : List Call) : List Call :=
  calls.foldr
    (fun call rest =>
      match call.closes? with
      | none => call :: rest
      | some provider =>
          let sooner (later : Call) : Bool :=
            later.closes?.any fun other => other.id < provider.id
          rest.takeWhile sooner ++ call :: rest.dropWhile sooner)
    []

end CipherModes
