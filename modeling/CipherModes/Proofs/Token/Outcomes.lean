import CipherModes.Proofs.Accounts.Backend
import CipherModes.Proofs.Token.Calls

/-!
# How calls on a token come out

A call is refused, or it issues a handle or takes one back, or it switches the
mode of a provider, or it leaves the token as it is. A refused call changes
neither the token nor a buffer. On a handle that is not there every call is
refused, though not always for that reason: calls that take blocks or whole
messages look at their buffers first.
-/

set_option autoImplicit false

namespace CipherModes

def Reply.status? {call : Call} (reply : Reply call) : Option Status :=
  match reply.result with
  | .ok _ => none
  | .error error => some error.status

theorem Reply.status?_eq_some_iff {call : Call} {reply : Reply call} {status : Status} :
    reply.status? = some status ↔ ∃ operation, reply.result = .error ⟨operation, status⟩ := by
  cases replied : reply.result with
  | ok value => simp [status?, replied]
  | error error =>
      obtain ⟨operation, reported⟩ := error
      simp [status?, replied]

/-- What a call reports of its own nonce, tag and buffers, before it looks for its key. -/
def Call.bufferFault? : Call → Option Status
  | crypt _ _ input output =>
      if ¬ Token.lengthFits input ∨ input.length % Aes.blockLength ≠ 0 then some .invalidBufferSize
      else if output.length < input.length then some .bufferTooSmall
      else none
  | aeadEncrypt _ nonce aad buffer tag | aeadDecrypt _ nonce aad buffer tag =>
      if ¬ Token.aeadLengths nonce tag then some .invalidParameter
      else if ¬ Token.lengthFits buffer ∨ ¬ Token.lengthFits aad then some .invalidBufferSize
      else none
  | _ => none

namespace Token

variable {token : Token} {call : Call}

/-- How a token can answer a call, and what becomes of it. -/
inductive Outcome (token : Token) : (call : Call) → Reply call → Token → Prop where
  | refused {call : Call} (status : Status) : Outcome token call (.fail status) token
  | opened {algorithm : String} {flags : ProviderFlags} (known : algorithm = aesAlgorithm) :
      Outcome token (.openProvider algorithm flags) (.succeed (.issuedAfter token.issued))
        { token with
          issued := token.issued + 1
          providers := token.providers.insert (.issuedAfter token.issued) .cbc
          providersOpened := token.providersOpened + 1 }
  | closed {provider : Handle} {mode : ChainingMode}
      (present : token.providers.get? provider = some mode)
      (unused : ∀ entry ∈ token.keys.entries, entry.2.provider ≠ provider) :
      Outcome token (.closeProvider provider) (.succeed ())
        { token with providers := token.providers.erase provider }
  | imported {provider : Handle} {secret : Bytes} {mode : ChainingMode} {material : KeyMaterial}
      (present : token.providers.get? provider = some mode)
      (made : KeyMaterial.ofSecret mode secret = .ok material) :
      Outcome token (.importKey provider secret) (.succeed (.issuedAfter token.issued))
        { token with
          issued := token.issued + 1
          keys := token.keys.insert (.issuedAfter token.issued)
            ⟨provider, UInt32.ofNat (secret.length * 8), material⟩
          keysImported := token.keysImported + 1 }
  | destroyed {key : Handle} {object : KeyObject} (present : token.keys.get? key = some object) :
      Outcome token (.destroyKey key) (.succeed ()) { token with keys := token.keys.erase key }
  | switched {provider : Handle} {value : Bytes} {old mode : ChainingMode}
      (present : token.providers.get? provider = some old)
      (read : (decodeWide? value).bind ChainingMode.ofText? = some mode) :
      Outcome token (.setProperty provider PropertyName.chainingMode value) (.succeed ())
        { token with providers := token.providers.replace provider mode }
  | answered {call : Call} {reply : Reply call} (keeps : call.KeepsHandles)
      (success : reply.result.isOk = true) : Outcome token call reply token

theorem answer_outcome (token : Token) (call : Call) :
    token.Outcome call (token.answer call).1 (token.answer call).2 := by
  cases call with
  | openProvider algorithm flags =>
      simp only [answer, openProvider]
      split
      · exact .refused _
      · rename_i available
        split
        · exact .refused _
        · exact .opened (Decidable.not_not.mp (not_or.mp available).1)
  | closeProvider provider =>
      simp only [answer, closeProvider]
      split
      · exact .refused _
      · rename_i unused
        split
        · exact .refused _
        · rename_i present
          refine .closed present fun entry member same => unused ?_
          exact List.any_eq_true.mpr ⟨entry, member, beq_iff_eq.mpr same⟩
  | importKey provider secret =>
      simp only [answer, importKey]
      split
      · exact .refused _
      · rename_i present
        split
        · split
          · exact .refused _
          · rename_i made
            exact .imported present made
        · exact .refused _
  | destroyKey key =>
      simp only [answer, destroyKey]
      split
      · exact .refused _
      · rename_i present
        exact .destroyed present
  | getProperty handle name output =>
      simp only [answer, getProperty]
      split
      · exact .refused _
      · split
        · exact .answered trivial rfl
        · exact .refused _
  | setProperty handle name value =>
      simp only [answer, setProperty]
      split
      · exact .refused _
      · exact .refused _
      · rename_i present
        split
        · rename_i named
          subst named
          split
          · exact .refused _
          · rename_i read
            exact .switched present read
        · exact .refused _
  | crypt direction key input output =>
      simp only [answer, crypt]
      repeat' split
      all_goals first | exact .refused _ | exact .answered trivial rfl
  | aeadEncrypt key nonce aad buffer tag =>
      simp only [answer, aeadEncrypt]
      repeat' split
      all_goals first | exact .refused _ | exact .answered trivial rfl
  | aeadDecrypt key nonce aad buffer tag =>
      simp only [answer, aeadDecrypt]
      repeat' split
      all_goals first | exact .refused _ | exact .answered trivial rfl
  | fipsEnabled => exact .answered trivial rfl

/-! ## Handles that are issued -/

theorem opened_of_ok {algorithm : String} {flags : ProviderFlags} {raw : Handle}
    (success : (token.answer (.openProvider algorithm flags)).1.result = .ok raw) :
    algorithm = aesAlgorithm ∧ raw = .issuedAfter token.issued ∧
      (token.answer (.openProvider algorithm flags)).2 =
        { token with
          issued := token.issued + 1
          providers := token.providers.insert (.issuedAfter token.issued) .cbc
          providersOpened := token.providersOpened + 1 } := by
  have outcome := token.answer_outcome (.openProvider algorithm flags)
  generalize token.answer (.openProvider algorithm flags) = answered at outcome success ⊢
  obtain ⟨reply, next⟩ := answered
  cases outcome with
  | refused status => cases success
  | opened known =>
      cases success
      exact ⟨known, rfl, rfl⟩
  | answered keeps => cases keeps

theorem imported_of_ok {provider raw : Handle} {secret : Bytes}
    (success : (token.answer (.importKey provider secret)).1.result = .ok raw) :
    raw = .issuedAfter token.issued ∧ ∃ mode material,
      token.providers.get? provider = some mode ∧
      KeyMaterial.ofSecret mode secret = .ok material ∧
      (token.answer (.importKey provider secret)).2 =
        { token with
          issued := token.issued + 1
          keys := token.keys.insert (.issuedAfter token.issued)
            ⟨provider, UInt32.ofNat (secret.length * 8), material⟩
          keysImported := token.keysImported + 1 } := by
  have outcome := token.answer_outcome (.importKey provider secret)
  generalize token.answer (.importKey provider secret) = answered at outcome success ⊢
  obtain ⟨reply, next⟩ := answered
  cases outcome with
  | refused status => cases success
  | imported present made =>
      cases success
      exact ⟨rfl, _, _, present, made, rfl⟩
  | answered keeps => cases keeps

/-! ## Refusals -/

theorem refused_of_error {error : BackendError}
    (failed : (token.answer call).1.result = .error error) :
    ∃ status, token.answer call = (.fail status, token) := by
  have outcome := token.answer_outcome call
  generalize token.answer call = answered at outcome failed
  obtain ⟨reply, next⟩ := answered
  cases outcome with
  | refused status => exact ⟨status, rfl⟩
  | opened | closed | imported | destroyed | switched => cases failed
  | answered keeps success =>
      rw [failed] at success
      cases success

/-- A call on a handle that nothing goes by is refused for its buffers or for the handle. -/
theorem answer_of_absent {handle : Handle} (names : call.handle? = some handle)
    (noProvider : token.providers.get? handle = none) (noKey : token.keys.get? handle = none)
    (unused : ∀ entry ∈ token.keys.entries, entry.2.provider ≠ handle) :
    token.answer call = (.fail (call.bufferFault?.getD .invalidHandle), token) := by
  cases call with
  | openProvider | fipsEnabled => cases names
  | closeProvider =>
      cases names
      have empty : ¬ token.keys.entries.any (·.2.provider == handle) := by
        rw [List.any_eq_true]
        rintro ⟨entry, member, same⟩
        exact unused entry member (beq_iff_eq.mp same)
      simp only [answer, closeProvider, if_neg empty, noProvider]
      rfl
  | importKey =>
      cases names
      simp only [answer, importKey, noProvider]
      rfl
  | destroyKey =>
      cases names
      simp only [answer, destroyKey, noKey]
      rfl
  | getProperty =>
      cases names
      simp only [answer, getProperty, property, noProvider, noKey]
      rfl
  | setProperty =>
      cases names
      simp only [answer, setProperty, noProvider, noKey]
      rfl
  | crypt =>
      cases names
      simp only [answer, crypt, noKey, Call.bufferFault?]
      repeat' split
      all_goals rfl
  | aeadEncrypt =>
      cases names
      simp only [answer, aeadEncrypt, noKey, Call.bufferFault?]
      repeat' split
      all_goals rfl
  | aeadDecrypt =>
      cases names
      simp only [answer, aeadDecrypt, noKey, Call.bufferFault?]
      repeat' split
      all_goals rfl

/-- The calls of a run that succeed. -/
def accepted (token : Token) : List Call → List Call
  | [] => []
  | call :: rest =>
      let (reply, next) := token.answer call
      if reply.result.isOk then call :: next.accepted rest else next.accepted rest

/-- Calls that fail can be left out of a run. -/
theorem afterCalls_accepted (token : Token) (calls : List Call) :
    token.afterCalls (token.accepted calls) = token.afterCalls calls := by
  induction calls generalizing token with
  | nil => rfl
  | cons call rest ih =>
      simp only [accepted]
      cases replied : (token.answer call).1.result with
      | ok value => exact ih (token.answer call).2
      | error error =>
          change token.afterCalls ((token.answer call).2.accepted rest) =
            (token.answer call).2.afterCalls rest
          rw [unchanged_of_error replied]
          exact ih token

/-- A call that fails changes nothing on the token, on which tables, modes, counters and the next
handle depend, and writes no byte of a buffer. -/
theorem failure_leaves_no_trace {error : BackendError}
    (failed : (token.answer call).1.result = .error error) :
    (token.answer call).2 = token ∧ (token.answer call).1.output = call.output ∧
      (token.answer call).1.tagOutput = call.tagOutput ∧ error.operation = call.operation.name := by
  obtain ⟨status, answered⟩ := refused_of_error failed
  rw [answered] at failed ⊢
  cases failed
  exact ⟨rfl, rfl, rfl, rfl⟩

/-- A forged message under a live key. -/
theorem failure_leaves_no_trace_of_forgery :
    ∃ token forged, token = (fresh {}).afterCalls [.openProvider aesAlgorithm .none,
        .setProperty ⟨1, by decide⟩ PropertyName.chainingMode (encodeWide ChainingMode.gcm.text),
        .importKey ⟨1, by decide⟩ (Bytes.zeros 16)] ∧
      forged = .aeadDecrypt ⟨2, by decide⟩ (Bytes.zeros 12) [] [1, 2, 3] (Bytes.zeros 16) ∧
      (token.answer forged).1.status? = some .authTagMismatch ∧
      (token.answer forged).2 = token ∧ (token.answer forged).1.output = [1, 2, 3] := by
  have kept (token : Token) (forged : Call)
      (reported : (token.answer forged).1.status? = some .authTagMismatch) :
      (token.answer forged).1.status? = some .authTagMismatch ∧
        (token.answer forged).2 = token ∧ (token.answer forged).1.output = forged.output := by
    obtain ⟨operation, failed⟩ := Reply.status?_eq_some_iff.mp reported
    obtain ⟨same, output, -, -⟩ := failure_leaves_no_trace failed
    exact ⟨reported, same, output⟩
  exact ⟨_, _, rfl, rfl, kept _ _ (by decide +kernel)⟩

end Token

end CipherModes
