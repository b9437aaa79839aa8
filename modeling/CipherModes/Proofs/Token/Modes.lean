import CipherModes.Proofs.Gcm.CounterMode
import CipherModes.Proofs.Text.Wide
import CipherModes.Proofs.Token.Blocks
import CipherModes.Proofs.Token.LiveKeys
import CipherModes.Proofs.Token.Properties

/-!
# The mode of a provider

Setting, reading and importing agree on the mode of an open provider: it is the
one that the record of the run shows set last, in whichever of its spellings,
and the chained one where none was set.
-/

set_option autoImplicit false

namespace CipherModes

/-! ## Modes as property values -/

/-- The units that are read of a value are those of the name of a mode. -/
def Spells (value : Bytes) (mode : ChainingMode) : Prop :=
  value.length % 2 = 0 ∧ Utf16.textUnits value = Utf16.encode mode.text.toList

instance (value : Bytes) (mode : ChainingMode) : Decidable (Spells value mode) :=
  inferInstanceAs (Decidable (_ ∧ _))

section

variable {value : Bytes} {mode other : ChainingMode}

theorem spells_iff :
    Spells value mode ↔ (decodeWide? value).bind ChainingMode.ofText? = some mode := by
  rw [Option.bind_eq_some_iff]
  constructor
  · intro spells
    exact ⟨mode.text, decodeWide?_eq_some_iff.mpr spells, ChainingMode.ofText?_text mode⟩
  · rintro ⟨text, read, found⟩
    obtain rfl := ChainingMode.text_of_ofText? found
    exact decodeWide?_eq_some_iff.mp read

theorem Spells.unique (first : Spells value mode) (second : Spells value other) : mode = other :=
  Option.some.inj ((spells_iff.mp first).symm.trans (spells_iff.mp second))

/-- The mode that a value spells. -/
def spelled? (value : Bytes) : Option ChainingMode := ChainingMode.all.find? (Spells value ·)

theorem spelled?_eq_some_iff : spelled? value = some mode ↔ Spells value mode := by
  constructor
  · intro found
    simpa using List.find?_some found
  · intro spells
    have listed : mode ∈ ChainingMode.all := by cases mode <;> decide
    cases found : spelled? value with
    | none =>
        have missed := List.find?_eq_none.mp found mode listed
        exact absurd spells (by simpa using missed)
    | some other =>
        have also : Spells value other := by simpa using List.find?_some found
        rw [also.unique spells]

end

/-! ## Modes in a record -/

/-- The mode that a call gave to a provider. -/
def Event.modeSet? (provider : Handle) : Event → Option ChainingMode
  | ⟨.setProperty handle _ value, reply⟩ =>
      if handle = provider ∧ reply.result.isOk then spelled? value else none
  | _ => none

/-- The mode that was set last, the chained one at first. -/
def lastMode (provider : Handle) (events : List Event) : ChainingMode :=
  events.foldl (fun mode event => (event.modeSet? provider).getD mode) .cbc

theorem lastMode_concat (provider : Handle) (events : List Event) (event : Event) :
    lastMode provider (events ++ [event]) =
      (event.modeSet? provider).getD (lastMode provider events) :=
  List.foldl_append

namespace Token

variable {settings : Settings} {token : Token} {provider handle key : Handle} {mode : ChainingMode}
  {events : List Event} {name : String} {value secret nonce aad buffer tag : Bytes}
  {schedule : Aes.Schedule}

/-! ## Setting -/

theorem setProperty_of_spells (present : provider ∈ token.providers.handles)
    (spells : Spells value mode) :
    token.answer (.setProperty provider PropertyName.chainingMode value) =
      (.succeed (), { token with providers := token.providers.replace provider mode }) := by
  obtain ⟨old, found⟩ := HandleTable.exists_get? present
  simp only [answer, setProperty, found, if_true, spells_iff.mp spells]

/-- A set that succeeds is one of the mode of an open provider. -/
theorem spells_of_ok
    (success : (token.answer (.setProperty provider name value)).1.result.isOk = true) :
    provider ∈ token.providers.handles ∧ name = PropertyName.chainingMode ∧
      ∃ mode, Spells value mode := by
  simp only [answer, setProperty] at success
  split at success
  · cases success
  · cases success
  · rename_i present
    split at success
    · rename_i named
      split at success
      · cases success
      · rename_i read
        exact ⟨HandleTable.mem_handles_of_get? present, named, _, spells_iff.mpr read⟩
    · cases success

theorem sets_iff (present : provider ∈ token.providers.handles) :
    (token.answer (.setProperty provider name value)).1.result.isOk = true ↔
      name = PropertyName.chainingMode ∧ ∃ mode, Spells value mode := by
  refine ⟨fun success => (spells_of_ok success).2, ?_⟩
  rintro ⟨rfl, mode, spells⟩
  rw [setProperty_of_spells present spells]
  rfl

/-! ## The record tells the mode -/

/-- Each open provider is in the mode that was set last, and no mode was set of a provider that is
yet to be opened. -/
structure Remembers (events : List Event) (token : Token) : Prop where
  accounted : token.Accounted
  modes : ∀ provider mode, token.providers.get? provider = some mode →
    lastMode provider events = mode
  unset : ∀ handle : Handle, token.issued.toNat < handle.id.toNat → lastMode handle events = .cbc

theorem remembers_fresh (settings : Settings) : Remembers [] (fresh settings) :=
  ⟨accounted_fresh settings, nofun, fun _ _ => rfl⟩

namespace Remembers

variable {call : Call} {reply : Reply call} {next : Token}

/-- A call that sets no mode may still open or close a provider. -/
theorem unswitched (remembers : Remembers events token) (effect : token.Effect call next)
    (lasts : next.handlesIssued < Handle.limit)
    (silent : ∀ provider, Event.modeSet? provider ⟨call, reply⟩ = none)
    (kept : call.operation = .setProperty → next = token) :
    Remembers (events ++ [⟨call, reply⟩]) next := by
  have same : ∀ provider, lastMode provider (events ++ [⟨call, reply⟩]) =
      lastMode provider events := by
    intro provider
    rw [lastMode_concat, silent]
    rfl
  have accounted := remembers.accounted.step effect lasts
  refine ⟨accounted, ?_, ?_⟩
  · intro provider mode present
    rw [same]
    cases effect with
    | nothing | imported | destroyed => exact remembers.modes provider mode present
    | switched =>
        rw [congrArg providers (kept rfl)] at present
        exact remembers.modes provider mode present
    | closed other =>
        by_cases closed : provider = other
        · rw [closed, HandleTable.get?_erase_self] at present
          cases present
        · rw [HandleTable.get?_erase_ne closed] at present
          exact remembers.modes provider mode present
    | opened =>
        by_cases opened : provider = .issuedAfter token.issued
        · rw [opened, HandleTable.get?_insert_self] at present
          cases present
          have remain : token.handlesIssued + 1 < Handle.limit := by
            simp only [handlesIssued] at lasts ⊢
            omega
          apply remembers.unset
          rw [opened, (remembers.accounted.issue remain).2, remembers.accounted.issued_eq]
          exact Nat.lt_succ_self _
        · rw [HandleTable.get?_insert_ne opened] at present
          exact remembers.modes provider mode present
  · intro handle later
    rw [same]
    apply remembers.unset
    rw [accounted.issued_eq] at later
    rw [remembers.accounted.issued_eq]
    exact Nat.lt_of_le_of_lt effect.handlesIssued_le later

/-- A mode that is set of one provider is that of no other. -/
theorem switched {reply : Reply (.setProperty provider name value)}
    (remembers : Remembers events token) (present : provider ∈ token.providers.handles)
    (spells : Spells value mode) (success : reply.result.isOk = true) :
    Remembers (events ++ [⟨.setProperty provider name value, reply⟩])
      { token with providers := token.providers.replace provider mode } := by
  obtain ⟨old, found⟩ := HandleTable.exists_get? present
  have own : lastMode provider (events ++ [⟨.setProperty provider name value, reply⟩]) =
      mode := by
    rw [lastMode_concat, Event.modeSet?, if_pos ⟨rfl, success⟩, spelled?_eq_some_iff.mpr spells]
    rfl
  have others : ∀ other, other ≠ provider →
      lastMode other (events ++ [⟨.setProperty provider name value, reply⟩]) =
        lastMode other events := by
    intro other different
    rw [lastMode_concat, Event.modeSet?, if_neg fun both => different both.1.symm]
    rfl
  have lasts : token.handlesIssued < Handle.limit :=
    remembers.accounted.issued_eq ▸ token.issued.toNat_lt
  refine ⟨remembers.accounted.step (.switched provider name value mode) lasts, ?_, ?_⟩
  · intro other current known
    by_cases same : other = provider
    · rw [same, HandleTable.get?_replace_self found] at known
      cases known
      rw [same, own]
    · rw [HandleTable.get?_replace_ne same] at known
      rw [others other same]
      exact remembers.modes other current known
  · intro handle later
    have different : handle ≠ provider := by
      rintro rfl
      rw [remembers.accounted.no_provider handle later] at found
      cases found
    rw [others handle different]
    exact remembers.unset handle later

theorem answer (remembers : Remembers events token) (call : Call)
    (lasts : (token.answer call).2.handlesIssued < Handle.limit) :
    Remembers (events ++ [⟨call, (token.answer call).1⟩]) (token.answer call).2 := by
  by_cases sets : call.operation = .setProperty ∧ (token.answer call).1.result.isOk = true
  · obtain ⟨kind, success⟩ := sets
    cases call with
    | setProperty provider name value =>
        obtain ⟨present, rfl, mode, spells⟩ := spells_of_ok success
        rw [congrArg Prod.snd (setProperty_of_spells present spells)]
        exact remembers.switched present spells success
    | crypt direction => cases direction <;> cases kind
    | _ => cases kind
  · apply remembers.unswitched (token.answer_effect call) lasts
    case silent =>
      intro provider
      cases call with
      | setProperty => exact if_neg fun both => sets ⟨rfl, both.2⟩
      | _ => rfl
    case kept =>
      intro kind
      cases replied : (token.answer call).1.result with
      | ok value => exact absurd ⟨kind, congrArg Except.isOk replied⟩ sets
      | error error => exact unchanged_of_error replied

theorem along {initial last : Token} (remembers : Remembers [] initial)
    (leads : backend.Leads initial events last) (lasts : last.handlesIssued < Handle.limit) :
    Remembers events last := by
  induction leads with
  | nothing => exact remembers
  | answer before call ih => exact (ih (accounting.lasts_before lasts)).answer call lasts

end Remembers

/-! ## Reading -/

theorem getProperty_chainingMode (found : token.providers.get? provider = some mode)
    (output : Bytes) :
    token.answer (.getProperty provider PropertyName.chainingMode output) =
      (if (encodeWide mode.text).length ≤ output.length then
        { result := .ok (encodeWide mode.text).length
          output := encodeWide mode.text ++ output.drop (encodeWide mode.text).length
          tagOutput := [] }
      else .fail .bufferTooSmall, token) := by
  have writes : token.Writes provider PropertyName.chainingMode (encodeWide mode.text) :=
    writes_of_property (property_of_provider found _)
  split
  · exact writes.fits output (by assumption)
  · exact writes.too_small output (Nat.lt_of_not_le (by assumption))

/-! ## Importing -/

/-- The key of a handle takes blocks and no messages. -/
structure TakesOnlyBlocks (token : Token) (key : Handle) : Prop where
  crypts : ∀ direction input output,
    (Call.crypt direction key input output).bufferFault? = none →
      (token.answer (.crypt direction key input output)).1.result = .ok input.length
  seals_not : ∀ nonce aad buffer tag,
    let call := Call.aeadEncrypt key nonce aad buffer tag
    token.answer call = (.fail (call.bufferFault?.getD .invalidParameter), token)
  opens_not : ∀ nonce aad buffer tag,
    let call := Call.aeadDecrypt key nonce aad buffer tag
    token.answer call = (.fail (call.bufferFault?.getD .invalidParameter), token)

/-- The key of a handle takes messages, of which it opens those that it sealed, and no blocks. -/
structure TakesOnlyMessages (token : Token) (key : Handle) : Prop where
  seals : ∀ nonce aad buffer tag, (Call.aeadEncrypt key nonce aad buffer tag).bufferFault? = none →
    (token.answer (.aeadEncrypt key nonce aad buffer tag)).1.result = .ok ()
  opens : ∀ nonce aad buffer tag, (Call.aeadEncrypt key nonce aad buffer tag).bufferFault? = none →
    let sealed := (token.answer (.aeadEncrypt key nonce aad buffer tag)).1
    let opened := (token.answer (.aeadDecrypt key nonce aad sealed.output sealed.tagOutput)).1
    opened.result = .ok () ∧ opened.output = buffer
  /-- Nothing but a wrong tag is a reason to refuse a message. -/
  checks : ∀ nonce aad buffer tag, (Call.aeadDecrypt key nonce aad buffer tag).bufferFault? = none →
    (token.answer (.aeadDecrypt key nonce aad buffer tag)).1.status? ∈ [none, some .authTagMismatch]
  crypts_not : ∀ direction input output,
    let call := Call.crypt direction key input output
    token.answer call = (.fail (call.bufferFault?.getD .invalidParameter), token)

theorem takesOnlyBlocks_of_material (made : token.material? key = some (.blocks schedule)) :
    token.TakesOnlyBlocks key := by
  obtain ⟨provider, bits, found⟩ := material?_eq_some_iff.mp made
  constructor
  case crypts =>
    intro direction input output faultless
    simp only [Call.bufferFault?] at faultless
    split at faultless
    · cases faultless
    · rename_i accepted
      split at faultless
      · cases faultless
      · rename_i room
        simp only [answer, crypt, if_neg accepted, if_neg room, found]
  case seals_not =>
    intro nonce aad buffer tag
    simp only [answer, aeadEncrypt, found, Call.bufferFault?]
    repeat' split
    all_goals rfl
  case opens_not =>
    intro nonce aad buffer tag
    simp only [answer, aeadDecrypt, found, Call.bufferFault?]
    repeat' split
    all_goals rfl

theorem acceptsMessage_of_faultless (made : token.material? key = some (.sealing schedule))
    (faultless : (Call.aeadEncrypt key nonce aad buffer tag).bufferFault? = none) :
    token.AcceptsMessage key schedule nonce aad buffer tag := by
  simp only [Call.bufferFault?] at faultless
  split at faultless
  · cases faultless
  · rename_i lengths
    split at faultless
    · cases faultless
    · rename_i fits
      simp only [aeadLengths, lengthFits, Bool.and_eq_true, beq_iff_eq, decide_eq_true_eq, not_or,
        Decidable.not_not] at lengths fits
      exact ⟨made, lengths.1, lengths.2, fits.1, fits.2⟩

theorem takesOnlyMessages_of_material (made : token.material? key = some (.sealing schedule)) :
    token.TakesOnlyMessages key := by
  constructor
  case seals =>
    intro nonce aad buffer tag faultless
    have accepts := acceptsMessage_of_faultless made faultless
    rw [answer, aeadEncrypt_of_accepts accepts]
  case opens =>
    intro nonce aad buffer tag faultless
    have accepts := acceptsMessage_of_faultless made faultless
    have size : Gcm.BlockFunction.KeepsSize schedule.encrypt := fun _ => rfl
    have again : token.AcceptsMessage key schedule nonce aad
        (Gcm.sealDetached schedule.encrypt nonce aad buffer).1
        (Gcm.sealDetached schedule.encrypt nonce aad buffer).2 := by
      refine ⟨made, accepts.nonceSize, Gcm.length_fullTag size .., ?_, accepts.aadFits⟩
      rw [Gcm.sealDetached, Gcm.length_crypt size]
      exact accepts.bufferFits
    have opened := aeadDecrypt_of_match again (Gcm.openDetached?_sealDetached size nonce aad)
    dsimp only [answer]
    rw [aeadEncrypt_of_accepts accepts, opened]
    exact ⟨rfl, rfl⟩
  case checks =>
    intro nonce aad buffer tag faultless
    have accepts := acceptsMessage_of_faultless made faultless
    cases opened : Gcm.openDetached? schedule.encrypt nonce aad buffer tag with
    | none =>
        rw [answer, aeadDecrypt_of_mismatch accepts opened]
        exact .tail _ (.head _)
    | some plaintext =>
        rw [answer, aeadDecrypt_of_match accepts opened]
        exact .head _
  case crypts_not =>
    intro direction input output
    obtain ⟨provider, bits, found⟩ := material?_eq_some_iff.mp made
    simp only [answer, crypt, found, Call.bufferFault?]
    repeat' split
    all_goals rfl

/-- What becomes of a secret by the mode of the provider it is imported into. -/
def ImportsAs (token : Token) (provider : Handle) (secret : Bytes) : ChainingMode → Prop
  | .ecb => ∃ key next, token.answer (.importKey provider secret) = (.succeed key, next) ∧
      next.TakesOnlyBlocks key
  | .gcm => ∃ key next, token.answer (.importKey provider secret) = (.succeed key, next) ∧
      next.TakesOnlyMessages key
  | .cbc => token.answer (.importKey provider secret) = (.fail .notSupported, token)

private theorem imports_material (found : token.providers.get? provider = some mode)
    (fits : lengthFits secret = true) {material : KeyMaterial}
    (made : KeyMaterial.ofSecret mode secret = .ok material) :
    ∃ key next, token.answer (.importKey provider secret) = (.succeed key, next) ∧
      next.material? key = some material := by
  have answered : token.answer (.importKey provider secret) =
      (.succeed (.issuedAfter token.issued),
        { token with
          issued := token.issued + 1
          keys := token.keys.insert (.issuedAfter token.issued)
            ⟨provider, UInt32.ofNat (secret.length * 8), material⟩
          keysImported := token.keysImported + 1 }) := by
    simp only [answer, importKey, found, if_pos fits, made]
  refine ⟨_, _, answered, ?_⟩
  rw [material?, HandleTable.get?_insert_self]
  rfl

theorem importsAs_of_size (found : token.providers.get? provider = some mode)
    (size : secret.length ∈ [16, 24, 32]) : token.ImportsAs provider secret mode := by
  have fits : lengthFits secret = true := by
    simp only [List.mem_cons, List.not_mem_nil, or_false] at size
    simp only [lengthFits, decide_eq_true_eq]
    omega
  have expanded : Aes.Schedule.ofSecret? secret =
      some (Aes.Schedule.expand (secret.length / 4) secret) := if_pos (by simpa using size)
  cases mode with
  | cbc =>
      simp only [ImportsAs, answer, importKey, found, if_pos fits]
      rfl
  | ecb =>
      have made : KeyMaterial.ofSecret .ecb secret =
          .ok (.blocks (Aes.Schedule.expand (secret.length / 4) secret)) := by
        rw [KeyMaterial.ofSecret, expanded]
        rfl
      obtain ⟨key, next, answered, held⟩ := imports_material found fits made
      exact ⟨key, next, answered, takesOnlyBlocks_of_material held⟩
  | gcm =>
      have made : KeyMaterial.ofSecret .gcm secret =
          .ok (.sealing (Aes.Schedule.expand (secret.length / 4) secret)) := by
        rw [KeyMaterial.ofSecret, expanded]
        rfl
      obtain ⟨key, next, answered, held⟩ := imports_material found fits made
      exact ⟨key, next, answered, takesOnlyMessages_of_material held⟩

/-! ## What an open provider does -/

/-- What an open provider answers in its mode. -/
structure ActsIn (token : Token) (provider : Handle) (mode : ChainingMode) : Prop where
  sets : ∀ name value, (token.answer (.setProperty provider name value)).1.result.isOk = true ↔
    name = PropertyName.chainingMode ∧ ∃ mode, Spells value mode
  reads : ∀ output, token.answer (.getProperty provider PropertyName.chainingMode output) =
    (if (encodeWide mode.text).length ≤ output.length then
      { result := .ok (encodeWide mode.text).length
        output := encodeWide mode.text ++ output.drop (encodeWide mode.text).length
        tagOutput := [] }
    else .fail .bufferTooSmall, token)
  imports : ∀ secret, secret.length ∈ [16, 24, 32] → token.ImportsAs provider secret mode

/-- After any calls an open provider acts in the mode that the record shows set last, as long as
handles are left. -/
theorem open_provider_acts_in_last_mode {calls : List Call}
    (lasts : (issuedHandles ((fresh settings).trace calls)).length + 1 < Handle.limit)
    (opened : provider ∈ openedProviders ((fresh settings).trace calls)) :
    ((fresh settings).afterCalls calls).ActsIn provider
      (lastMode provider ((fresh settings).trace calls)) := by
  have leads := leads_trace (fresh settings) calls
  have remain : ((fresh settings).afterCalls calls).handlesIssued < Handle.limit := by
    rw [← length_issuedHandles leads]
    exact Nat.lt_of_le_of_lt (Nat.le_of_eq (Nat.zero_add _)) (Nat.lt_of_succ_lt lasts)
  have bears := ((counted_fresh settings).along (bears_fresh settings) leads remain).2
  have present : provider ∈ ((fresh settings).afterCalls calls).providers.handles :=
    (bears.exact.open_iff provider).mpr ⟨_, List.mem_map_of_mem opened, rfl⟩
  obtain ⟨mode, found⟩ := HandleTable.exists_get? present
  obtain rfl := ((remembers_fresh settings).along leads remain).modes provider mode found
  exact ⟨fun _ _ => sets_iff present, getProperty_chainingMode found,
    fun _ => importsAs_of_size found⟩

/-- A mode is set with more behind its name, a set that would follow it fails, another provider is
set otherwise, and a key is imported. -/
theorem open_provider_acts_in_last_mode_past_failed_set :
    let provider := Handle.issuedAfter 0
    let other := Handle.issuedAfter 1
    let calls : List Call :=
      [.openProvider aesAlgorithm .none, .openProvider aesAlgorithm .none,
        .setProperty provider PropertyName.chainingMode
          (encodeWide ChainingMode.gcm.text ++ [0x00, 0xd8]),
        .setProperty provider PropertyName.chainingMode (0 :: encodeWide ChainingMode.ecb.text),
        .setProperty other PropertyName.chainingMode (encodeWide ChainingMode.ecb.text),
        .importKey provider (Bytes.zeros 24)]
    let events := (fresh {}).trace calls
    succeeded .setProperty events = 2 ∧ lastMode other events = .ecb ∧
      lastMode provider events = .gcm ∧ ((fresh {}).afterCalls calls).ActsIn provider .gcm := by
  intro provider other calls events
  have last : lastMode provider events = .gcm := by decide +kernel
  have acts : ((fresh {}).afterCalls calls).ActsIn provider (lastMode provider events) :=
    open_provider_acts_in_last_mode (by decide +kernel) (by decide +kernel)
  exact ⟨by decide +kernel, by decide +kernel, last, last ▸ acts⟩

end Token

end CipherModes
