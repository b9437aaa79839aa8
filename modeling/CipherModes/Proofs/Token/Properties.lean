import CipherModes.Backend.Interposed
import CipherModes.Proofs.Backend.Reading
import CipherModes.Proofs.Token.Accounting

/-!
# What a token reports

A token writes a property at the front of any buffer with room for it and says how
long it is. So the key lengths and the block length of an open provider are read as
they were set up, whatever they are and whatever was called before.
-/

set_option autoImplicit false

namespace CipherModes

namespace Token

variable {α : Type} {settings : Settings} {token : Token} {handle provider : Handle}
  {name : String} {value : Bytes} {mode : ChainingMode}

/-! ## Writing -/

/-- A buffer with room for a value gets it at its front, whatever it held, and one without stays as
it is. -/
structure Writes (token : Token) (handle : Handle) (name : String) (value : Bytes) : Prop where
  fits : ∀ output, value.length ≤ output.length →
    token.answer (.getProperty handle name output) =
      ({ result := .ok value.length
         output := value ++ output.drop value.length
         tagOutput := [] }, token)
  too_small : ∀ output, output.length < value.length →
    token.answer (.getProperty handle name output) = (.fail .bufferTooSmall, token)

theorem writes_of_property (reported : token.property handle name = .ok value) :
    token.Writes handle name value := by
  constructor
  case fits =>
    intro output room
    simp only [answer, getProperty, reported, if_pos room]
    rfl
  case too_small =>
    intro output small
    simp only [answer, getProperty, reported, if_neg (Nat.not_le_of_lt small)]

/-- What is written is read, into a buffer of its length. -/
theorem Writes.reading (writes : token.Writes handle name value) (decode : Bytes → α) :
    (decode <$> backend.getExact handle name value.length) token = (.ok (decode value), token) := by
  have length : (Bytes.zeros value.length).length = value.length := Bytes.length_zeros _
  have answered : backend.answer (.getProperty handle name (Bytes.zeros value.length)) token =
      ({ result := .ok value.length, output := value, tagOutput := [] }, token) := by
    have written := writes.fits (Bytes.zeros value.length) (Nat.le_of_eq length.symm)
    rwa [List.drop_of_length_le (Nat.le_of_eq length), List.append_nil] at written
  exact Backend.reading_of_whole answered rfl

/-! ## What is set up -/

theorem property_of_provider (found : token.providers.get? provider = some mode) (name : String) :
    token.property provider name =
      (token.providerProperty mode name).elim (.error .notSupported) .ok := by
  simp only [property, found]

theorem writes_keyLengths (found : token.providers.get? provider = some mode) :
    token.Writes provider PropertyName.keyLengths token.settings.keyLengths.encode :=
  writes_of_property (property_of_provider found _)

theorem writes_blockLength (found : token.providers.get? provider = some mode) :
    token.Writes provider PropertyName.blockLength (encodeWord token.settings.blockLength) :=
  writes_of_property (property_of_provider found _)

theorem getKeyLengths_of_provider (found : token.providers.get? provider = some mode) :
    backend.getKeyLengths provider token = (.ok token.settings.keyLengths, token) := by
  have read := (writes_keyLengths found).reading KeyLengths.decode
  rwa [KeyLengths.length_encode, KeyLengths.decode_encode] at read

theorem getWord_of_provider (found : token.providers.get? provider = some mode) :
    backend.getWord provider PropertyName.blockLength token =
      (.ok token.settings.blockLength, token) := by
  have read := (writes_blockLength found).reading decodeWord
  rwa [length_encodeWord, decodeWord_encodeWord] at read

/-- What is written and read of a provider is what was set up. -/
structure Reports (token : Token) (provider : Handle) (settings : Settings) : Prop where
  writes_keyLengths : token.Writes provider PropertyName.keyLengths settings.keyLengths.encode
  writes_blockLength : token.Writes provider PropertyName.blockLength
    (encodeWord settings.blockLength)
  reads_keyLengths : backend.getKeyLengths provider token = (.ok settings.keyLengths, token)
  reads_blockLength : backend.getWord provider PropertyName.blockLength token =
    (.ok settings.blockLength, token)

theorem reports_afterCalls {calls : List Call}
    (opened : provider ∈ ((fresh settings).afterCalls calls).providers.handles) :
    ((fresh settings).afterCalls calls).Reports provider settings := by
  have kept : ((fresh settings).afterCalls calls).settings = settings :=
    (fresh settings).settings_afterCalls calls
  generalize (fresh settings).afterCalls calls = token at kept opened ⊢
  subst kept
  obtain ⟨mode, found⟩ := HandleTable.exists_get? opened
  exact ⟨writes_keyLengths found, writes_blockLength found, getKeyLengths_of_provider found,
    getWord_of_provider found⟩

end Token

/-- Each string of twelve bytes is one table, every open provider reports what its token was set up
with, and over any backend a value is read just if all of its bytes were written. -/
theorem properties_are_read_as_written :
    (∀ lengths : KeyLengths,
      lengths.encode.length = 12 ∧ KeyLengths.decode lengths.encode = lengths) ∧
    (∀ bytes : Bytes, bytes.length = 12 → (KeyLengths.decode bytes).encode = bytes) ∧
    (∀ (settings : Settings) (calls : List Call),
      ∀ provider ∈ ((Token.fresh settings).afterCalls calls).providers.handles,
        ((Token.fresh settings).afterCalls calls).Reports provider settings) ∧
    ∀ {σ : Type} (backend : Backend σ) (handle : Handle),
      (∀ name, backend.ReadsExactly handle name 4 HoldsWord (backend.getWord handle name)) ∧
        backend.ReadsExactly handle PropertyName.keyLengths 12 HoldsTable
          (backend.getKeyLengths handle) := by
  refine ⟨?_, ?_, ?_, ?_⟩
  · exact fun lengths => ⟨lengths.length_encode, lengths.decode_encode⟩
  · exact fun bytes size => KeyLengths.encode_decode size
  · exact fun settings calls provider opened => Token.reports_afterCalls opened
  · intro σ backend handle
    exact ⟨backend.getWord_readsExactly handle, backend.getKeyLengths_readsExactly handle⟩

/-- Settings that no token can work with are reported, once another provider was closed and a key
imported. A property of three bytes is no number. -/
theorem properties_are_read_as_written_when_malformed :
    let settings : Settings := { blockLength := 0, keyLengths := ⟨0xffffffff, 1, 0x01020304⟩ }
    let provider := Handle.issuedAfter 1
    let calls : List Call :=
      [.openProvider aesAlgorithm .none, .openProvider aesAlgorithm .none,
        .setProperty provider PropertyName.chainingMode (encodeWide ChainingMode.gcm.text),
        .importKey provider (Bytes.zeros 16), .closeProvider (.issuedAfter 0)]
    let token := (Token.fresh settings).afterCalls calls
    let short : Plan := { property := fun _ => some [0x10, 0, 0] }
    (KeyLengths.decode [1, 2, 3, 4, 5, 6, 7, 8, 9, 10, 11, 12]).encode =
        [1, 2, 3, 4, 5, 6, 7, 8, 9, 10, 11, 12] ∧
      Token.backend.getKeyLengths provider token = (.ok ⟨0xffffffff, 1, 0x01020304⟩, token) ∧
      Token.backend.getWord provider PropertyName.blockLength token = (.ok 0, token) ∧
      (Token.backend.interposed short).getWord provider PropertyName.blockLength ⟨token, []⟩ =
        (.error ⟨"GetProperty", .invalidBufferSize⟩, ⟨token, [.getProperty]⟩) := by
  intro settings provider calls token short
  obtain ⟨-, back, reports, reads⟩ := properties_are_read_as_written
  have reported : token.Reports provider settings :=
    reports settings calls provider (by decide +kernel)
  have words := (reads (Token.backend.interposed short) provider).1 PropertyName.blockLength
  exact ⟨back _ rfl, reported.reads_keyLengths, reported.reads_blockLength,
    words.refuses ⟨token, []⟩ _ ⟨token, [.getProperty]⟩ 3 rfl rfl (by decide)⟩

end CipherModes
