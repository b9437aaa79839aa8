import CipherModes.Proofs.Cache.Ending
import CipherModes.Proofs.Engine.Coherence
import CipherModes.Proofs.Establishing
import CipherModes.Proofs.Gcm.Keyed
import CipherModes.Proofs.Token.Blocks
import CipherModes.Proofs.Token.Properties

/-!
# The block length that a token reports

A cipher takes its block size from what the token reports, and the token is free
to report any length. Its keys work in blocks of sixteen bytes all the same: a
cipher works if the reported length is a multiple of that, and refuses every
block if it is not.
-/

set_option autoImplicit false

namespace CipherModes

/-! ## Reading what is reported -/

namespace Provider

variable {provider : Provider} {token : Token}

theorem getWord_blockLength {mode : ChainingMode}
    (present : token.providers.get? provider.raw = some mode) :
    provider.getWord Token.backend PropertyName.blockLength token =
      (.ok token.settings.blockLength, token) := by
  simp only [getWord, Action.ofCall, Token.getWord_of_provider present]
  rfl

theorem getKeyLengths_keyLengths {mode : ChainingMode}
    (present : token.providers.get? provider.raw = some mode) :
    provider.getKeyLengths Token.backend token = (.ok token.settings.keyLengths, token) := by
  simp only [getKeyLengths, Action.ofCall, Token.getKeyLengths_of_provider present]
  rfl

theorem setText_settings (provider : Provider) (name text : String) (token : Token) :
    (provider.setText Token.backend name text token).2.settings = token.settings :=
  token.settings_answer (.setProperty provider.raw name (encodeWide text))

theorem acquire_settings (algorithm : String) (flags : ProviderFlags) (token : Token) :
    (acquire Token.backend algorithm flags token).2.settings = token.settings := by
  have kept := token.settings_answer (.openProvider algorithm flags)
  simp only [acquire]
  split
  · exact kept
  · exact kept

theorem release_settings (provider : Provider) (token : Token) :
    (provider.release Token.backend token).2.settings = token.settings :=
  token.settings_answer (.closeProvider provider.raw)

end Provider

theorem AesAlgorithm.initialise_reports (mode : ChainingMode) (provider : Provider)
    (settings : Settings) :
    (initialise Token.backend mode provider).Establishes (·.settings = settings)
      (fun algorithm token =>
        token.settings = settings ∧ algorithm.blockSize = settings.blockLength.toNat)
      (·.settings = settings) := by
  -- Between setting the mode and reading the block length, the provider is open.
  let opened (token : Token) : Prop :=
    token.settings = settings ∧ token.providers.get? provider.raw = some mode
  apply Action.Establishes.bind fun _ => opened
  case first =>
    intro token same
    have kept := provider.setText_settings PropertyName.chainingMode mode.text token
    cases set : provider.setText Token.backend PropertyName.chainingMode mode.text token with
    | mk result next =>
        rw [set] at kept
        cases result with
        | error error => exact kept.trans same
        | ok _ => exact ⟨kept.trans same, provider.mode_of_setText set⟩
  intro _
  apply Action.Establishes.bind fun _ => opened
  case first =>
    intro token ready
    have unchanged := provider.getKeyLengths_unchanged token
    cases read : provider.getKeyLengths Token.backend token with
    | mk result next =>
        rw [read] at unchanged
        cases unchanged
        cases result with
        | error error => exact ready.1
        | ok lengths => exact ready
  intro lengths
  apply Action.Establishes.bind fun _ => opened
  case first =>
    intro token ready
    cases checked : AllowedKeyLengths.check lengths with
    | error error => exact ready.1
    | ok allowed => exact ready
  intro allowed
  apply Action.Establishes.bind fun word token =>
    token.settings = settings ∧ word = settings.blockLength
  case first =>
    intro token ready
    rw [Provider.getWord_blockLength ready.2]
    exact ⟨ready.1, congrArg _ ready.1⟩
  intro word
  split
  · exact .throw fun _ reported => reported.1
  · exact .pure fun _ reported => ⟨reported.1, congrArg UInt32.toNat reported.2⟩

/-! ## Engines -/

namespace Driven

theorem algorithm_ending {σ : Type} (backend : Backend σ) (mode : ChainingMode)
    (state : Driven σ) :
    ProviderCache.Ending backend AesAlgorithm.provider (cacheKey mode)
      (fun _ provider => Caching.tryBackend (AesAlgorithm.initialise backend mode provider)) state
      (algorithm backend mode state) :=
  ProviderCache.acquire_ending ..

variable {state next : Driven Token} {settings : Settings}

/-- Every cached provider has the block length of the settings. -/
structure Reports (settings : Settings) (state : Driven Token) : Prop where
  settings_eq : state.backend.settings = settings
  cached : ∀ entry ∈ state.cache.entries, entry.2.blockSize = settings.blockLength.toNat

theorem algorithm_reports (mode : ChainingMode) (settings : Settings) :
    (algorithm Token.backend mode).Establishes (Reports settings)
      (fun algorithm next =>
        Reports settings next ∧ algorithm.blockSize = settings.blockLength.toNat)
      (Reports settings) := by
  intro state reports
  have opened := (Provider.acquire_settings (cacheKey mode).algorithm (cacheKey mode).flags
    state.backend).trans reports.settings_eq
  have initialised := fun provider => AesAlgorithm.initialise_reports mode provider settings
  have ending := algorithm_ending Token.backend mode state
  generalize algorithm Token.backend mode state = outcome at ending ⊢
  cases ending with
  | hit found => exact ⟨reports, reports.cached _ (ProviderCache.mem_of_find? found)⟩
  | unopened missing refused =>
      rw [refused] at opened
      exact ⟨opened, reports.cached⟩
  | @failed error provider _ last missing acquired ran =>
      rw [acquired] at opened
      obtain ⟨ran, kept⟩ := Caching.of_tryBackend ran
      have same := (initialised provider).error_of_eq opened ran
      exact ⟨(provider.release_settings last.backend).trans same, kept ▸ reports.cached⟩
  | @won provider candidate _ last missing acquired ran first =>
      rw [acquired] at opened
      obtain ⟨ran, kept⟩ := Caching.of_tryBackend ran
      obtain ⟨same, size⟩ := (initialised provider).ok_of_eq opened ran
      refine ⟨⟨same, ?_⟩, size⟩
      rw [ProviderCache.insert, kept, List.forall_mem_append, List.forall_mem_singleton]
      exact ⟨reports.cached, size⟩
  | lost missing acquired ran late =>
      -- The initialiser of an engine does not use the cache, so no other value can be there.
      obtain ⟨-, kept⟩ := Caching.of_tryBackend ran
      rw [kept] at late
      exact absurd (late.symm.trans missing) nofun

theorem Reached.reports (reached : Reached state) : Reports state.backend.settings state := by
  induction reached with
  | fresh settings calls => exact ⟨rfl, fun _ member => nomatch member⟩
  | @asked state mode _ ih =>
      have asked := algorithm_reports mode state.backend.settings state ih
      have still : Reports state.backend.settings (algorithm Token.backend mode state).2 := by
        cases ran : algorithm Token.backend mode state with
        | mk result next =>
            rw [ran] at asked
            cases result with
            | error error => exact asked
            | ok found => exact asked.1
      rwa [← still.settings_eq] at still
  | @called state call _ alone ih =>
      have same := state.backend.settings_answer call
      exact ⟨rfl, same.symm ▸ ih.cached⟩

theorem blockSize_of_create (reports : Reports settings state) {engine : EngineId} {secret : Bytes}
    {cipher : AesCipher}
    (made : AesCipher.create Token.backend engine secret state = (.ok cipher, next)) :
    cipher.blockSize = settings.blockLength.toNat := by
  obtain ⟨⟨key, length⟩, middle, imported, finished⟩ := Action.bind_eq_ok made
  obtain ⟨algorithm, asked, found, imported⟩ := Action.bind_eq_ok imported
  obtain ⟨-, size⟩ := (algorithm_reports .ecb _).ok_of_eq reports found
  obtain ⟨imported, last, -, same⟩ := Action.bind_eq_ok imported
  cases same
  cases finished
  exact size

end Driven

/-! ## Blocks -/

namespace AesCipher

variable {cipher : AesCipher} {schedule : Aes.Schedule} {token : Token} {direction : Direction}
  {source destination : Bytes}

/-- Both directions succeed on whatever holds a block, write the front of the destination alone,
and undo each other. -/
structure TransformsBlocks (cipher : AesCipher) (token : Token) : Prop where
  succeeds : ∀ direction source destination,
    cipher.blockSize ≤ source.length → cipher.blockSize ≤ destination.length →
      ∃ block, block.length = cipher.blockSize ∧
        cipher.cryptBlock Token.backend direction source destination token =
          ((.ok (), block ++ destination.drop cipher.blockSize), token)
  inverts : ∀ source destination other,
    cipher.blockSize ≤ source.length → cipher.blockSize ≤ destination.length →
    cipher.blockSize ≤ other.length →
      (cipher.cryptBlock Token.backend .decrypt
        (cipher.cryptBlock Token.backend .encrypt source destination token).1.2 other token).1.2 =
        source.take cipher.blockSize ++ other.drop cipher.blockSize

/-- Both directions fail on whatever holds a block, and write nothing. -/
def RefusesBlocks (cipher : AesCipher) (token : Token) : Prop :=
  ∀ direction source destination,
    cipher.blockSize ≤ source.length → cipher.blockSize ≤ destination.length →
      cipher.cryptBlock Token.backend direction source destination token =
        ((.error (.error (.backend
          ⟨(Call.crypt direction cipher.key.raw source destination).operation.name,
            .invalidBufferSize⟩)), destination), token)

theorem cryptBlock_of_room (reads : cipher.blockSize ≤ source.length)
    (writes : cipher.blockSize ≤ destination.length) :
    cipher.cryptBlock Token.backend direction source destination token =
      let (result, output) :=
        ((cipher.blockCipher Token.backend).transform direction source destination token).1
      ((result.mapError .error, output),
        ((cipher.blockCipher Token.backend).transform direction source destination token).2) := by
  rw [cryptBlock, if_neg (Nat.not_lt_of_le reads), if_neg (Nat.not_lt_of_le writes)]
  rfl

theorem transform_of_whole (made : token.material? cipher.key.raw = some (.blocks schedule))
    (small : cipher.blockSize < 0x100000000) (whole : cipher.blockSize % Aes.blockLength = 0)
    (reads : cipher.blockSize ≤ source.length) (writes : cipher.blockSize ≤ destination.length) :
    (cipher.blockCipher Token.backend).transform direction source destination token =
      ((.ok (), Token.cryptBlocks schedule direction (source.take cipher.blockSize) ++
        destination.drop cipher.blockSize), token) := by
  have input : (source.take cipher.blockSize).length = cipher.blockSize :=
    List.length_take_of_le reads
  have output : (destination.take cipher.blockSize).length = cipher.blockSize :=
    List.length_take_of_le writes
  have written : (Token.cryptBlocks schedule direction (source.take cipher.blockSize)).length =
      cipher.blockSize := (Token.length_cryptBlocks (input.symm ▸ whole)).trans input
  have nothing : (destination.take cipher.blockSize).drop cipher.blockSize = [] :=
    List.drop_eq_nil_of_le (Nat.le_of_eq output)
  have answered : token.crypt direction cipher.key.raw (source.take cipher.blockSize)
      (destination.take cipher.blockSize) = _ :=
    Token.crypt_of_whole made (input.symm ▸ small) (input.symm ▸ whole)
      (Nat.le_of_eq (input.trans output.symm))
  rw [Bytes.overlay, written, input, nothing, List.append_nil] at answered
  simp only [blockCipher, Token.backend, Token.answer, answered]
  rfl

theorem cryptBlock_of_whole (made : token.material? cipher.key.raw = some (.blocks schedule))
    (small : cipher.blockSize < 0x100000000) (whole : cipher.blockSize % Aes.blockLength = 0)
    (reads : cipher.blockSize ≤ source.length) (writes : cipher.blockSize ≤ destination.length) :
    cipher.cryptBlock Token.backend direction source destination token =
      ((.ok (), Token.cryptBlocks schedule direction (source.take cipher.blockSize) ++
        destination.drop cipher.blockSize), token) := by
  rw [cryptBlock_of_room reads writes, transform_of_whole made small whole reads writes]
  rfl

theorem transformsBlocks (made : token.material? cipher.key.raw = some (.blocks schedule))
    (small : cipher.blockSize < 0x100000000) (whole : cipher.blockSize % Aes.blockLength = 0) :
    cipher.TransformsBlocks token := by
  have produced (direction : Direction) {source : Bytes}
      (reads : cipher.blockSize ≤ source.length) :
      (Token.cryptBlocks schedule direction (source.take cipher.blockSize)).length =
        cipher.blockSize := by
    have input := List.length_take_of_le reads
    exact (Token.length_cryptBlocks (input.symm ▸ whole)).trans input
  constructor
  case succeeds =>
    intro direction source destination reads writes
    exact ⟨_, produced direction reads, cryptBlock_of_whole made small whole reads writes⟩
  case inverts =>
    intro source destination other reads writes receives
    have block := produced .encrypt reads
    rw [cryptBlock_of_whole made small whole reads writes, cryptBlock_of_whole made small whole
      (by rw [List.length_append, block]; exact Nat.le_add_right _ _) receives,
      List.take_left' block, Token.decryptBlocks_encryptBlocks]
    rw [List.length_take_of_le reads]
    exact whole

theorem refusesBlocks (partialBlock : cipher.blockSize % Aes.blockLength ≠ 0) :
    cipher.RefusesBlocks token := by
  intro direction source destination reads writes
  have input : (source.take cipher.blockSize).length = cipher.blockSize :=
    List.length_take_of_le reads
  have answered : token.crypt direction cipher.key.raw (source.take cipher.blockSize)
      (destination.take cipher.blockSize) = (.fail .invalidBufferSize, token) :=
    Token.crypt_of_partial (input.symm ▸ partialBlock)
  have untouched : destination.take cipher.blockSize ++ destination.drop cipher.blockSize =
      destination := List.take_append_drop _ _
  rw [cryptBlock_of_room reads writes]
  simp only [blockCipher, Token.backend, Token.answer, answered]
  cases direction <;> exact congrArg (fun output => ((_, output), token)) untouched

/-- A cipher made through any engine transforms blocks as long as its key lives if the reported
length is a whole number of AES blocks, and never otherwise. -/
theorem transforms_whole_multiples {state next : Driven Token} (reached : Driven.Reached state)
    (remain : state.backend.handlesIssued < Handle.limit) {engine : EngineId} {secret : Bytes}
    (made : create Token.backend engine secret state = (.ok cipher, next))
    (lives : token.material? cipher.key.raw = next.backend.material? cipher.key.raw) :
    (state.backend.settings.blockLength.toNat % Aes.blockLength = 0 →
      cipher.TransformsBlocks token) ∧
    (state.backend.settings.blockLength.toNat % Aes.blockLength ≠ 0 →
      cipher.RefusesBlocks token) := by
  obtain ⟨schedule, -, keyed⟩ := Gcm.material?_of_cipher (reached.coherent remain) made
  have size := Driven.blockSize_of_create reached.reports made
  constructor
  · intro whole
    have small := state.backend.settings.blockLength.toNat_lt
    exact transformsBlocks (lives.trans keyed) (size.symm ▸ small) (size.symm ▸ whole)
  · intro partialBlock
    exact refusesBlocks (size.symm ▸ partialBlock)

/-- A block of two AES blocks. -/
theorem transforms_whole_multiples_of_two :
    ∃ cipher next, create Token.backend 0 (Bytes.zeros 16)
        (.fresh (.fresh { blockLength := 32 })) = (.ok cipher, next) ∧
      cipher.blockSize = 32 ∧ cipher.TransformsBlocks next.backend := by
  obtain ⟨cipher, made, size⟩ : ∃ cipher, (create Token.backend 0 (Bytes.zeros 16)
      (.fresh (.fresh { blockLength := 32 }))).1 = .ok cipher ∧ cipher.blockSize = 32 :=
    ⟨_, rfl, rfl⟩
  refine ⟨cipher, _, Prod.ext made rfl, size, ?_⟩
  exact (transforms_whole_multiples (.fresh { blockLength := 32 } []) (by decide)
    (Prod.ext made rfl) rfl).1 (by decide)

/-- A token accepts settings under which every block that its ciphers ask for is refused. -/
theorem refuses_blocks_of_accepted_settings :
    ∃ token cipher next, Token.checked { blockLength := 24 } = .ok token ∧
      create Token.backend 0 (Bytes.zeros 16) (.fresh token) = (.ok cipher, next) ∧
      cipher.cryptBlock Token.backend .encrypt (Bytes.zeros 24) (Bytes.zeros 24) next.backend =
        ((.error (.error (.backend ⟨"Encrypt", .invalidBufferSize⟩)), Bytes.zeros 24),
          next.backend) :=
  ⟨_, _, _, rfl, rfl, rfl⟩

end AesCipher

end CipherModes
