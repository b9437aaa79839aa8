import CipherModes.Token.Lengths

/-!
# What keys answer

A call on a key is decided by what was made of its secret, and it leaves the
token as it was.
-/

set_option autoImplicit false

namespace CipherModes

/-- The material of a key tells its mode and its schedule. -/
theorem KeyMaterial.ofSecret_eq_ok {mode : ChainingMode} {secret : Bytes} {material : KeyMaterial}
    (made : ofSecret mode secret = .ok material) :
    ∃ schedule, Aes.Schedule.ofSecret? secret = some schedule ∧
      (mode = .ecb ∧ material = .blocks schedule ∨ mode = .gcm ∧ material = .sealing schedule) := by
  cases expanded : Aes.Schedule.ofSecret? secret with
  | none =>
      cases mode with
      | cbc => cases made
      | ecb | gcm =>
          simp only [ofSecret, expanded] at made
          cases made
  | some schedule =>
      cases mode with
      | cbc => cases made
      | ecb =>
          simp only [ofSecret, expanded] at made
          cases made
          exact ⟨schedule, rfl, .inl ⟨rfl, rfl⟩⟩
      | gcm =>
          simp only [ofSecret, expanded] at made
          cases made
          exact ⟨schedule, rfl, .inr ⟨rfl, rfl⟩⟩

namespace Token

variable {token : Token} {key : Handle} {schedule : Aes.Schedule}

/-- What was made of the secret of a live key. -/
def material? (token : Token) (key : Handle) : Option KeyMaterial :=
  (token.keys.get? key).map (·.material)

theorem material?_eq_some_iff {material : KeyMaterial} :
    token.material? key = some material ↔
      ∃ provider bits, token.keys.get? key = some ⟨provider, bits, material⟩ := by
  unfold material?
  cases token.keys.get? key with
  | none => exact ⟨nofun, nofun⟩
  | some object =>
      obtain ⟨provider, bits, other⟩ := object
      constructor
      · intro same
        cases same
        exact ⟨provider, bits, rfl⟩
      · rintro ⟨_, _, same⟩
        cases same
        rfl

theorem result_of_fail {call : Call} {status : Status} {next : Token}
    (answered : token.answer call = (.fail status, next)) :
    (backend.answer call token).1.result = .error ⟨call.operation.name, status⟩ := by
  change (token.answer call).1.result = _
  rw [answered]
  rfl

/-! ## Single blocks -/

section

variable {direction : Direction} {input output : Bytes}

theorem cryptBlocks_block (whole : input.length = Aes.blockLength) :
    cryptBlocks schedule .encrypt input = schedule.encrypt input := by
  have one : input.length / Aes.blockLength = 1 := by
    rw [whole]
    rfl
  rw [cryptBlocks, one]
  change schedule.encrypt (input.take Aes.blockLength) ++ [] = schedule.encrypt input
  rw [List.append_nil, List.take_of_length_le (Nat.le_of_eq whole)]

theorem crypt_of_blocks (made : token.material? key = some (.blocks schedule))
    (whole : input.length = Aes.blockLength) (room : output.length = Aes.blockLength) :
    token.crypt .encrypt key input output =
      ({ result := .ok input.length, output := schedule.encrypt input, tagOutput := [] },
        token) := by
  obtain ⟨provider, bits, found⟩ := material?_eq_some_iff.mp made
  have accepted : ¬ (¬ lengthFits input ∨ input.length % Aes.blockLength ≠ 0) := by
    rw [lengthFits, whole]
    decide
  have fits : ¬ output.length < input.length := by
    rw [room, whole]
    exact Nat.lt_irrefl _
  have rest : output.drop (schedule.encrypt input).length = [] :=
    List.drop_eq_nil_of_le (Nat.le_of_eq room)
  simp only [crypt, if_neg accepted, if_neg fits, found, cryptBlocks_block whole, Bytes.overlay,
    rest, List.append_nil]

theorem crypt_of_not_blocks
    (other : ∀ schedule, token.material? key ≠ some (.blocks schedule)) :
    ∃ status, token.crypt direction key input output = (.fail status, token) := by
  unfold crypt
  split
  · exact ⟨_, rfl⟩
  · split
    · exact ⟨_, rfl⟩
    · split
      · exact ⟨_, rfl⟩
      · exact ⟨_, rfl⟩
      · rename_i found
        exact absurd (material?_eq_some_iff.mpr ⟨_, _, found⟩) (other _)

end

/-! ## Whole messages -/

section

variable {nonce aad buffer tag : Bytes}

/-- A call for a whole message is accepted by a sealing key if its buffers are not too long. -/
structure AcceptsMessage (token : Token) (key : Handle) (schedule : Aes.Schedule)
    (nonce aad buffer tag : Bytes) : Prop where
  made : token.material? key = some (.sealing schedule)
  nonceSize : nonce.length = Gcm.standardNonceSize
  tagSize : tag.length = Gcm.standardTagSize
  bufferFits : buffer.length < 0x100000000
  aadFits : aad.length < 0x100000000

theorem AcceptsMessage.checks
    (accepts : AcceptsMessage token key schedule nonce aad buffer tag) :
    ¬ ¬ aeadLengths nonce tag ∧ ¬ (¬ lengthFits buffer ∨ ¬ lengthFits aad) := by
  have bufferFits := accepts.bufferFits
  have aadFits := accepts.aadFits
  simp [aeadLengths, lengthFits, accepts.nonceSize, accepts.tagSize, bufferFits, aadFits]

theorem aeadEncrypt_of_accepts
    (accepts : AcceptsMessage token key schedule nonce aad buffer tag) :
    token.aeadEncrypt key nonce aad buffer tag =
      ({ result := .ok ()
         output := (Gcm.sealDetached schedule.encrypt nonce aad buffer).1
         tagOutput := (Gcm.sealDetached schedule.encrypt nonce aad buffer).2 }, token) := by
  obtain ⟨provider, bits, found⟩ := material?_eq_some_iff.mp accepts.made
  simp only [aeadEncrypt, if_neg accepts.checks.1, if_neg accepts.checks.2, found]

theorem aeadDecrypt_of_match {plaintext : Bytes}
    (accepts : AcceptsMessage token key schedule nonce aad buffer tag)
    (opened : Gcm.openDetached? schedule.encrypt nonce aad buffer tag = some plaintext) :
    token.aeadDecrypt key nonce aad buffer tag =
      ({ result := .ok (), output := plaintext, tagOutput := [] }, token) := by
  obtain ⟨provider, bits, found⟩ := material?_eq_some_iff.mp accepts.made
  simp only [aeadDecrypt, if_neg accepts.checks.1, if_neg accepts.checks.2, found, opened]

theorem aeadDecrypt_of_mismatch
    (accepts : AcceptsMessage token key schedule nonce aad buffer tag)
    (rejected : Gcm.openDetached? schedule.encrypt nonce aad buffer tag = none) :
    token.aeadDecrypt key nonce aad buffer tag = (.fail .authTagMismatch, token) := by
  obtain ⟨provider, bits, found⟩ := material?_eq_some_iff.mp accepts.made
  simp only [aeadDecrypt, if_neg accepts.checks.1, if_neg accepts.checks.2, found, rejected]

/-- The associated data is too long, or the key is none for whole messages. -/
def RefusesMessages (token : Token) (key : Handle) (aad : Bytes) : Prop :=
  ¬ aad.length < 0x100000000 ∨ ∀ schedule, token.material? key ≠ some (.sealing schedule)

theorem RefusesMessages.of_same {other : Token} (refuses : token.RefusesMessages key aad)
    (same : token.material? key = other.material? key) : other.RefusesMessages key aad := by
  rw [RefusesMessages] at refuses ⊢
  rwa [← same]

theorem refuses_or_seals (token : Token) (key : Handle) (aad : Bytes) :
    token.RefusesMessages key aad ∨
      aad.length < 0x100000000 ∧ ∃ schedule, token.material? key = some (.sealing schedule) := by
  by_cases aadFits : aad.length < 0x100000000
  · by_cases sealingKey : ∃ schedule, token.material? key = some (.sealing schedule)
    · exact .inr ⟨aadFits, sealingKey⟩
    · exact .inl (.inr fun schedule made => sealingKey ⟨schedule, made⟩)
  · exact .inl (.inl aadFits)

theorem aeadEncrypt_of_refuses (refuses : token.RefusesMessages key aad) :
    ∃ status, token.aeadEncrypt key nonce aad buffer tag = (.fail status, token) := by
  unfold aeadEncrypt
  split
  · exact ⟨_, rfl⟩
  · split
    · exact ⟨_, rfl⟩
    · rename_i fits
      split
      · exact ⟨_, rfl⟩
      · exact ⟨_, rfl⟩
      · rename_i found
        rcases refuses with long | other
        · simp [lengthFits, long] at fits
        · exact absurd (material?_eq_some_iff.mpr ⟨_, _, found⟩) (other _)

theorem aeadDecrypt_of_refuses (refuses : token.RefusesMessages key aad) :
    ∃ status, token.aeadDecrypt key nonce aad buffer tag = (.fail status, token) := by
  unfold aeadDecrypt
  split
  · exact ⟨_, rfl⟩
  · split
    · exact ⟨_, rfl⟩
    · rename_i fits
      split
      · exact ⟨_, rfl⟩
      · exact ⟨_, rfl⟩
      · rename_i found
        rcases refuses with long | other
        · simp [lengthFits, long] at fits
        · exact absurd (material?_eq_some_iff.mpr ⟨_, _, found⟩) (other _)

end

end Token

end CipherModes
