import CipherModes.Proofs.Engine.LeftAlone
import CipherModes.Proofs.Panics.Guarded

/-!
# Which secrets make ciphers

What an engine makes of a secret is decided by the settings of its token and by the length of the
secret: by whether AES is there, by the limits that the token reports and by what the token itself
takes for a key, in this order. It is the same at every time, whatever the engine was asked before.
-/

set_option autoImplicit false

namespace CipherModes

/-! ## Tables of key lengths -/

namespace KeyLengths

variable {lengths : KeyLengths} {bits : Nat}

/-- A length that is reached from the least one in steps, and is not above the greatest. -/
def Reaches (lengths : KeyLengths) (bits : Nat) : Prop :=
  ∃ steps, bits = lengths.min.toNat + steps * lengths.increment.toNat ∧ bits ≤ lengths.max.toNat

theorem reaches_iff :
    lengths.Reaches bits ↔ lengths.min.toNat ≤ bits ∧ bits ≤ lengths.max.toNat ∧
      lengths.increment.toNat ∣ bits - lengths.min.toNat := by
  constructor
  · rintro ⟨steps, rfl, inside⟩
    refine ⟨Nat.le_add_right _ _, inside, ?_⟩
    rw [Nat.add_sub_cancel_left]
    exact Nat.dvd_mul_left _ _
  · rintro ⟨least, inside, steps, above⟩
    refine ⟨steps, ?_, inside⟩
    rw [Nat.mul_comm, ← above, Nat.add_sub_cancel' least]

instance (lengths : KeyLengths) (bits : Nat) : Decidable (lengths.Reaches bits) :=
  decidable_of_iff' _ reaches_iff

/-- A table that names no progression: it ends before it begins, or stands still on the way. -/
def Malformed (lengths : KeyLengths) : Prop :=
  lengths.max < lengths.min ∨ lengths.increment = 0 ∧ lengths.min ≠ lengths.max

instance (lengths : KeyLengths) : Decidable lengths.Malformed :=
  inferInstanceAs (Decidable (_ ∨ _))

theorem malformed_iff : lengths.Malformed ↔ ¬ lengths.WellFormed := by
  rw [WellFormed, not_and_or, UInt32.not_le, Malformed, Classical.not_imp]

end KeyLengths

theorem lengthWord_of_lt {length : Nat} (short : length < 0x100000000) :
    (lengthWord length).toNat = length := by
  have fits : length ≤ 0xffffffff := by omega
  rw [lengthWord, Nat.min_eq_left fits, UInt32.toNat_ofNat', Nat.mod_eq_of_lt short]

theorem keyBits_of_lt {length : Nat} (short : length < 0x20000000) :
    (keyBits length).toNat = 8 * length := by
  rw [keyBits, lengthWord_of_lt (Nat.lt_trans short (by decide)), lengthWord_of_lt (by omega),
    Nat.mul_comm]

namespace AllowedKeyLengths

variable {allowed : AllowedKeyLengths} {bits : UInt32}

theorem allows_iff : allowed.allows bits = true ↔ allowed.lengths.Reaches bits.toNat := by
  rw [KeyLengths.reaches_iff, allows]
  by_cases outside : bits < allowed.lengths.min ∨ allowed.lengths.max < bits
  · rw [if_pos outside]
    rw [UInt32.lt_iff_toNat_lt, UInt32.lt_iff_toNat_lt] at outside
    constructor
    · exact nofun
    · rintro ⟨least, greatest, -⟩
      omega
  · rw [if_neg outside]
    rw [not_or, UInt32.not_lt, UInt32.not_lt] at outside
    obtain ⟨least, greatest⟩ := outside
    by_cases still : allowed.lengths.increment = 0
    · rw [if_pos still, still, UInt32.toNat_zero, Nat.zero_dvd, beq_iff_eq, ← UInt32.toNat_inj]
      rw [UInt32.le_iff_toNat_le] at least greatest
      omega
    · rw [if_neg still, beq_iff_eq, ← UInt32.toNat_inj, UInt32.toNat_mod,
        UInt32.toNat_sub_of_le _ _ least, UInt32.toNat_zero, Nat.dvd_iff_mod_eq_zero]
      rw [UInt32.le_iff_toNat_le] at least greatest
      exact ⟨fun exact => ⟨least, greatest, exact⟩, fun reached => reached.2.2⟩

/-- The check as it is carried out: a difference below zero and a remainder of a division by zero
make it panic. -/
def allowsGuarded (allowed : AllowedKeyLengths) (bits : UInt32) : Except Panic Bool := do
  if bits < allowed.lengths.min ∨ allowed.lengths.max < bits then return false
  else if allowed.lengths.increment = 0 then return bits == allowed.lengths.min
  else
    let above ← Panic.difference bits.toNat allowed.lengths.min.toNat
    let rest ← Panic.remainder above allowed.lengths.increment.toNat
    return rest == 0

theorem allowsGuarded_eq (allowed : AllowedKeyLengths) (bits : UInt32) :
    allowed.allowsGuarded bits = .ok (allowed.allows bits) := by
  rw [allowsGuarded, allows]
  by_cases outside : bits < allowed.lengths.min ∨ allowed.lengths.max < bits
  · rw [if_pos outside, if_pos outside]
    rfl
  · rw [if_neg outside, if_neg outside]
    rw [not_or, UInt32.not_lt] at outside
    by_cases still : allowed.lengths.increment = 0
    · rw [if_pos still, if_pos still]
      rfl
    · have least := UInt32.le_iff_toNat_le.mp outside.1
      have positive : 0 < allowed.lengths.increment.toNat :=
        Nat.pos_of_ne_zero fun none => still (UInt32.toNat_inj.mp none)
      have same : ((bits - allowed.lengths.min) % allowed.lengths.increment == 0) =
          ((bits.toNat - allowed.lengths.min.toNat) % allowed.lengths.increment.toNat == 0) := by
        rw [Bool.eq_iff_iff, beq_iff_eq, beq_iff_eq, ← UInt32.toNat_inj, UInt32.toNat_mod,
          UInt32.toNat_sub_of_le _ _ outside.1, UInt32.toNat_zero]
      rw [if_neg still, if_neg still, Panic.difference_of_le least, same]
      change (Panic.remainder _ _ >>= _) = _
      rw [Panic.remainder_of_pos positive]
      rfl

/-- A key is made of a secret of the right length, if the table allows keys of that length. -/
theorem keyFor_of_short (allowed : AllowedKeyLengths) {secret : Bytes}
    (short : secret.length < 0x20000000) :
    ((allowed.keyFor .ecb secret).map fun _ => ()) =
      if ¬ allowed.lengths.Reaches (8 * secret.length) then
        .error (.invalidKeySize (UInt32.ofNat (8 * secret.length)))
      else if secret.length ∉ [16, 24, 32] then
        .error (.backend ⟨Operation.importKey.name, .invalidParameter⟩)
      else .ok () := by
  have bits := keyBits_of_lt short
  have word : keyBits secret.length = UInt32.ofNat (8 * secret.length) := by
    rw [← bits, UInt32.ofNat_toNat]
  have fits : Token.lengthFits secret = true := decide_eq_true (Nat.lt_trans short (by decide))
  have allows : allowed.allows (keyBits secret.length) = true ↔
      allowed.lengths.Reaches (8 * secret.length) := by rw [allows_iff, bits]
  rw [keyFor, if_pos fits]
  by_cases reached : allowed.lengths.Reaches (8 * secret.length)
  · rw [if_pos (allows.mpr reached), if_neg (not_not_intro reached), KeyMaterial.ofSecret,
      Aes.Schedule.ofSecret?]
    by_cases known : secret.length = 16 ∨ secret.length = 24 ∨ secret.length = 32
    · have listed : secret.length ∈ [16, 24, 32] := by simpa using known
      rw [if_pos known, if_neg (not_not_intro listed)]
      rfl
    · have unlisted : secret.length ∉ [16, 24, 32] := by simpa using known
      rw [if_neg known, if_pos unlisted]
      rfl
  · rw [if_neg (mt allows.mp reached), if_pos reached, word]
    rfl

end AllowedKeyLengths

/-- What making a cipher of a secret of so many bytes comes to under settings: the bits of its key
and the bytes of its blocks, or the first refusal that there is reason for. -/
def Settings.admission (settings : Settings) (length : Nat) : Except CipherError (Nat × Nat) :=
  if settings.disables aesAlgorithm then
    .error (.backend ⟨Operation.openProvider.name, .notFound⟩)
  else if settings.keyLengths.Malformed then .error (.invalidKeyLengths settings.keyLengths)
  else if settings.blockLength = 0 then .error (.invalidBlockSize 0)
  else if ¬ settings.keyLengths.Reaches (8 * length) then
    .error (.invalidKeySize (UInt32.ofNat (8 * length)))
  else if length ∉ [16, 24, 32] then
    .error (.backend ⟨Operation.importKey.name, .invalidParameter⟩)
  else .ok (8 * length, settings.blockLength.toNat)

namespace Settings

variable {settings : Settings}

theorem offer_of_disabled (disabled : settings.disables aesAlgorithm) :
    settings.offer = .error (.backend ⟨Operation.openProvider.name, .notFound⟩) := by
  rw [offer_eq, opening, if_pos disabled]
  rfl

variable (enabled : ¬ settings.disables aesAlgorithm)
include enabled

theorem offer_of_malformed (malformed : settings.keyLengths.Malformed) :
    settings.offer = .error (.invalidKeyLengths settings.keyLengths) := by
  rw [offer_eq, opening, if_neg enabled, limits_eq, AllowedKeyLengths.check,
    dif_neg (KeyLengths.malformed_iff.mp malformed)]
  rfl

variable (wellFormed : settings.keyLengths.WellFormed)
include wellFormed

theorem offer_of_zero (zero : settings.blockLength = 0) :
    settings.offer = .error (.invalidBlockSize 0) := by
  rw [offer_eq, opening, if_neg enabled, limits_eq, AllowedKeyLengths.check, dif_pos wellFormed]
  exact if_pos zero

theorem offer_of_limits (positive : settings.blockLength ≠ 0) :
    settings.offer = .ok (⟨settings.keyLengths, wellFormed⟩, settings.blockLength.toNat) := by
  rw [offer_eq, opening, if_neg enabled, limits_eq, AllowedKeyLengths.check, dif_pos wellFormed]
  exact if_neg positive

omit enabled wellFormed

/-- The provider gives its reasons for a refusal first, and then the key. -/
theorem admission_eq (settings : Settings) {secret : Bytes} (short : secret.length < 0x20000000) :
    settings.admission secret.length = settings.offer >>= fun told =>
      (told.1.keyFor .ecb secret).map fun _ => (8 * secret.length, told.2) := by
  rw [admission]
  by_cases disabled : settings.disables aesAlgorithm
  · rw [if_pos disabled, offer_of_disabled disabled]
    rfl
  rw [if_neg disabled]
  by_cases malformed : settings.keyLengths.Malformed
  · rw [if_pos malformed, offer_of_malformed disabled malformed]
    rfl
  have wellFormed := not_not.mp (mt KeyLengths.malformed_iff.mpr malformed)
  rw [if_neg malformed]
  by_cases zero : settings.blockLength = 0
  · rw [if_pos zero, offer_of_zero disabled wellFormed zero]
    rfl
  rw [if_neg zero, offer_of_limits disabled wellFormed zero]
  let allowed : AllowedKeyLengths := ⟨settings.keyLengths, wellFormed⟩
  have made := congrArg (Except.map fun _ => (8 * secret.length, settings.blockLength.toNat))
    (allowed.keyFor_of_short short)
  rw [Except.map_map] at made
  refine Eq.trans ?_ made.symm
  split
  · rfl
  · split <;> rfl

end Settings

namespace AesCipher

variable {settings : Settings} {state : Driven Token} {engine : EngineId} {secret : Bytes}

theorem create_answer (offering : state.Offering settings) (engine : EngineId)
    (short : secret.length < 0x20000000) :
    ((create Token.backend engine secret state).1.map fun cipher =>
      (cipher.key.bits.toNat, cipher.blockSize)) = settings.admission secret.length := by
  have answer := congrArg (Except.map fun known : UInt32 × Nat => (known.1.toNat, known.2))
    (offering.importKey_answer (show ChainingMode.ecb ≠ .cbc from nofun) secret)
  rw [Except.map_map] at answer
  rw [settings.admission_eq short, create, Action.result_of_map, Except.map_map,
    ← keyBits_of_lt short]
  refine answer.trans ?_
  cases settings.offer with
  | error refusal => rfl
  | ok limits => exact Except.map_map ..

/-- What making a cipher comes to, and that the engine can go on from there. -/
structure DecidedBy (settings : Settings) (engine : EngineId) (secret : Bytes)
    (state : Driven Token) : Prop where
  answer : ((create Token.backend engine secret state).1.map fun cipher =>
    (cipher.key.bits.toNat, cipher.blockSize)) = settings.admission secret.length
  made : ∀ cipher, (create Token.backend engine secret state).1 = .ok cipher →
    cipher.engine = engine ∧ cipher.secret = secret
  stays : Driven.LeftAlone settings (create Token.backend engine secret state).2

/-- Whatever an engine was asked before and whatever came of it, the settings and the length of the
secret decide. The check of that length never panics. -/
theorem creation_is_decided_by_settings (alone : Driven.LeftAlone settings state)
    (engine : EngineId) (short : secret.length < 0x20000000) :
    DecidedBy settings engine secret state ∧
      ∀ (allowed : AllowedKeyLengths) (bits : UInt32),
        allowed.allowsGuarded bits = .ok (allowed.allows bits) := by
  refine ⟨⟨create_answer alone.offering engine short, ?_, ?_⟩, AllowedKeyLengths.allowsGuarded_eq⟩
  · intro cipher made
    obtain ⟨imported, middle, -, finished⟩ := Action.bind_eq_ok (Prod.ext made rfl)
    cases finished
    exact ⟨rfl, rfl⟩
  · exact (Driven.lasting_leftAlone settings).createCipher engine secret alone

/-- Others open a provider, the engine makes one cipher and refuses to make another; then it is
asked for a third. -/
theorem creation_is_decided_by_settings_after_refusal :
    let start := Driven.fresh ((Token.fresh .default).afterCalls [.openProvider aesAlgorithm .none])
    let once := (create Token.backend 0 (Bytes.zeros 16) start).2
    let twice := (create Token.backend 0 (Bytes.zeros 20) once).2
    (create Token.backend 0 (Bytes.zeros 20) once).1 = .error (.invalidKeySize 160) ∧
      twice.cache.size = 1 ∧ Settings.default.admission 24 = .ok (192, 16) ∧
      DecidedBy .default 0 (Bytes.zeros 24) twice := by
  have stays := Driven.lasting_leftAlone .default
  have once := stays.createCipher 0 (Bytes.zeros 16) (.fresh [.openProvider aesAlgorithm .none])
  have twice := stays.createCipher 0 (Bytes.zeros 20) once
  exact ⟨by decide +kernel, by decide +kernel, by decide,
    (creation_is_decided_by_settings twice 0 (by decide)).1⟩

end AesCipher

end CipherModes
