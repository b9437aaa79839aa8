import CipherModes.Proofs.Bytes.Numbers
import CipherModes.Proofs.Gcm.Destination

/-!
# The order of nonces

A GCM with ordered nonces is used any number of times, by seals that succeed,
fail or are refused and by opens in between, while its backend may be used by
others. Its history records the nonces sealed under: they grow as numbers, so
none is used twice, and the least nonce to come is the one after the greatest.
-/

set_option autoImplicit false

namespace CipherModes.Gcm.Ordered

variable {σ : Type} {backend : Backend σ} {gcm : Gcm} {ordered : Ordered} {state : σ}
  {destination nonce plaintext aad : Bytes}

/-- One use of a GCM, or of its backend by others in the meantime. -/
inductive Use (σ : Type)
  | sealing (destination nonce plaintext aad : Bytes)
  | opening (destination nonce sealedText aad : Bytes)
  | elsewhere (change : σ → σ)

/-- What a GCM has become, with the nonces of its successful seals, the oldest first. -/
structure History (σ : Type) where
  ordered : Ordered
  state : σ
  sealedNonces : List Bytes := []

namespace History

/-- Carries out one use. -/
def use (backend : Backend σ) (history : History σ) : Use σ → History σ
  | .sealing destination nonce plaintext aad =>
      match history.ordered.sealInto backend destination nonce plaintext aad history.state with
      | ((.ok _, _, ordered), state) =>
          { ordered, state, sealedNonces := history.sealedNonces ++ [nonce] }
      | ((.error _, _, ordered), state) => { history with ordered, state }
  | .opening destination nonce sealedText aad =>
      { history with
        state := (history.ordered.openInto backend destination nonce sealedText aad
          history.state).2 }
  | .elsewhere change => { history with state := change history.state }

/-- Carries out uses in their order. -/
def run (backend : Backend σ) (history : History σ) (uses : List (Use σ)) : History σ :=
  uses.foldl (use backend) history

/-- A nonce of the right length that does not exhaust the counter and is greater than every
nonce sealed under before. -/
def Admits (history : History σ) (nonce : Bytes) : Prop :=
  nonce.length = standardNonceSize ∧ nonce.drop 4 ≠ List.replicate 8 0xff ∧
    ∀ earlier ∈ history.sealedNonces, Bytes.ofBigEndian earlier < Bytes.ofBigEndian nonce

end History

/-! ## The numbers of nonces -/

private theorem counter_remains_iff (standard : nonce.length = standardNonceSize) :
    Bytes.ofBigEndian (nonce.drop 4) ≠ 0xffffffffffffffff ↔
      nonce.drop 4 ≠ List.replicate 8 0xff := by
  have length : (nonce.drop 4).length = 8 := by
    rw [List.length_drop, standard]
    rfl
  have greatest := Bytes.ofBigEndian_greatest_iff (nonce.drop 4)
  have capacity : Bytes.capacity 8 = 0xffffffffffffffff + 1 := by decide
  rw [length, capacity, Nat.succ_inj] at greatest
  exact not_congr greatest

/-- The number after a nonce whose counter remains is still one of twelve bytes. -/
private theorem number_succ_le (standard : nonce.length = standardNonceSize)
    (remains : nonce.drop 4 ≠ List.replicate 8 0xff) :
    Bytes.ofBigEndian nonce + 1 ≤ 0xffffffffffffffffffffffff := by
  have length : nonce.length = 12 := standard
  have bounded := Bytes.ofBigEndian_lt nonce
  have greatest := Bytes.ofBigEndian_greatest_iff nonce
  have capacity : Bytes.capacity 12 = 0xffffffffffffffffffffffff + 1 := by decide
  rw [length, capacity] at bounded greatest
  have below : Bytes.ofBigEndian nonce ≠ 0xffffffffffffffffffffffff := by
    intro same
    apply remains
    rw [greatest.mp (congrArg (· + 1) same)]
    rfl
  omega

theorem nonceNumber_isOk_iff :
    (∃ number, ordered.nonceNumber nonce = .ok number) ↔
      nonce.length = standardNonceSize ∧ nonce.drop 4 ≠ List.replicate 8 0xff ∧
        ordered.minNext ≤ Bytes.ofBigEndian nonce := by
  constructor
  · rintro ⟨number, passed⟩
    obtain ⟨⟨standard, remains, large⟩, -⟩ := nonceNumber_eq_ok_iff.mp passed
    exact ⟨standard, (counter_remains_iff standard).mp remains, large⟩
  · rintro ⟨standard, remains, large⟩
    exact ⟨_, nonceNumber_eq_ok_iff.mpr
      ⟨⟨standard, (counter_remains_iff standard).mpr remains, large⟩, rfl⟩⟩

/-! ## One seal -/

/-- A seal leaves the GCM as it was, or it succeeded under a nonce that passed the checks. -/
inductive SealEffect (ordered : Ordered) (nonce : Bytes) :
    (Except Fault Unit × Bytes × Ordered) × σ → Prop where
  | failed (fault : Fault) (output : Bytes) (state : σ) :
      SealEffect ordered nonce ((.error fault, output, ordered), state)
  | succeeded {number : Nat} (passed : ordered.nonceNumber nonce = .ok number) (output : Bytes)
      (state : σ) :
      SealEffect ordered nonce ((.ok (), output, { ordered with minNext := number + 1 }), state)

theorem sealInto_effect (backend : Backend σ) (ordered : Ordered)
    (destination nonce plaintext aad : Bytes) (state : σ) :
    SealEffect ordered nonce
      (ordered.sealInto backend destination nonce plaintext aad state) := by
  cases checked : ordered.nonceNumber nonce with
  | error precondition =>
      rw [sealInto_of_refused checked]
      exact .failed ..
  | ok number =>
      cases called : ordered.gcm.sealInto backend destination nonce plaintext aad state with
      | mk reply next =>
          obtain ⟨result, output⟩ := reply
          cases result with
          | error fault =>
              rw [sealInto_of_fault checked called]
              exact .failed ..
          | ok _ =>
              rw [sealInto_of_ok checked called]
              exact .succeeded checked ..

/-- A refusal for the sake of the nonce comes from the checks alone: sealing under a nonce that
passed them fails for other causes. -/
theorem sealInto_refuses_iff (nonces : ordered.gcm.nonceSize = standardNonceSize)
    (tags : ordered.gcm.tagSize = standardTagSize) :
    (∃ precondition : Precondition, precondition.ConcernsNonce ∧
      (ordered.sealInto backend destination nonce plaintext aad state).1.1 =
        .error (.broken precondition)) ↔
      ¬ ∃ number, ordered.nonceNumber nonce = .ok number := by
  cases checked : ordered.nonceNumber nonce with
  | error precondition =>
      rw [sealInto_of_refused checked]
      have concerned := concernsNonce_of_nonceNumber checked
      exact ⟨fun _ => nofun, fun _ => ⟨precondition, concerned, rfl⟩⟩
  | ok number =>
      refine ⟨?_, fun refused => absurd ⟨number, rfl⟩ refused⟩
      rintro ⟨precondition, concerned, failed⟩
      have standard := (nonceNumber_eq_ok_iff.mp checked).1.1
      have appends : Appends SealFault _ destination
          (ordered.gcm.sealInto backend destination nonce plaintext aad state).1 :=
        Gcm.sealInto_appends (Nat.le_of_eq tags) (standard.trans nonces.symm) plaintext
      cases called : ordered.gcm.sealInto backend destination nonce plaintext aad state with
      | mk reply next =>
          obtain ⟨result, output⟩ := reply
          rw [called] at appends
          cases result with
          | error fault =>
              rw [sealInto_of_fault checked called] at failed
              cases failed
              rcases appends.expected_of_error rfl with fits | ⟨error, other⟩
              · cases fits
                exact concerned.elim
              · cases other
          | ok _ =>
              rw [sealInto_of_ok checked called] at failed
              cases failed

/-! ## The invariant -/

/-- What every use preserves: the nonces sealed under passed the checks in their turn, and the
bound lies just above the greatest of them. -/
structure Invariant (ordered : Ordered) (sealedNonces : List Bytes) : Prop where
  nonces : ordered.gcm.nonceSize = standardNonceSize
  tags : ordered.gcm.tagSize = standardTagSize
  standard : ∀ nonce ∈ sealedNonces, nonce.length = standardNonceSize
  remains : ∀ nonce ∈ sealedNonces, nonce.drop 4 ≠ List.replicate 8 0xff
  increasing : sealedNonces.Pairwise (Bytes.ofBigEndian · < Bytes.ofBigEndian ·)
  below : ∀ nonce ∈ sealedNonces, Bytes.ofBigEndian nonce < ordered.minNext
  attained : sealedNonces = [] ∧ ordered.minNext = 0 ∨
    ∃ nonce ∈ sealedNonces, ordered.minNext = Bytes.ofBigEndian nonce + 1

theorem invariant_of_ofGcm (accepted : ofGcm gcm = .ok ordered) : ordered.Invariant [] := by
  obtain ⟨nonces, tags, rfl⟩ := ofGcm_eq_ok_iff.mp accepted
  constructor
  case nonces => exact nonces
  case tags => exact tags
  case increasing => exact .nil
  case attained => exact .inl ⟨rfl, rfl⟩
  all_goals exact fun _ member => nomatch member

namespace Invariant

variable {sealedNonces : List Bytes} {number : Nat}

/-- A successful seal puts its nonce after all others. -/
theorem snoc (invariant : ordered.Invariant sealedNonces)
    (passed : ordered.nonceNumber nonce = .ok number) :
    Invariant { ordered with minNext := number + 1 } (sealedNonces ++ [nonce]) := by
  obtain ⟨⟨standard, remains, large⟩, rfl⟩ := nonceNumber_eq_ok_iff.mp passed
  have greater : ∀ earlier ∈ sealedNonces, Bytes.ofBigEndian earlier < Bytes.ofBigEndian nonce :=
    fun earlier member => Nat.lt_of_lt_of_le (invariant.below earlier member) large
  constructor
  case nonces => exact invariant.nonces
  case tags => exact invariant.tags
  case standard =>
    rw [List.forall_mem_append, List.forall_mem_singleton]
    exact ⟨invariant.standard, standard⟩
  case remains =>
    rw [List.forall_mem_append, List.forall_mem_singleton]
    exact ⟨invariant.remains, (counter_remains_iff standard).mp remains⟩
  case increasing =>
    rw [List.pairwise_append]
    refine ⟨invariant.increasing, List.pairwise_singleton _ _, ?_⟩
    intro earlier member last same
    rw [List.mem_singleton.mp same]
    exact greater earlier member
  case below =>
    rw [List.forall_mem_append, List.forall_mem_singleton]
    exact ⟨fun earlier member => Nat.lt_succ_of_lt (greater earlier member), Nat.lt_succ_self _⟩
  case attained => exact .inr ⟨nonce, List.mem_append_right _ (List.mem_singleton_self _), rfl⟩

theorem use {history : History σ} (invariant : history.ordered.Invariant history.sealedNonces)
    (use : Use σ) :
    (history.use backend use).ordered.Invariant (history.use backend use).sealedNonces := by
  cases use with
  | sealing destination nonce plaintext aad =>
      have effect := sealInto_effect backend history.ordered destination nonce plaintext aad
        history.state
      simp only [History.use]
      generalize history.ordered.sealInto backend destination nonce plaintext aad
        history.state = outcome at effect ⊢
      cases effect with
      | failed => exact invariant
      | succeeded passed => exact invariant.snoc passed
  | opening destination nonce sealedText aad => exact invariant
  | elsewhere change => exact invariant

theorem run (backend : Backend σ) {history : History σ}
    (invariant : history.ordered.Invariant history.sealedNonces) (uses : List (Use σ)) :
    (history.run backend uses).ordered.Invariant (history.run backend uses).sealedNonces := by
  induction uses generalizing history with
  | nil => exact invariant
  | cons use rest ih => exact ih (invariant.use use)

theorem minNext_eq (invariant : ordered.Invariant sealedNonces) :
    ordered.minNext =
      match (sealedNonces.map Bytes.ofBigEndian).max? with
      | none => 0
      | some greatest => greatest + 1 := by
  rcases invariant.attained with ⟨empty, start⟩ | ⟨nonce, member, next⟩
  · rw [empty, start]
    rfl
  · have greatest : (sealedNonces.map Bytes.ofBigEndian).max? =
        some (Bytes.ofBigEndian nonce) := by
      rw [List.max?_eq_some_iff]
      refine ⟨List.mem_map_of_mem member, ?_⟩
      rw [List.forall_mem_map]
      intro other earlier
      have bounded := invariant.below other earlier
      omega
    rw [greatest, next]

theorem minNext_le (invariant : ordered.Invariant sealedNonces) :
    ordered.minNext ≤ 0xffffffffffffffffffffffff := by
  rcases invariant.attained with ⟨-, start⟩ | ⟨nonce, member, next⟩
  · rw [start]
    exact Nat.zero_le _
  · rw [next]
    exact number_succ_le (invariant.standard nonce member) (invariant.remains nonce member)

/-- Being at least the bound is being greater than every nonce sealed under. -/
theorem minNext_le_iff (invariant : ordered.Invariant sealedNonces) (value : Nat) :
    ordered.minNext ≤ value ↔ ∀ earlier ∈ sealedNonces, Bytes.ofBigEndian earlier < value := by
  constructor
  · intro large earlier member
    exact Nat.lt_of_lt_of_le (invariant.below earlier member) large
  · intro greater
    rcases invariant.attained with ⟨-, start⟩ | ⟨nonce, member, next⟩
    · rw [start]
      exact Nat.zero_le _
    · rw [next]
      exact greater nonce member

theorem passes_iff (invariant : ordered.Invariant sealedNonces) (nonce : Bytes) :
    (∃ number, ordered.nonceNumber nonce = .ok number) ↔
      nonce.length = standardNonceSize ∧ nonce.drop 4 ≠ List.replicate 8 0xff ∧
        ∀ earlier ∈ sealedNonces, Bytes.ofBigEndian earlier < Bytes.ofBigEndian nonce := by
  rw [nonceNumber_isOk_iff, invariant.minNext_le_iff]

end Invariant

/-! ## Every history -/

/-- The order that a history keeps, and what its next use can do to it. -/
structure History.Orderly (backend : Backend σ) (history : History σ) : Prop where
  standard : ∀ nonce ∈ history.sealedNonces, nonce.length = standardNonceSize
  increasing : (history.sealedNonces.map Bytes.ofBigEndian).Pairwise (· < ·)
  distinct : history.sealedNonces.Nodup
  minNext_eq : history.ordered.minNext =
    match (history.sealedNonces.map Bytes.ofBigEndian).max? with
    | none => 0
    | some greatest => greatest + 1
  minNext_le : history.ordered.minNext ≤ 0xffffffffffffffffffffffff
  passes_iff : ∀ nonce,
    (∃ number, history.ordered.nonceNumber nonce = .ok number) ↔ history.Admits nonce
  refuses_iff : ∀ destination nonce plaintext aad,
    (∃ precondition : Precondition, precondition.ConcernsNonce ∧
      (history.ordered.sealInto backend destination nonce plaintext aad history.state).1.1 =
        .error (.broken precondition)) ↔ ¬ history.Admits nonce
  failure_keeps : ∀ destination nonce plaintext aad fault,
    (history.ordered.sealInto backend destination nonce plaintext aad history.state).1.1 =
        .error fault →
      (history.use backend (.sealing destination nonce plaintext aad)).ordered = history.ordered
  opening_keeps : ∀ destination nonce sealedText aad,
    (history.use backend (.opening destination nonce sealedText aad)).ordered = history.ordered

/-- Whatever the backend does, and however a GCM is used from its start, its nonces stay in
order. -/
theorem nonces_stay_ordered (accepted : ofGcm gcm = .ok ordered) (backend : Backend σ) (state : σ)
    (uses : List (Use σ)) :
    (History.run backend { ordered, state } uses).Orderly backend := by
  have start : Invariant (History.mk ordered state []).ordered [] := invariant_of_ofGcm accepted
  have invariant := Invariant.run backend start uses
  generalize History.run backend { ordered, state } uses = history at invariant ⊢
  constructor
  case standard => exact invariant.standard
  case increasing => exact List.pairwise_map.mpr invariant.increasing
  case distinct =>
    exact invariant.increasing.imp fun less same => Nat.ne_of_lt less (congrArg _ same)
  case minNext_eq => exact invariant.minNext_eq
  case minNext_le => exact invariant.minNext_le
  case passes_iff => exact invariant.passes_iff
  case refuses_iff =>
    intro destination nonce plaintext aad
    rw [sealInto_refuses_iff invariant.nonces invariant.tags, invariant.passes_iff]
    exact Iff.rfl
  case failure_keeps =>
    intro destination nonce plaintext aad fault failed
    have effect := sealInto_effect backend history.ordered destination nonce plaintext aad
      history.state
    simp only [History.use]
    generalize history.ordered.sealInto backend destination nonce plaintext aad
      history.state = outcome at effect failed ⊢
    cases effect with
    | failed => rfl
    | succeeded => cases failed
  case opening_keeps =>
    intro destination nonce sealedText aad
    rfl

/-- Two seals with a carry into the prefix and one under the first nonce again; then the key is
destroyed, and sealing under a good nonce fails. -/
theorem nonces_stay_ordered_across_failures :
    ∃ cipher key start,
      Gcm.create Token.backend cipher 12 16 (.fresh (.fresh .default)) =
        (.ok (native key), start) ∧
      ∃ ordered, ofGcm (native key) = .ok ordered ∧
        let history := History.run Token.backend ⟨ordered, start.backend, []⟩
          [.sealing [] (Bytes.bigEndian 12 7) [1, 2, 3] [],
            .sealing [] (Bytes.bigEndian 12 (0x10000000000000003)) [] [4],
            .sealing [] (Bytes.bigEndian 12 7) [] [],
            .elsewhere fun token => (token.destroyKey key.raw).2,
            .sealing [] (Bytes.bigEndian 12 (0x10000000000000004)) [] []]
        history.sealedNonces = [Bytes.bigEndian 12 7, Bytes.bigEndian 12 (0x10000000000000003)] ∧
          history.ordered.minNext = 0x10000000000000004 ∧ history.Orderly Token.backend :=
  ⟨⟨0, ⟨⟨.issuedAfter 0, aesAlgorithm⟩, .issuedAfter 1, 128⟩, Bytes.zeros 16, 16⟩,
    ⟨⟨.issuedAfter 0, aesAlgorithm⟩, .issuedAfter 1, 128⟩, _, Prod.ext (by rfl) rfl, _, rfl,
    by decide +kernel, by decide +kernel,
    nonces_stay_ordered (show ofGcm (native _) = .ok _ from rfl) _ _ _⟩

end CipherModes.Gcm.Ordered
