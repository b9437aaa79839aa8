import Mathlib.Order.Bounds.Defs
import CipherModes.Proofs.Gcm.NonceOrder

/-!
# The least nonce to come

Which numbers pass the checks of the next seal, and which of them is the least. It is the bound
that the GCM keeps, unless the counter of the bound is exhausted. No nonce may have that number,
so the least is the one after it: the next prefix with the counter zero.
-/

set_option autoImplicit false

namespace CipherModes.Gcm.Ordered

variable {σ : Type} {backend : Backend σ} {gcm : Gcm} {ordered : Ordered} {nonce : Bytes}
  {number : Nat}

/-- The counter in a number of twelve bytes is the greatest, which is never used. -/
def Exhausted (number : Nat) : Prop := number % 0x10000000000000000 = 0xffffffffffffffff

instance (number : Nat) : Decidable (Exhausted number) := inferInstanceAs (Decidable (_ = _))

/-- The numbers of the nonces that pass the checks of the next seal. -/
def passing (ordered : Ordered) : Set Nat :=
  {number | ∃ nonce, ordered.nonceNumber nonce = .ok number}

/-- The bound, or the number after it where no nonce may have the bound for its number. -/
def leastNext (ordered : Ordered) : Nat :=
  if Exhausted ordered.minNext then ordered.minNext + 1 else ordered.minNext

/-! ## Numbers that pass -/

theorem exhausted_ofBigEndian_iff (standard : nonce.length = standardNonceSize) :
    Exhausted (Bytes.ofBigEndian nonce) ↔
      Bytes.ofBigEndian (nonce.drop 4) = 0xffffffffffffffff := by
  have capacity : Bytes.capacity 8 = 0x10000000000000000 := by decide
  rw [Bytes.ofBigEndian_drop, standard, show standardNonceSize - 4 = 8 from rfl, capacity,
    Exhausted]

theorem nonceNumber_of_exhausted (standard : nonce.length = standardNonceSize)
    (exhausted : Exhausted (Bytes.ofBigEndian nonce)) :
    ordered.nonceNumber nonce = .error .counterRemains := by
  rw [exhausted_ofBigEndian_iff standard] at exhausted
  rw [nonceNumber, if_neg (not_not_intro standard), if_pos exhausted]

theorem sealInto_of_exhausted (standard : nonce.length = standardNonceSize)
    (exhausted : Exhausted (Bytes.ofBigEndian nonce)) (destination plaintext aad : Bytes)
    (state : σ) :
    (ordered.sealInto backend destination nonce plaintext aad state).1.1 =
      .error (.broken .counterRemains) := by
  rw [sealInto_of_refused (nonceNumber_of_exhausted standard exhausted)]

theorem nonceNumber_bigEndian_iff :
    ordered.nonceNumber (Bytes.bigEndian 12 number) = .ok number ↔
      number < 0x1000000000000000000000000 ∧ ¬ Exhausted number ∧ ordered.minNext ≤ number := by
  have capacity : Bytes.capacity 12 = 0x1000000000000000000000000 := by decide
  have standard : (Bytes.bigEndian 12 number).length = standardNonceSize :=
    Bytes.length_bigEndian 12 number
  have fits_iff : number = number % 0x1000000000000000000000000 ↔
      number < 0x1000000000000000000000000 := by omega
  rw [nonceNumber_eq_ok_iff, ne_eq, ← exhausted_ofBigEndian_iff standard,
    Bytes.ofBigEndian_bigEndian, capacity, fits_iff]
  constructor
  · rintro ⟨⟨-, remains, large⟩, fits⟩
    rw [Nat.mod_eq_of_lt fits] at remains large
    exact ⟨fits, remains, large⟩
  · rintro ⟨fits, remains, large⟩
    rw [Nat.mod_eq_of_lt fits]
    exact ⟨⟨standard, remains, large⟩, fits⟩

/-- A number that passes is written in one way. -/
theorem eq_bigEndian_of_nonceNumber (passed : ordered.nonceNumber nonce = .ok number) :
    nonce = Bytes.bigEndian 12 number := by
  obtain ⟨⟨standard, -, -⟩, rfl⟩ := nonceNumber_eq_ok_iff.mp passed
  have written := Bytes.bigEndian_ofBigEndian nonce
  rw [standard] at written
  exact written.symm

theorem mem_passing_iff :
    number ∈ ordered.passing ↔
      number < 0x1000000000000000000000000 ∧ ¬ Exhausted number ∧ ordered.minNext ≤ number := by
  rw [← nonceNumber_bigEndian_iff]
  constructor
  · rintro ⟨nonce, passed⟩
    exact eq_bigEndian_of_nonceNumber passed ▸ passed
  · exact fun passed => ⟨_, passed⟩

/-- Where any number passes, the least that does lies at the bound or just above it. -/
theorem leastNext_isLeast (passable : ordered.passing.Nonempty) :
    IsLeast ordered.passing ordered.leastNext := by
  obtain ⟨other, passes⟩ := passable
  rw [mem_passing_iff] at passes
  by_cases exhausted : Exhausted ordered.minNext
  · rw [leastNext, if_pos exhausted]
    -- The bound is not the number of a nonce, so all that pass are above it.
    have above : ∀ number ∈ ordered.passing, ordered.minNext + 1 ≤ number := by
      intro number member
      obtain ⟨-, remains, large⟩ := mem_passing_iff.mp member
      exact Nat.lt_of_le_of_ne large fun same => remains (same ▸ exhausted)
    refine ⟨mem_passing_iff.mpr ⟨?_, ?_, Nat.le_succ _⟩, above⟩
    · exact Nat.lt_of_le_of_lt (above other (mem_passing_iff.mpr passes)) passes.1
    · unfold Exhausted at exhausted ⊢
      omega
  · rw [leastNext, if_neg exhausted]
    exact ⟨mem_passing_iff.mpr ⟨Nat.lt_of_le_of_lt passes.2.2 passes.1, exhausted, Nat.le_refl _⟩,
      fun _ member => (mem_passing_iff.mp member).2.2⟩

theorem minNext_isLeast_iff (passable : ordered.passing.Nonempty) :
    IsLeast ordered.passing ordered.minNext ↔ ¬ Exhausted ordered.minNext := by
  constructor
  · exact fun least => (mem_passing_iff.mp least.1).2.1
  · intro remains
    have least := leastNext_isLeast passable
    rwa [leastNext, if_neg remains] at least

/-- The bound is exhausted just after a seal under the last counter that may be used. -/
theorem Invariant.exhausted_iff {sealedNonces : List Bytes}
    (invariant : ordered.Invariant sealedNonces) :
    Exhausted ordered.minNext ↔ ∃ nonce ∈ sealedNonces,
      ordered.minNext = Bytes.ofBigEndian nonce + 1 ∧
        Bytes.ofBigEndian (nonce.drop 4) = 0xfffffffffffffffe := by
  have counter : ∀ nonce ∈ sealedNonces,
      Bytes.ofBigEndian (nonce.drop 4) = Bytes.ofBigEndian nonce % 0x10000000000000000 := by
    intro nonce member
    have capacity : Bytes.capacity 8 = 0x10000000000000000 := by decide
    rw [Bytes.ofBigEndian_drop, invariant.standard nonce member,
      show standardNonceSize - 4 = 8 from rfl, capacity]
  constructor
  · intro exhausted
    rcases invariant.attained with ⟨-, start⟩ | ⟨nonce, member, next⟩
    · rw [start] at exhausted
      exact absurd exhausted (by decide)
    · refine ⟨nonce, member, next, ?_⟩
      rw [counter nonce member]
      rw [next, Exhausted] at exhausted
      omega
  · rintro ⟨nonce, member, next, last⟩
    rw [counter nonce member] at last
    rw [next, Exhausted]
    omega

/-! ## Every history -/

/-- What the next seal of a history accepts least. -/
structure History.LeastNonce (backend : Backend σ) (history : History σ) : Prop where
  isLeast : IsLeast history.ordered.passing history.ordered.leastNext
  passes : history.ordered.nonceNumber (Bytes.bigEndian 12 history.ordered.leastNext) =
    .ok history.ordered.leastNext
  refuses_smaller : ∀ destination nonce plaintext aad,
    Bytes.ofBigEndian nonce < history.ordered.leastNext →
      ∃ precondition : Precondition, precondition.ConcernsNonce ∧
        (history.ordered.sealInto backend destination nonce plaintext aad history.state).1.1 =
          .error (.broken precondition)
  minNext_isLeast_iff : IsLeast history.ordered.passing history.ordered.minNext ↔
    ¬ Exhausted history.ordered.minNext
  exhausted_iff : Exhausted history.ordered.minNext ↔ ∃ nonce ∈ history.sealedNonces,
    history.ordered.minNext = Bytes.ofBigEndian nonce + 1 ∧
      Bytes.ofBigEndian (nonce.drop 4) = 0xfffffffffffffffe

/-- However a GCM was used from its start: while any nonce passes its checks, the least that does
is the bound, or the number after a bound whose counter is exhausted. -/
theorem least_nonce_to_come (accepted : ofGcm gcm = .ok ordered) (backend : Backend σ) (state : σ)
    (uses : List (Use σ))
    (passable : (History.run backend { ordered, state } uses).ordered.passing.Nonempty) :
    (History.run backend { ordered, state } uses).LeastNonce backend := by
  have start : Invariant (History.mk ordered state []).ordered [] := invariant_of_ofGcm accepted
  have invariant := Invariant.run backend start uses
  generalize History.run backend { ordered, state } uses = history at passable invariant ⊢
  have least := leastNext_isLeast passable
  constructor
  case isLeast => exact least
  case passes => exact nonceNumber_bigEndian_iff.mpr (mem_passing_iff.mp least.1)
  case refuses_smaller =>
    intro destination nonce plaintext aad smaller
    rw [sealInto_refuses_iff invariant.nonces invariant.tags]
    rintro ⟨number, passed⟩
    obtain ⟨-, rfl⟩ := nonceNumber_eq_ok_iff.mp passed
    exact Nat.not_le_of_lt smaller (least.2 ⟨nonce, passed⟩)
  case minNext_isLeast_iff => exact minNext_isLeast_iff passable
  case exhausted_iff => exact invariant.exhausted_iff

/-- A seal under the last counter of the prefix zero, and one more under the counter that is never
used. -/
theorem least_nonce_to_come_next_prefix :
    ∃ cipher key start,
      Gcm.create Token.backend cipher 12 16 (.fresh (.fresh .default)) =
        (.ok (native key), start) ∧
      ∃ ordered, ofGcm (native key) = .ok ordered ∧
        let history := History.run Token.backend ⟨ordered, start.backend, []⟩
          [.sealing [] (Bytes.bigEndian 12 0xfffffffffffffffe) [1, 2, 3] [],
            .sealing [] (Bytes.bigEndian 12 0xffffffffffffffff) [1, 2, 3] []]
        history.sealedNonces = [Bytes.bigEndian 12 0xfffffffffffffffe] ∧
          history.ordered.leastNext = 0x10000000000000000 ∧ history.LeastNonce Token.backend :=
  ⟨⟨0, ⟨⟨.issuedAfter 0, aesAlgorithm⟩, .issuedAfter 1, 128⟩, Bytes.zeros 16, 16⟩,
    ⟨⟨.issuedAfter 0, aesAlgorithm⟩, .issuedAfter 1, 128⟩, _, Prod.ext (by rfl) rfl, _, rfl,
    by decide +kernel, by decide +kernel,
    least_nonce_to_come (show ofGcm (native _) = .ok _ from rfl) _ _ _
      ⟨0x10000000000000000, mem_passing_iff.mpr (by decide +kernel)⟩⟩

/-- The bound is not always the least nonce to come: after a seal under the last counter it is
refused, though greater nonces pass. -/
theorem refuses_minNext_after_last_counter :
    ∃ cipher key start,
      Gcm.create Token.backend cipher 12 16 (.fresh (.fresh .default)) =
        (.ok (native key), start) ∧
      ∃ ordered, ofGcm (native key) = .ok ordered ∧
        let history := History.run Token.backend ⟨ordered, start.backend, []⟩
          [.sealing [] (Bytes.bigEndian 12 0xfffffffffffffffe) [] []]
        history.sealedNonces = [Bytes.bigEndian 12 0xfffffffffffffffe] ∧
          history.ordered.minNext = 0xffffffffffffffff ∧
          (history.ordered.sealInto Token.backend []
            (Bytes.bigEndian 12 history.ordered.minNext) [] [] history.state).1.1 =
              .error (.broken .counterRemains) ∧
          history.ordered.nonceNumber (Bytes.bigEndian 12 0x10000000000000000) =
            .ok 0x10000000000000000 ∧
          ¬ IsLeast history.ordered.passing history.ordered.minNext := by
  refine ⟨⟨0, ⟨⟨.issuedAfter 0, aesAlgorithm⟩, .issuedAfter 1, 128⟩, Bytes.zeros 16, 16⟩,
    ⟨⟨.issuedAfter 0, aesAlgorithm⟩, .issuedAfter 1, 128⟩, _, Prod.ext (by rfl) rfl, _, rfl,
    by decide +kernel, by decide +kernel,
    sealInto_of_exhausted (Bytes.length_bigEndian ..) ?_ [] [] [] _,
    nonceNumber_bigEndian_iff.mpr (by decide +kernel), ?_⟩
  · decide +kernel
  · intro least
    exact (mem_passing_iff.mp least.1).2.1 (by decide +kernel)

end CipherModes.Gcm.Ordered
