import CipherModes.Gcm.Blocks
import CipherModes.Proofs.Bytes.Numbers
import Mathlib.FieldTheory.Finite.Extension

/-!
# The field with 2 ^ 128 elements

Words of 128 bits are the polynomials over two elements modulo
`X ^ 128 + X ^ 7 + X ^ 2 + X + 1`, told by their coefficients; their sums and
products are those of the polynomials. The modulus has no factors, so the words
are a field, and multiplying by any but zero loses nothing.
-/

set_option autoImplicit false

namespace CipherModes.Gcm

open Polynomial

/-- What the polynomials are taken modulo. It is not to be unfolded where only its degree
matters. -/
@[irreducible]
noncomputable def modulus : (ZMod 2)[X] := X ^ 128 + (X ^ 7 + X ^ 2 + X + 1)

theorem modulus_eq : modulus = X ^ 128 + (X ^ 7 + X ^ 2 + X + 1) := by
  unfold modulus
  rfl

theorem monic_modulus : modulus.Monic := by
  unfold modulus
  apply monic_X_pow_add
  compute_degree!

theorem natDegree_modulus : modulus.natDegree = 128 := by
  unfold modulus
  compute_degree!

theorem degree_modulus : modulus.degree = (128 : Nat) := by
  rw [Polynomial.degree_eq_natDegree monic_modulus.ne_zero, natDegree_modulus]

/-- The field. -/
abbrev Galois := AdjoinRoot modulus

instance : Nontrivial Galois := by
  apply AdjoinRoot.nontrivial
  rw [degree_modulus]
  decide

instance : CharP Galois 2 :=
  charP_of_injective_algebraMap (algebraMap (ZMod 2) Galois).injective 2

noncomputable def root : Galois := AdjoinRoot.root modulus

theorem root_pow : root ^ 128 = root ^ 7 + root ^ 2 + root + 1 := by
  have zero := congrArg (aeval root) modulus_eq
  rw [root, AdjoinRoot.aeval_eq, AdjoinRoot.mk_self, ← root] at zero
  simp only [map_add, map_pow, map_one, aeval_X] at zero
  exact CharTwo.add_eq_zero.mp zero.symm

/-! ## Words as blocks -/

namespace Element

theorem capacity_blockSize : Bytes.capacity blockSize = 2 ^ 128 := by decide

theorem ofBytes_toBytes (element : Element) : ofBytes element.toBytes = element := by
  have small : element.toNat < Bytes.capacity blockSize := capacity_blockSize ▸ element.isLt
  rw [ofBytes, toBytes, Bytes.ofBigEndian_bigEndian, ← blockSize, Nat.mod_eq_of_lt small,
    BitVec.ofNat_toNat, BitVec.setWidth_eq]

theorem toBytes_ofBytes {block : Bytes} (whole : block.length = blockSize) :
    (ofBytes block).toBytes = block := by
  have small := Bytes.ofBigEndian_lt block
  have kept := Bytes.bigEndian_ofBigEndian block
  rw [whole] at small kept
  rw [toBytes, ofBytes, BitVec.toNat_ofNat, ← capacity_blockSize, Nat.mod_eq_of_lt small]
  exact kept

end Element

/-- One step of the keyed hash. -/
def Element.absorb (factor value : Element) (block : Bytes) : Element :=
  (value ^^^ ofBytes block).mul factor

theorem hashBlocks_eq_foldl (key : Bytes) (blocks : List Bytes) :
    hashBlocks key blocks =
      (blocks.foldl (Element.absorb (Element.ofBytes key)) 0).toBytes := rfl

/-! ## Words as polynomials -/

/-- The polynomial of given coefficients, the constant one first. -/
noncomputable def ofBits (bits : Nat → Bool) : Galois :=
  ∑ place ∈ Finset.range 128, if bits place then root ^ place else 0

/-- The polynomial that a word stands for. -/
noncomputable def Element.galois (element : Element) : Galois := ofBits element.getMsbD

namespace Element

variable {left right element : Element}

@[simp]
theorem galois_zero : galois 0 = 0 := by
  rw [galois, ofBits]
  apply Finset.sum_eq_zero
  intro place _
  rw [show (0 : Element).getMsbD place = false from BitVec.getMsbD_zero]
  rfl

@[simp]
theorem galois_xor (left right : Element) :
    galois (left ^^^ right) = galois left + galois right := by
  rw [galois, galois, galois, ofBits, ofBits, ofBits, ← Finset.sum_add_distrib]
  apply Finset.sum_congr rfl
  intro place _
  rw [BitVec.getMsbD_xor]
  cases left.getMsbD place <;> cases right.getMsbD place <;> simp [CharTwo.add_self_eq_zero]

theorem galois_reduction : galois reduction = root ^ 128 := by
  have places : (Finset.range 128).filter (fun place => reduction.getMsbD place) =
      {7, 2, 1, 0} := by decide
  rw [galois, ofBits, ← Finset.sum_filter, places, root_pow]
  simp [add_assoc]

/-- A shift moves every coefficient up, but for the last. -/
theorem galois_shift (element : Element) :
    galois element * root =
      galois (element >>> 1) + if element.getLsbD 0 then root ^ 128 else 0 := by
  have moved : ∀ place ∈ Finset.range 127,
      (if (element >>> 1).getMsbD (place + 1) then root ^ (place + 1) else 0) =
        (if element.getMsbD place then root ^ place else 0) * root := by
    intro place below
    rw [Finset.mem_range] at below
    have inside : place + 1 < 128 := Nat.succ_lt_succ below
    have kept : (element >>> 1).getMsbD (place + 1) = element.getMsbD place := by
      simp [BitVec.getMsbD_ushiftRight, inside]
    rw [kept, ite_mul, zero_mul, pow_succ]
  have first : (element >>> 1).getMsbD 0 = false := by simp [BitVec.getMsbD_ushiftRight]
  have last : element.getLsbD 0 = element.getMsbD 127 := BitVec.getLsbD_eq_getMsbD element 0
  rw [galois, galois, ofBits, ofBits, Finset.sum_range_succ, Finset.sum_range_succ' _ 127,
    Finset.sum_congr rfl moved, first, last, add_mul, Finset.sum_mul, ite_mul, zero_mul, ← pow_succ]
  simp

theorem galois_timesX (element : Element) : galois element.timesX = galois element * root := by
  rw [galois_shift, timesX]
  split
  · rw [galois_xor, galois_reduction]
  · rw [add_zero]

theorem galois_addProduct (count : Nat) (left right sum : Element) :
    galois (addProduct count left right sum) =
      galois sum +
        (∑ place ∈ Finset.range count, if left.getMsbD place then root ^ place else 0) *
          galois right := by
  induction count generalizing left right sum with
  | zero => rw [addProduct, Finset.sum_range_zero, zero_mul, add_zero]
  | succ count ih =>
      have later : (∑ place ∈ Finset.range count,
          if (left <<< 1).getMsbD place then root ^ place else 0) * root =
            ∑ place ∈ Finset.range count,
              if left.getMsbD (place + 1) then root ^ (place + 1) else 0 := by
        rw [Finset.sum_mul]
        apply Finset.sum_congr rfl
        intro place _
        rw [BitVec.getMsbD_shiftLeft, ite_mul, zero_mul, pow_succ]
      have first : galois (if left.msb then sum ^^^ right else sum) =
          galois sum + (if left.getMsbD 0 then root ^ 0 else 0) * galois right := by
        rw [BitVec.msb_eq_getMsbD_zero]
        split
        · rw [galois_xor, pow_zero, one_mul]
        · rw [zero_mul, add_zero]
      rw [addProduct, ih, galois_timesX, first, Finset.sum_range_succ', ← later]
      ring

@[simp]
theorem galois_mul (left right : Element) :
    galois (left.mul right) = galois left * galois right := by
  rw [mul, galois_addProduct, galois_zero, zero_add]
  rfl

theorem galois_absorb (factor value : Element) (block : Bytes) :
    galois (absorb factor value block) =
      (galois value + galois (ofBytes block)) * galois factor := by
  rw [absorb, galois_mul, galois_xor]

/-- The hash multiplies step by step what the sum multiplies out. -/
theorem galois_foldl_absorb (factor start : Element) (blocks : List Bytes) :
    galois (blocks.foldl (absorb factor) start) =
      galois start * galois factor ^ blocks.length +
        ∑ place ∈ Finset.range blocks.length,
          galois (ofBytes (blocks.getD place [])) * galois factor ^ (blocks.length - place) := by
  induction blocks generalizing start with
  | nil => simp
  | cons block rest ih =>
      have later : ∀ place ∈ Finset.range rest.length,
          galois (ofBytes ((block :: rest).getD (place + 1) [])) *
            galois factor ^ (rest.length + 1 - (place + 1)) =
              galois (ofBytes (rest.getD place [])) * galois factor ^ (rest.length - place) := by
        intro place _
        rw [List.getD_cons_succ, Nat.add_sub_add_right]
      rw [List.foldl_cons, ih, galois_absorb, List.length_cons, Finset.sum_range_succ',
        Finset.sum_congr rfl later, List.getD_cons_zero, Nat.sub_zero]
      ring

end Element

/-! ## Each polynomial has one word -/

section

variable {left right : Nat → Bool}

noncomputable def polynomial (bits : Nat → Bool) : (ZMod 2)[X] :=
  ∑ place ∈ Finset.range 128, if bits place then X ^ place else 0

theorem ofBits_eq_mk (bits : Nat → Bool) :
    ofBits bits = AdjoinRoot.mk modulus (polynomial bits) := by
  rw [ofBits, polynomial, map_sum]
  apply Finset.sum_congr rfl
  intro place _
  rw [apply_ite (AdjoinRoot.mk modulus), map_zero, map_pow, AdjoinRoot.mk_X, ← root]

theorem coeff_polynomial (bits : Nat → Bool) (place : Nat) :
    (polynomial bits).coeff place = if place < 128 ∧ bits place then 1 else 0 := by
  have terms : ∀ other ∈ Finset.range 128,
      (if bits other then (X : (ZMod 2)[X]) ^ other else 0).coeff place = if place = other then (if bits place then 1 else 0) else 0 := by
    intro other _
    rw [apply_ite (Polynomial.coeff · place), coeff_X_pow, coeff_zero]
    by_cases same : place = other
    · rw [same, if_pos rfl, if_pos rfl]
    · rw [if_neg same, if_neg same, ite_self]
  rw [polynomial, finsetSum_coeff, Finset.sum_congr rfl terms, Finset.sum_ite_eq]
  simp only [Finset.mem_range, ite_and]

theorem polynomial_mem_degreeLT (bits : Nat → Bool) :
    polynomial bits ∈ degreeLT (ZMod 2) 128 := by
  rw [mem_degreeLT, degree_lt_iff_coeff_zero]
  intro place large
  have outside : ¬ (place < 128 ∧ bits place) := fun inside => Nat.not_lt_of_le large inside.1
  rw [coeff_polynomial, if_neg outside]

/-- Below the degree of the modulus nothing is reduced. -/
theorem ofBits_inj : ofBits left = ofBits right ↔ ∀ place < 128, left place = right place := by
  constructor
  · intro same place below
    rw [ofBits_eq_mk, ofBits_eq_mk, AdjoinRoot.mk_eq_mk] at same
    have lower := sub_mem (polynomial_mem_degreeLT left) (polynomial_mem_degreeLT right)
    rw [mem_degreeLT, ← degree_modulus] at lower
    have zero := Polynomial.eq_zero_of_dvd_of_degree_lt same lower
    have coefficients := congrArg (Polynomial.coeff · place) (sub_eq_zero.mp zero)
    simp only [coeff_polynomial, below, true_and] at coefficients
    cases leftBit : left place <;> cases rightBit : right place <;>
      simp [leftBit, rightBit] at coefficients ⊢
  · intro same
    apply Finset.sum_congr rfl
    intro place member
    rw [same place (Finset.mem_range.mp member)]

end

namespace Element

theorem galois_injective : Function.Injective galois :=
  fun _ _ same => BitVec.eq_of_getMsbD_eq (ofBits_inj.mp same)

/-- As many words as polynomials. -/
theorem galois_bijective : Function.Bijective galois := by
  have := monic_modulus.finite_adjoinRoot
  have words : Nat.card Element = 2 ^ 128 := by
    rw [Nat.card_congr ⟨BitVec.toFin, BitVec.ofFin, fun _ => rfl, fun _ => rfl⟩, Nat.card_fin]
  have dimension : Module.finrank (ZMod 2) Galois = 128 :=
    (finrank_quotient_span_eq_natDegree (f := modulus)).trans natDegree_modulus
  have polynomials : Nat.card Galois = 2 ^ 128 := by
    rw [Module.natCard_eq_pow_finrank (K := ZMod 2), Nat.card_zmod, dimension]
  have := Module.finite_of_finite (ZMod 2) (M := Galois)
  exact (Nat.bijective_iff_injective_and_card galois).mpr
    ⟨galois_injective, words.trans polynomials.symm⟩

end Element

/-! ## The modulus has no factors

Squared 128 times, `x` comes back, so the degree of an irreducible factor divides 128.
Squared 64 times it is so far from itself that the difference has an inverse: no
factor divides it, and no factor has a degree that divides 64.
-/

namespace Element

def one : Element := BitVec.ofNat 128 0x80000000000000000000000000000000

def x : Element := BitVec.ofNat 128 0x40000000000000000000000000000000

def square (element : Element) : Element := element.mul element

theorem galois_one : galois one = 1 := by
  have places : (Finset.range 128).filter (fun place => one.getMsbD place) = {0} := by decide
  rw [galois, ofBits, ← Finset.sum_filter, places, Finset.sum_singleton, pow_zero]

theorem galois_x : galois x = root := by
  have places : (Finset.range 128).filter (fun place => x.getMsbD place) = {1} := by decide
  rw [galois, ofBits, ← Finset.sum_filter, places, Finset.sum_singleton, pow_one]

theorem galois_iterate_square (count : Nat) (element : Element) :
    galois (square^[count] element) = galois element ^ 2 ^ count := by
  induction count with
  | zero => rw [Function.iterate_zero_apply, pow_zero, pow_one]
  | succ count ih =>
      rw [Function.iterate_succ_apply', square, galois_mul, ih, ← sq, ← pow_mul, ← pow_succ]

/-- What `x` is when squared 64 times. -/
def halfway : Element := BitVec.ofNat 128 0x6f9945a9e519a7229d4c1ad657f8a686

/-- The inverse of `halfway` less `x`. -/
def inverse : Element := BitVec.ofNat 128 0x180da934bf53158251c13dbb149f5279

set_option maxRecDepth 100000 in
theorem iterate_square_x : square^[64] x = halfway := by decide +kernel

set_option maxRecDepth 100000 in
theorem iterate_square_halfway : square^[64] halfway = x := by decide +kernel

theorem mul_inverse : (halfway ^^^ x).mul inverse = one := by decide +kernel

end Element

theorem root_pow_two_pow_half : root ^ 2 ^ 64 = Element.galois Element.halfway := by
  rw [← Element.galois_x, ← Element.galois_iterate_square, Element.iterate_square_x]

theorem root_pow_two_pow : root ^ 2 ^ (64 + 64) = root := by
  rw [pow_add, pow_mul, root_pow_two_pow_half, ← Element.galois_iterate_square,
    Element.iterate_square_halfway, Element.galois_x]

theorem root_pow_sub_mul_inverse :
    (root ^ 2 ^ 64 - root) * Element.galois Element.inverse = 1 := by
  rw [root_pow_two_pow_half, CharTwo.sub_eq_add, ← Element.galois_x, ← Element.galois_xor,
    ← Element.galois_mul, Element.mul_inverse, Element.galois_one]

theorem mk_X_pow_sub (count : Nat) :
    AdjoinRoot.mk modulus (X ^ Nat.card (ZMod 2) ^ count - X) = root ^ 2 ^ count - root := by
  rw [Nat.card_zmod, map_sub, map_pow, AdjoinRoot.mk_X, ← root]

/-- The modulus has no factor under which `x` squared 64 times is `x` again. -/
theorem isUnit_of_dvd_of_dvd {factor : (ZMod 2)[X]} (divides : factor ∣ modulus)
    (fixed : factor ∣ X ^ Nat.card (ZMod 2) ^ 64 - X) : IsUnit factor := by
  obtain ⟨inverse, isInverse⟩ := AdjoinRoot.mk_surjective (Element.galois Element.inverse)
  have one := root_pow_sub_mul_inverse
  rw [← mk_X_pow_sub, ← isInverse, ← map_mul, ← map_one (AdjoinRoot.mk modulus),
    AdjoinRoot.mk_eq_mk] at one
  exact isUnit_of_dvd_one ((dvd_sub_right (fixed.mul_right inverse)).mp (divides.trans one))

theorem irreducible_modulus : Irreducible modulus := by
  have positive : 0 < modulus.natDegree := natDegree_modulus ▸ Nat.zero_lt_succ _
  obtain ⟨factor, irreducible, divides⟩ := exists_irreducible_of_natDegree_pos positive
  have returns : modulus ∣ X ^ Nat.card (ZMod 2) ^ (64 + 64) - X := by
    rw [← AdjoinRoot.mk_eq_zero, mk_X_pow_sub, root_pow_two_pow, sub_self]
  have degree : factor.natDegree ∣ 2 ^ 7 :=
    irreducible.natDegree_dvd_of_dvd_X_pow_card_pow_sub_X (divides.trans returns)
  have notHalf : ¬ factor.natDegree ∣ 2 ^ 6 := by
    intro half
    have fixed : factor ∣ X ^ Nat.card (ZMod 2) ^ 64 - X :=
      irreducible.natDegree_dvd_iff_dvd_X_pow_card_pow_sub_X.mp half
    exact irreducible.not_isUnit (isUnit_of_dvd_of_dvd divides fixed)
  obtain ⟨power, atMost, same⟩ := (Nat.dvd_prime_pow Nat.prime_two).mp degree
  have whole : power = 7 := by
    by_contra smaller
    exact notHalf (same ▸ Nat.pow_dvd_pow 2 (by omega))
  have least : modulus.natDegree ≤ factor.natDegree := by
    rw [same, whole, natDegree_modulus]
    decide
  exact (associated_of_dvd_of_natDegree_le divides monic_modulus.ne_zero least).irreducible
    irreducible

instance : Fact (Irreducible modulus) := ⟨irreducible_modulus⟩

namespace Element

theorem galois_eq_zero_iff {element : Element} : galois element = 0 ↔ element = 0 := by
  rw [← galois_zero, galois_injective.eq_iff]

/-- Multiplying loses nothing, but by zero. -/
theorem mul_injective_iff {key : Element} :
    Function.Injective (fun value : Element => value.mul key) ↔ key ≠ 0 := by
  constructor
  · intro injective zero
    have same : (fun value : Element => value.mul key) one =
        (fun value : Element => value.mul key) 0 := by
      apply galois_injective
      rw [galois_mul, galois_mul, zero, galois_zero, mul_zero, mul_zero]
    exact absurd (injective same) (by decide)
  · intro nonzero left right same
    have products := congrArg galois same
    simp only [galois_mul] at products
    exact galois_injective (mul_right_cancel₀ (galois_eq_zero_iff.not.mpr nonzero) products)

end Element

end CipherModes.Gcm
