import CipherModes.Proofs.Cbc.Cuts
import CipherModes.Proofs.Panics.Chaining

/-!
# Going on after a failure

Where the failing calls of a cipher write nothing, a stream that fails partway
has processed the blocks before and left the others as they were, and it chains
to the block where it stands. So its holder goes on with what is left, and
however often that fails, the message comes out as if nothing had.
-/

set_option autoImplicit false

namespace CipherModes

variable {σ τ : Type}

/-- From steady states, the calls in a direction that succeed on blocks compute one function, and
every call on blocks ends in a steady state. -/
structure BlockCipher.Computes (cipher : BlockCipher σ) (direction : Direction)
    (function : Bytes → Bytes) (steady : σ → Prop) : Prop where
  output_eq : ∀ source destination state, source.length = cipher.blockSize →
    destination.length = cipher.blockSize → steady state →
      (cipher.transform direction source destination state).1.1 = .ok () →
        (cipher.transform direction source destination state).1.2 = function source
  stays : ∀ source destination state, source.length = cipher.blockSize →
    destination.length = cipher.blockSize → steady state →
      steady (cipher.transform direction source destination state).2

namespace Cbc

variable {cipher : BlockCipher σ} {direction : Direction} {function : Bytes → Bytes}
  {steady : σ → Prop} {chain block : Bytes} {state : σ} {count : Nat} {error : CipherError}

/-! ## Chaining through a function -/

/-- One block: what is written and the next chaining block. -/
def chainBlock (direction : Direction) (function : Bytes → Bytes) (chain block : Bytes) :
    Bytes × Bytes :=
  match direction with
  | .encrypt => (function (Bytes.xor block chain), function (Bytes.xor block chain))
  | .decrypt => (Bytes.xor (function block) chain, block)

/-- So many blocks of a size: what is written and the last chaining block. -/
def chainBlocks (direction : Direction) (function : Bytes → Bytes) (size : Nat) :
    (count : Nat) → (chain input : Bytes) → Bytes × Bytes
  | 0, chain, _ => ([], chain)
  | count + 1, chain, input =>
      let (block, next) := chainBlock direction function chain (input.take size)
      let (rest, last) := chainBlocks direction function size count next (input.drop size)
      (block ++ rest, last)

theorem chainBlocks_append (direction : Direction) (function : Bytes → Bytes) {size first : Nat}
    (later : Nat) (chain : Bytes) {front : Bytes} (whole : front.length = size * first)
    (rest : Bytes) :
    chainBlocks direction function size (first + later) chain (front ++ rest) =
      let (written, middle) := chainBlocks direction function size first chain front
      let (others, last) := chainBlocks direction function size later middle rest
      (written ++ others, last) := by
  induction first generalizing chain front with
  | zero =>
      cases List.eq_nil_of_length_eq_zero whole
      rw [Nat.zero_add]
      rfl
  | succ first ih =>
      rw [Nat.mul_succ] at whole
      have room : size ≤ front.length := by omega
      have others : (front.drop size).length = size * first := by
        rw [List.length_drop]
        omega
      rw [Nat.succ_add, chainBlocks, chainBlocks, List.take_append_of_le_length room,
        List.drop_append_of_le_length room]
      simp only [ih _ others, List.append_assoc]

/-! ## One block -/

theorem cryptBlock_computes (computes : cipher.Computes direction function steady)
    (ready : steady state) (chainSize : chain.length = cipher.blockSize)
    (whole : block.length = cipher.blockSize) :
    steady (cryptBlock cipher direction chain block state).2 ∧
      ((cryptBlock cipher direction chain block state).1.1 = .ok () →
        (cryptBlock cipher direction chain block state).1.2 =
          chainBlock direction function chain block) := by
  cases direction with
  | encrypt =>
      have mixed : (Bytes.xor block chain).length = cipher.blockSize := by
        rw [Bytes.length_xor, whole, chainSize, Nat.min_self]
      have output_eq := computes.output_eq _ block state mixed whole ready
      have stays := computes.stays _ block state mixed whole ready
      rcases called : cipher.transform .encrypt (Bytes.xor block chain) block state with
        ⟨⟨_ | _, output⟩, next⟩
      · rw [called] at stays
        rw [cryptBlock_encrypt called]
        exact ⟨stays, nofun⟩
      · rw [called] at stays output_eq
        rw [cryptBlock_encrypt called]
        cases output_eq rfl
        exact ⟨stays, fun _ => rfl⟩
  | decrypt =>
      have output_eq := computes.output_eq _ block state whole whole ready
      have stays := computes.stays _ block state whole whole ready
      rcases called : cipher.transform .decrypt block block state with ⟨⟨_ | _, output⟩, next⟩
      · rw [called] at stays
        rw [cryptBlock_decrypt called]
        exact ⟨stays, nofun⟩
      · rw [called] at stays output_eq
        rw [cryptBlock_decrypt called]
        cases output_eq rfl
        exact ⟨stays, fun _ => rfl⟩

theorem cryptBlock_of_error (clean : cipher.FailsClean)
    (failed : (cryptBlock cipher direction chain block state).1.1 = .error error) :
    (cryptBlock cipher direction chain block state).1.2 = (block, chain) := by
  cases direction with
  | encrypt =>
      have kept := clean .encrypt (Bytes.xor block chain) block state error
      rcases called : cipher.transform .encrypt (Bytes.xor block chain) block state with
        ⟨⟨_ | _, output⟩, next⟩
      · rw [cryptBlock_encrypt called] at failed ⊢
        rw [called] at kept
        cases kept failed
        rfl
      · rw [cryptBlock_encrypt called] at failed
        cases failed
  | decrypt =>
      have kept := clean .decrypt block block state error
      rcases called : cipher.transform .decrypt block block state with ⟨⟨_ | _, output⟩, next⟩
      · rw [cryptBlock_decrypt called] at failed ⊢
        rw [called] at kept
        cases kept failed
        rfl
      · rw [cryptBlock_decrypt called] at failed
        cases failed

/-! ## The blocks of a buffer -/

theorem cut_front {size : Nat} {buffer : Bytes} (whole : buffer.length = size * (count + 1)) :
    ∃ read more : Bytes, buffer = read ++ more ∧ read.length = size ∧
      more.length = size * count := by
  rw [Nat.mul_succ] at whole
  refine ⟨_, _, (List.take_append_drop size buffer).symm, List.length_take_of_le (by omega), ?_⟩
  rw [List.length_drop]
  omega

theorem cryptFront_computes (computes : cipher.Computes direction function steady)
    (ready : steady state) (chainSize : chain.length = cipher.blockSize) {buffer : Bytes}
    (whole : buffer.length = cipher.blockSize * count) :
    steady (cryptFront cipher direction count chain buffer state).2 ∧
      ((cryptFront cipher direction count chain buffer state).1.1 = .ok () →
        (cryptFront cipher direction count chain buffer state).1.2 =
          chainBlocks direction function cipher.blockSize count chain buffer) := by
  induction count generalizing chain buffer state with
  | zero =>
      cases List.eq_nil_of_length_eq_zero whole
      exact ⟨ready, fun _ => rfl⟩
  | succ count ih =>
      obtain ⟨read, more, rfl, readSize, moreSize⟩ := cut_front whole
      have same : read.length = chain.length := readSize.trans chainSize.symm
      obtain ⟨stays, output_eq⟩ := cryptBlock_computes computes ready chainSize readSize
      have lengths := length_cryptBlock cipher direction same state
      rcases first : cryptBlock cipher direction chain read state with
        ⟨⟨_ | _, block, next⟩, middle⟩
      · rw [first] at stays
        rw [cryptFront_of_error same first]
        exact ⟨stays, nofun⟩
      · rw [first] at stays output_eq lengths
        obtain ⟨ends, later⟩ := ih stays (lengths.2.trans chainSize) moreSize
        rw [cryptFront_of_ok same first, chainBlocks, List.take_left' readSize,
          List.drop_left' readSize, ← output_eq rfl]
        exact ⟨ends, fun succeeds => by simp only [← later succeeds]⟩

theorem length_cryptFront (cipher : BlockCipher σ) (direction : Direction)
    (chainSize : chain.length = cipher.blockSize) {buffer : Bytes}
    (whole : buffer.length = cipher.blockSize * count) (state : σ) :
    (cryptFront cipher direction count chain buffer state).1.2.1.length = buffer.length ∧
      (cryptFront cipher direction count chain buffer state).1.2.2.length = cipher.blockSize := by
  induction count generalizing chain buffer state with
  | zero => exact ⟨rfl, chainSize⟩
  | succ count ih =>
      obtain ⟨read, more, rfl, readSize, moreSize⟩ := cut_front whole
      have same : read.length = chain.length := readSize.trans chainSize.symm
      have lengths := length_cryptBlock cipher direction same state
      rcases first : cryptBlock cipher direction chain read state with
        ⟨⟨_ | _, block, next⟩, middle⟩
      · rw [first] at lengths
        rw [cryptFront_of_error same first, List.length_append, List.length_append, lengths.1, same]
        exact ⟨rfl, lengths.2.trans chainSize⟩
      · rw [first] at lengths
        obtain ⟨length, last⟩ := ih (lengths.2.trans chainSize) moreSize middle
        rw [cryptFront_of_ok same first, List.length_append, List.length_append, lengths.1, same,
          length]
        exact ⟨rfl, last⟩

/-- The blocks before succeed by themselves and the next one fails: so does the whole, where it
stands. -/
theorem cryptFront_stops (clean : cipher.FailsClean) {before : Nat} (more : Nat)
    {front block : Bytes} (rest : Bytes) (chainSize : chain.length = cipher.blockSize)
    (frontSize : front.length = cipher.blockSize * before)
    (blockSize : block.length = cipher.blockSize) {output next : Bytes} {middle : σ}
    (succeeds : cryptFront cipher direction before chain front state =
      ((.ok (), output, next), middle))
    (fails : (cryptBlock cipher direction next block middle).1.1 = .error error) :
    (cryptFront cipher direction (before + (more + 1)) chain (front ++ (block ++ rest)) state).1 =
      (.error error, output ++ (block ++ rest), next) := by
  induction before generalizing chain front output state with
  | zero =>
      cases List.eq_nil_of_length_eq_zero frontSize
      cases succeeds
      have kept := cryptBlock_of_error clean fails
      rcases first : cryptBlock cipher direction next block middle with ⟨⟨result, left, last⟩, final⟩
      rw [first] at fails kept
      cases fails
      cases kept
      rw [Nat.zero_add, List.nil_append, cryptFront_of_error (blockSize.trans chainSize.symm) first]
  | succ before ih =>
      obtain ⟨read, others, rfl, readSize, othersSize⟩ := cut_front frontSize
      have same : read.length = chain.length := readSize.trans chainSize.symm
      have lengths := length_cryptBlock cipher direction same state
      rcases first : cryptBlock cipher direction chain read state with ⟨⟨_ | _, left, last⟩, final⟩
      · rw [cryptFront_of_error same first] at succeeds
        cases succeeds
      · rw [first] at lengths
        rw [cryptFront_of_ok same first] at succeeds
        rcases later : cryptFront cipher direction before last others final with
          ⟨⟨result, remaining, end'⟩, ending⟩
        rw [later] at succeeds
        cases succeeds
        rw [Nat.succ_add, List.append_assoc, cryptFront_of_ok same first,
          ih (lengths.2.trans chainSize) othersSize later, List.append_assoc]

/-- A buffer that fails does so at some block. -/
theorem exists_stop (chainSize : chain.length = cipher.blockSize) {buffer : Bytes}
    (whole : buffer.length = cipher.blockSize * count)
    (failed : (cryptFront cipher direction count chain buffer state).1.1 = .error error) :
    ∃ before more front block rest output next middle, count = before + (more + 1) ∧
      buffer = front ++ (block ++ rest) ∧ front.length = cipher.blockSize * before ∧
      block.length = cipher.blockSize ∧
      cryptFront cipher direction before chain front state = ((.ok (), output, next), middle) ∧
      (cryptBlock cipher direction next block middle).1.1 = .error error := by
  induction count generalizing chain buffer state with
  | zero => cases failed
  | succ count ih =>
      obtain ⟨read, others, rfl, readSize, othersSize⟩ := cut_front whole
      have same : read.length = chain.length := readSize.trans chainSize.symm
      have lengths := length_cryptBlock cipher direction same state
      rcases first : cryptBlock cipher direction chain read state with ⟨⟨_ | _, left, last⟩, final⟩
      · rw [cryptFront_of_error same first] at failed
        exact ⟨0, count, [], read, others, [], chain, state, (Nat.zero_add _).symm, rfl, rfl,
          readSize, rfl, by rw [first]; exact failed⟩
      · rw [first] at lengths
        rw [cryptFront_of_ok same first] at failed
        obtain ⟨before, more, front, block, rest, output, next, middle, rfl, rfl, frontSize,
          blockSize, succeeds, fails⟩ := ih (lengths.2.trans chainSize) othersSize failed
        refine ⟨before + 1, more, read ++ front, block, rest, left ++ output, next, middle,
          (Nat.succ_add _ _).symm, (List.append_assoc ..).symm, ?_, blockSize, ?_, fails⟩
        · rw [List.length_append, readSize, frontSize, Nat.mul_succ, Nat.add_comm]
        · rw [cryptFront_of_ok same first, succeeds]

/-! ## Calls that fail -/

/-- The call on so many blocks at the front of the input, by themselves. -/
def onFront (cipher : BlockCipher σ) (stream : Cbc) (input : Bytes) (count : Nat) (state : σ) :
    (Except Fault Unit × Bytes × Cbc) × σ :=
  stream.cryptInPlace cipher (input.take (cipher.blockSize * count)) state

/-- The blocks before a block succeed by themselves, and from there the call on that block by
itself fails. -/
structure StopsAt (cipher : BlockCipher σ) (stream : Cbc) (input : Bytes) (state : σ)
    (count : Nat) (error : CipherError) : Prop where
  inside : cipher.blockSize * count < input.length
  before : (onFront cipher stream input count state).1.1 = .ok ()
  fails : ((onFront cipher stream input count state).1.2.2.cryptInPlace cipher
    (blockAt cipher.blockSize input count) (onFront cipher stream input count state).2).1.1 =
      .error (.error error)

/-- What a call that stopped at a block leaves: the blocks before are written, the others and what
is beyond them are as they were, and the stream is where the blocks before it ended. -/
structure Leaves (cipher : BlockCipher σ) (stream : Cbc) (piece : Piece) (state : σ)
    (count : Nat) (written : Bytes) (next : Cbc) : Prop where
  length_eq : (onFront cipher stream piece.input count state).1.2.1.length =
    cipher.blockSize * count
  written_eq : written = (onFront cipher stream piece.input count state).1.2.1 ++
    piece.input.drop (cipher.blockSize * count) ++ piece.beyond
  next_eq : next = (onFront cipher stream piece.input count state).1.2.2

section

variable {stream next : Cbc} {piece : Piece} {written : Bytes} {fault : Fault}

theorem process_eq (positive : 0 < cipher.blockSize) (sized : stream.blockSize = cipher.blockSize)
    (fits : piece.Fits cipher.blockSize) (length : piece.input.length = cipher.blockSize * count)
    (state : σ) :
    let front := cryptFront cipher stream.direction count stream.chain piece.input state
    piece.process cipher stream state =
      ((front.1.1.mapError .error, front.1.2.1 ++ piece.beyond, ⟨stream.direction, front.1.2.2⟩),
        front.2) :=
  process_of_front positive sized fits length rfl

theorem fits_inPlace {size : Nat} {buffer : Bytes} (length : buffer.length = size * count) :
    (Piece.inPlace buffer).Fits size :=
  (congrArg (· % size) length).trans (Nat.mul_mod_right ..)

theorem cryptInPlace_eq (positive : 0 < cipher.blockSize)
    (sized : stream.blockSize = cipher.blockSize) {buffer : Bytes}
    (length : buffer.length = cipher.blockSize * count) (state : σ) :
    let front := cryptFront cipher stream.direction count stream.chain buffer state
    stream.cryptInPlace cipher buffer state =
      ((front.1.1.mapError .error, front.1.2.1, ⟨stream.direction, front.1.2.2⟩), front.2) := by
  have processed := process_eq positive sized (fits_inPlace length) length state
  simp only [Piece.beyond, List.append_nil] at processed
  exact processed

theorem result_of_one (blockSize : block.length = chain.length) :
    (cryptFront cipher direction 1 chain block state).1.1 =
      (cryptBlock cipher direction chain block state).1.1 := by
  rcases first : cryptBlock cipher direction chain block state with ⟨⟨_ | _, left, last⟩, final⟩
  · rw [← List.append_nil block, cryptFront_of_error blockSize first]
  · rw [← List.append_nil block, cryptFront_of_ok blockSize first]
    rfl

theorem Piece.Fits.counted {size : Nat} (fits : piece.Fits size) :
    piece.input.length = size * (piece.input.length / size) :=
  (Nat.mul_div_cancel' (Nat.dvd_of_mod_eq_zero fits.whole)).symm

theorem stopsAt_of_error (positive : 0 < cipher.blockSize)
    (sized : stream.blockSize = cipher.blockSize) (fits : piece.Fits cipher.blockSize)
    (failed : (piece.process cipher stream state).1.1 = .error fault) :
    ∃ error count, fault = .error error ∧ StopsAt cipher stream piece.input state count error := by
  have total := fits.counted
  rw [process_eq positive sized fits total] at failed
  rcases result : (cryptFront cipher stream.direction (piece.input.length / cipher.blockSize)
    stream.chain piece.input state).1.1 with error | _
  · rw [result] at failed
    cases failed
    obtain ⟨before, more, front, block, rest, output, next, middle, -, input_eq, frontSize,
      blockSize, succeeds, fails⟩ := exists_stop sized total result
    refine ⟨error, before, rfl, ?_⟩
    have length_next : Cbc.blockSize ⟨stream.direction, next⟩ = cipher.blockSize := by
      have lengths := length_cryptFront cipher stream.direction sized frontSize state
      rw [succeeds] at lengths
      exact lengths.2
    have onFront_eq : onFront cipher stream piece.input before state =
        ((.ok (), output, ⟨stream.direction, next⟩), middle) := by
      rw [onFront, input_eq, List.take_left' frontSize, cryptInPlace_eq positive sized frontSize,
        succeeds]
      rfl
    constructor
    · rw [input_eq, List.length_append, List.length_append, frontSize, blockSize]
      omega
    · rw [onFront_eq]
    · have single : block.length = cipher.blockSize * 1 := blockSize.trans (Nat.mul_one _).symm
      rw [onFront_eq, blockAt, input_eq, List.drop_left' frontSize, List.take_left' blockSize,
        cryptInPlace_eq positive length_next single,
        result_of_one (blockSize.trans length_next.symm), fails]
      rfl
  · rw [result] at failed
    cases failed

/-- The input of a call that stopped, at its block. -/
theorem StopsAt.cut {input : Bytes} {total : Nat}
    (stops : StopsAt cipher stream input state count error)
    (whole : input.length = cipher.blockSize * total) :
    ∃ more front block rest, total = count + (more + 1) ∧ input = front ++ (block ++ rest) ∧
      front.length = cipher.blockSize * count ∧ block.length = cipher.blockSize ∧
      input.take (cipher.blockSize * count) = front ∧
      input.drop (cipher.blockSize * count) = block ++ rest ∧
      blockAt cipher.blockSize input count = block := by
  have inside := stops.inside
  rw [whole] at inside
  obtain ⟨more, rfl⟩ := Nat.exists_eq_add_of_lt (Nat.lt_of_mul_lt_mul_left inside)
  rw [Nat.add_assoc, Nat.mul_add, Nat.mul_succ] at whole
  have dropped : (input.drop (cipher.blockSize * count)).length =
      cipher.blockSize * more + cipher.blockSize := by
    rw [List.length_drop, whole]
    omega
  refine ⟨more, _, _, _, Nat.add_assoc .., ?_, List.length_take_of_le (by omega),
    List.length_take_of_le (by rw [dropped]; omega), rfl,
    (List.take_append_drop cipher.blockSize _).symm, rfl⟩
  rw [List.take_append_drop, List.take_append_drop]

theorem leaves_of_stop (positive : 0 < cipher.blockSize) (clean : cipher.FailsClean)
    (sized : stream.blockSize = cipher.blockSize) (fits : piece.Fits cipher.blockSize)
    (stops : StopsAt cipher stream piece.input state count error) :
    ∃ written next, (piece.process cipher stream state).1 =
      (.error (.error error), written, next) ∧
      Leaves cipher stream piece state count written next := by
  have total := fits.counted
  obtain ⟨more, front, block, rest, total_eq, input_eq, frontSize, blockSize, taken, dropped, at'⟩ :=
    stops.cut total
  have before := stops.before
  have fails := stops.fails
  have lengths := length_cryptFront cipher stream.direction sized frontSize state
  rcases succeeds : cryptFront cipher stream.direction count stream.chain front state with
    ⟨⟨_ | _, output, last⟩, middle⟩
  · rw [onFront, taken, cryptInPlace_eq positive sized frontSize, succeeds] at before
    cases before
  · have onFront_eq : onFront cipher stream piece.input count state =
        ((.ok (), output, ⟨stream.direction, last⟩), middle) := by
      rw [onFront, taken, cryptInPlace_eq positive sized frontSize, succeeds]
      rfl
    rw [succeeds] at lengths
    have single : block.length = cipher.blockSize * 1 := blockSize.trans (Nat.mul_one _).symm
    have length_last : Cbc.blockSize ⟨stream.direction, last⟩ = cipher.blockSize := lengths.2
    rw [onFront_eq, at', cryptInPlace_eq positive length_last single,
      result_of_one (blockSize.trans length_last.symm)] at fails
    rcases failed : (cryptBlock cipher stream.direction last block middle).1.1 with cause | _
    · rw [failed] at fails
      cases fails
      have stopped := cryptFront_stops clean more rest sized frontSize blockSize succeeds failed
      rw [← total_eq, ← input_eq] at stopped
      refine ⟨output ++ (block ++ rest) ++ piece.beyond, ⟨stream.direction, last⟩, ?_, ?_, ?_, ?_⟩
      · rw [process_eq positive sized fits total, stopped]
        rfl
      · rw [onFront_eq]
        exact lengths.1.trans frontSize
      · rw [onFront_eq, dropped]
      · rw [onFront_eq]
    · rw [failed] at fails
      cases fails

end

/-! ## Going on -/

/-- The input is processed call by call from the stream on, each from any steady state and by
either entry point. A call that failed at a block is followed by calls on what its buffer holds
from that block on and on what comes after it. -/
inductive Persists (cipher : BlockCipher σ) (steady : σ → Prop) :
    (stream : Cbc) → (input output : Bytes) → (last : Cbc) → Prop
  | finished (stream : Cbc) : Persists cipher steady stream [] [] stream
  | processed {stream next last : Cbc} {piece : Piece} {state : σ}
      {written more output : Bytes} (fits : piece.Fits cipher.blockSize) (ready : steady state)
      (succeeded : (piece.process cipher stream state).1 = (.ok (), written, next))
      (others : Persists cipher steady next more output last) :
      Persists cipher steady stream (piece.input ++ more)
        (written.take piece.input.length ++ output) last
  | failed {stream next last : Cbc} {piece : Piece} {state : σ} {count : Nat}
      {error : CipherError} {written more output : Bytes} (fits : piece.Fits cipher.blockSize)
      (ready : steady state)
      (refused : (piece.process cipher stream state).1 = (.error (.error error), written, next))
      (stops : StopsAt cipher stream piece.input state count error)
      (others : Persists cipher steady next
        ((written.take piece.input.length).drop (cipher.blockSize * count) ++ more) output last) :
      Persists cipher steady stream (piece.input ++ more)
        (written.take (cipher.blockSize * count) ++ output) last

/-- A stream comes from an input to an output and another stream through a function. -/
structure Chains (function : Bytes → Bytes) (size : Nat) (stream : Cbc) (input output : Bytes)
    (last : Cbc) : Prop where
  whole : ∃ count, input.length = size * count ∧
    chainBlocks stream.direction function size count stream.chain input = (output, last.chain)
  direction_eq : last.direction = stream.direction

namespace Chains

variable {size : Nat} {stream middle last : Cbc} {input more output others : Bytes}

theorem trans (first : Chains function size stream input output middle)
    (later : Chains function size middle more others last) :
    Chains function size stream (input ++ more) (output ++ others) last := by
  obtain ⟨before, length, written⟩ := first.whole
  obtain ⟨after, lengthMore, writtenMore⟩ := later.whole
  rw [first.direction_eq] at writtenMore
  refine ⟨⟨before + after, ?_, ?_⟩, later.direction_eq.trans first.direction_eq⟩
  · rw [List.length_append, length, lengthMore, Nat.mul_add]
  · rw [chainBlocks_append _ _ _ _ length, written]
    simp only [writtenMore]

theorem unique (positive : 0 < size) (chains : Chains function size stream input output last)
    (alike : Chains function size stream input others middle) : (output, last) = (others, middle) := by
  obtain ⟨count, length, written⟩ := chains.whole
  obtain ⟨same, length', written'⟩ := alike.whole
  cases Nat.eq_of_mul_eq_mul_left positive (length.symm.trans length')
  obtain ⟨rfl, chain⟩ := Prod.mk.inj (written.symm.trans written')
  have direction := chains.direction_eq.trans alike.direction_eq.symm
  cases last
  cases middle
  cases chain
  cases direction
  rfl

end Chains

section

variable {stream next last : Cbc} {piece : Piece} {input written output : Bytes}

theorem process_chains (positive : 0 < cipher.blockSize)
    (computes : cipher.Computes stream.direction function steady) (ready : steady state)
    (sized : stream.blockSize = cipher.blockSize) (fits : piece.Fits cipher.blockSize)
    (succeeded : (piece.process cipher stream state).1 = (.ok (), written, next)) :
    ∃ output, written = output ++ piece.beyond ∧ output.length = piece.input.length ∧
      next.blockSize = cipher.blockSize ∧
      Chains function cipher.blockSize stream piece.input output next := by
  have total := fits.counted
  obtain ⟨-, output_eq⟩ := cryptFront_computes computes ready sized total
  have lengths := length_cryptFront cipher stream.direction sized total state
  rw [process_eq positive sized fits total] at succeeded
  rcases ran : cryptFront cipher stream.direction (piece.input.length / cipher.blockSize)
    stream.chain piece.input state with ⟨⟨_ | _, output, chain⟩, final⟩
  · rw [ran] at succeeded
    cases succeeded
  · rw [ran] at succeeded lengths output_eq
    cases succeeded
    exact ⟨output, rfl, lengths.1, lengths.2, ⟨_, total, (output_eq rfl).symm⟩, rfl⟩

theorem cryptInPlace_chains (positive : 0 < cipher.blockSize)
    (computes : cipher.Computes stream.direction function steady) (ready : steady state)
    (sized : stream.blockSize = cipher.blockSize) (length : input.length = cipher.blockSize * count)
    (succeeded : (stream.cryptInPlace cipher input state).1.1 = .ok ()) :
    (stream.cryptInPlace cipher input state).1.2.2.blockSize = cipher.blockSize ∧
      Chains function cipher.blockSize stream input (stream.cryptInPlace cipher input state).1.2.1
        (stream.cryptInPlace cipher input state).1.2.2 := by
  rcases ran : (stream.cryptInPlace cipher input state).1 with ⟨_ | _, written, next⟩
  · rw [ran] at succeeded
    cases succeeded
  · obtain ⟨output, rfl, -, nextSize, chains⟩ :=
      process_chains positive computes ready sized (fits_inPlace length) ran
    rw [Piece.beyond, List.append_nil]
    exact ⟨nextSize, chains⟩

theorem Leaves.front_eq (leaves : Leaves cipher stream piece state count written next) :
    written.take (cipher.blockSize * count) =
      (onFront cipher stream piece.input count state).1.2.1 := by
  rw [leaves.written_eq, List.append_assoc, List.take_left' leaves.length_eq]

theorem Leaves.rest_eq (leaves : Leaves cipher stream piece state count written next)
    (inside : cipher.blockSize * count < piece.input.length) :
    (written.take piece.input.length).drop (cipher.blockSize * count) =
      piece.input.drop (cipher.blockSize * count) := by
  have length : ((onFront cipher stream piece.input count state).1.2.1 ++
      piece.input.drop (cipher.blockSize * count)).length = piece.input.length := by
    rw [List.length_append, leaves.length_eq, List.length_drop]
    omega
  rw [leaves.written_eq, List.take_left' length, List.drop_left' leaves.length_eq]

theorem Leaves.chains (leaves : Leaves cipher stream piece state count written next)
    (positive : 0 < cipher.blockSize)
    (computes : cipher.Computes stream.direction function steady) (ready : steady state)
    (sized : stream.blockSize = cipher.blockSize)
    (stops : StopsAt cipher stream piece.input state count error) :
    next.blockSize = cipher.blockSize ∧
      Chains function cipher.blockSize stream (piece.input.take (cipher.blockSize * count))
        (written.take (cipher.blockSize * count)) next := by
  rw [leaves.front_eq, leaves.next_eq]
  exact cryptInPlace_chains positive computes ready sized
    (List.length_take_of_le (Nat.le_of_lt stops.inside)) stops.before

theorem chains_of_persists (positive : 0 < cipher.blockSize) (clean : cipher.FailsClean)
    (persists : Persists cipher steady stream input output last)
    (sized : stream.blockSize = cipher.blockSize)
    (computes : cipher.Computes stream.direction function steady) :
    Chains function cipher.blockSize stream input output last := by
  induction persists with
  | finished stream => exact ⟨⟨0, rfl, rfl⟩, rfl⟩
  | processed fits ready succeeded others ih =>
      obtain ⟨output, rfl, length, nextSize, chains⟩ :=
        process_chains positive computes ready sized fits succeeded
      rw [List.take_left' length]
      exact chains.trans (ih nextSize (chains.direction_eq ▸ computes))
  | @failed stream next last piece state count error written more output fits ready refused stops
      others ih =>
      obtain ⟨_, _, answered, leaves⟩ := leaves_of_stop positive clean sized fits stops
      cases refused.symm.trans answered
      obtain ⟨nextSize, chains⟩ := leaves.chains positive computes ready sized stops
      rw [leaves.rest_eq stops.inside] at ih
      have whole := chains.trans (ih nextSize (chains.direction_eq ▸ computes))
      rwa [← List.append_assoc, List.take_append_drop] at whole

/-- A call that fails stops with an error of the cipher at a block and leaves the blocks from there
on. If the cipher computes one function whenever it succeeds, the blocks before are chained through
it. Going on from there, with any failures, then chains the whole input through it, and gives what a
run that succeeds gives, on this cipher or on any other that computes the function. -/
theorem goes_on_where_it_failed (positive : 0 < cipher.blockSize) (clean : cipher.FailsClean)
    (sized : stream.blockSize = cipher.blockSize) :
    (∀ piece state fault written next, piece.Fits cipher.blockSize →
      (piece.process cipher stream state).1 = (.error fault, written, next) →
        ∃ error count, fault = .error error ∧
          StopsAt cipher stream piece.input state count error ∧
          Leaves cipher stream piece state count written next ∧
          ∀ function steady, cipher.Computes stream.direction function steady → steady state →
            Chains function cipher.blockSize stream (piece.input.take (cipher.blockSize * count))
              (written.take (cipher.blockSize * count)) next) ∧
    ∀ function steady, cipher.Computes stream.direction function steady →
      ∀ input output last, Persists cipher steady stream input output last →
        Chains function cipher.blockSize stream input output last ∧
        ∀ (τ : Type) (calm : BlockCipher τ) (still : τ → Prop) (start : τ),
          calm.blockSize = cipher.blockSize → calm.Computes stream.direction function still →
          still start → (stream.cryptInPlace calm input start).1.1 = .ok () →
            (stream.cryptInPlace calm input start).1.2 = (output, last) := by
  constructor
  · intro piece state fault written next fits failed
    obtain ⟨error, count, rfl, stops⟩ :=
      stopsAt_of_error positive sized fits (congrArg Prod.fst failed)
    obtain ⟨_, _, answered, leaves⟩ := leaves_of_stop positive clean sized fits stops
    cases failed.symm.trans answered
    exact ⟨error, count, rfl, stops, leaves, fun _ _ computes ready =>
      (leaves.chains positive computes ready sized stops).2⟩
  · intro function steady computes input output last persists
    have chains := chains_of_persists positive clean persists sized computes
    refine ⟨chains, ?_⟩
    intro τ calm still start calmSize calmly ready succeeded
    obtain ⟨count, length, -⟩ := chains.whole
    rw [← calmSize] at positive sized length chains
    obtain ⟨-, alike⟩ := cryptInPlace_chains positive calmly ready sized length succeeded
    exact alike.unique positive chains

end

end Cbc

/-! ## A cipher that fails at times -/

namespace RotatingCipher

theorem failsClean (cipher : RotatingCipher) : cipher.blockCipher.FailsClean := by
  intro direction source destination made error failed
  simp only [blockCipher, transform] at failed ⊢
  split at failed
  · rw [if_pos ‹_›]
  · cases failed

theorem computes (cipher : RotatingCipher) (direction : Direction) :
    cipher.blockCipher.Computes direction
      (match direction with
        | .encrypt => cipher.encrypt
        | .decrypt => cipher.decrypt)
      fun _ => True where
  output_eq source destination made _ room _ succeeded := by
    have calm := @transform_of_whole { cipher with failsAt := [] } rfl direction source destination
      room made
    simp only [blockCipher, transform] at succeeded ⊢
    split at succeeded
    · cases succeeded
    · rw [if_neg ‹_›]
      cases direction with
      | encrypt => exact congrArg (·.1.2) calm
      | decrypt => exact congrArg (·.1.2) calm
  stays _ _ _ _ _ _ := trivial

end RotatingCipher

namespace Cbc

/-- Three blocks over a cipher whose second and fourth calls fail: the first attempt stops at the
second block, the next, into a destination, at the third, and the last ends the message. -/
theorem goes_on_after_two_failures :
    (∃ error, StopsAt (RotatingCipher.blockCipher ⟨3, 5, [2, 4]⟩) ⟨.encrypt, [7, 8, 9]⟩
      [1, 2, 3, 4, 5, 6, 7, 8, 9] 0 1 error) ∧
    ∃ output last, Persists (RotatingCipher.blockCipher ⟨3, 5, [2, 4]⟩) (fun _ => True)
        ⟨.encrypt, [7, 8, 9]⟩ [1, 2, 3, 4, 5, 6, 7, 8, 9] output last ∧
      (cryptInPlace (RotatingCipher.blockCipher ⟨3, 5, []⟩) ⟨.encrypt, [7, 8, 9]⟩
        [1, 2, 3, 4, 5, 6, 7, 8, 9] 0).1.2 = (output, last) := by
  have stops : StopsAt (RotatingCipher.blockCipher ⟨3, 5, [2, 4]⟩) ⟨.encrypt, [7, 8, 9]⟩
      [1, 2, 3, 4, 5, 6, 7, 8, 9] 0 1 (.backend ⟨"ToyEncrypt", .invalidParameter⟩) :=
    ⟨by decide, rfl, rfl⟩
  have stopsAgain : StopsAt (RotatingCipher.blockCipher ⟨3, 5, [2, 4]⟩) ⟨.encrypt, [15, 16, 13]⟩
      [4, 5, 6, 7, 8, 9] 2 1 (.backend ⟨"ToyEncrypt", .invalidParameter⟩) :=
    ⟨by decide, rfl, rfl⟩
  have ends : Persists (RotatingCipher.blockCipher ⟨3, 5, [2, 4]⟩) (fun _ => True)
      ⟨.encrypt, [26, 17, 18]⟩ [7, 8, 9] [30, 33, 36] ⟨.encrypt, [30, 33, 36]⟩ :=
    @Persists.processed _ _ _ _ _ _ (.inPlace [7, 8, 9]) 4 [30, 33, 36] [] [] rfl trivial rfl
      (.finished _)
  have goesOn : Persists (RotatingCipher.blockCipher ⟨3, 5, [2, 4]⟩) (fun _ => True)
      ⟨.encrypt, [15, 16, 13]⟩ [4, 5, 6, 7, 8, 9] [26, 17, 18, 30, 33, 36] ⟨.encrypt, [30, 33, 36]⟩ :=
    @Persists.failed _ _ _ _ ⟨.encrypt, [26, 17, 18]⟩ _
      (.into [4, 5, 6, 7, 8, 9] [0, 0, 0, 0, 0, 0, 42]) 2 1 _ [26, 17, 18, 7, 8, 9, 42] [] [30, 33, 36]
      ⟨rfl, by decide⟩ trivial rfl stopsAgain ends
  have persists : Persists (RotatingCipher.blockCipher ⟨3, 5, [2, 4]⟩) (fun _ => True)
      ⟨.encrypt, [7, 8, 9]⟩ [1, 2, 3, 4, 5, 6, 7, 8, 9] [15, 16, 13, 26, 17, 18, 30, 33, 36]
      ⟨.encrypt, [30, 33, 36]⟩ :=
    @Persists.failed _ _ _ _ ⟨.encrypt, [15, 16, 13]⟩ _ (.inPlace [1, 2, 3, 4, 5, 6, 7, 8, 9]) 0 1 _
      [15, 16, 13, 4, 5, 6, 7, 8, 9] [] [26, 17, 18, 30, 33, 36] rfl trivial rfl stops goesOn
  obtain ⟨-, resumes⟩ := goes_on_where_it_failed (by decide)
    (RotatingCipher.failsClean ⟨3, 5, [2, 4]⟩) (rfl : Cbc.blockSize ⟨.encrypt, [7, 8, 9]⟩ = 3)
  obtain ⟨-, calmly⟩ := resumes _ _ (RotatingCipher.computes _ .encrypt) _ _ _ persists
  exact ⟨⟨_, stops⟩, _, _, persists, calmly Nat (RotatingCipher.blockCipher ⟨3, 5, []⟩)
    (fun _ => True) 0 rfl (RotatingCipher.computes ⟨3, 5, []⟩ .encrypt) trivial rfl⟩

end Cbc

end CipherModes
