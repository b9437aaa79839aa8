import CipherModes.Proofs.Cbc.Blocks

/-!
# Messages in pieces

However a message is cut into pieces of whole blocks, and whichever of the two
calls processes a piece, a stream writes the same ciphertext; and from any cut of
the ciphertext the other direction gives the message back.
-/

set_option autoImplicit false

namespace CipherModes.Cbc

variable {σ : Type}

/-! ## Calls on a stream -/

/-- A call on a stream: on a buffer in place, or from a source into a destination. -/
inductive Piece
  | inPlace (buffer : Bytes)
  | into (source destination : Bytes)
  deriving DecidableEq, Repr

namespace Piece

def input : Piece → Bytes
  | inPlace buffer => buffer
  | into source _ => source

/-- What a destination holds beyond the length of the source. -/
def beyond : Piece → Bytes
  | inPlace _ => []
  | into source destination => destination.drop source.length

/-- The input is whole blocks, and a destination is at least as long. -/
def Fits (size : Nat) : Piece → Prop
  | inPlace buffer => buffer.length % size = 0
  | into source destination => source.length % size = 0 ∧ source.length ≤ destination.length

def process (cipher : BlockCipher σ) (stream : Cbc) :
    Piece → StateM σ (Except Fault Unit × Bytes × Cbc)
  | inPlace buffer => stream.cryptInPlace cipher buffer
  | into source destination => stream.crypt cipher source destination

theorem Fits.whole {size : Nat} {piece : Piece} (fits : piece.Fits size) :
    piece.input.length % size = 0 := by
  cases piece with
  | inPlace buffer => exact fits
  | into source destination => exact fits.1

end Piece

/-- The pieces of a text: each is whole blocks. -/
structure Cut (size : Nat) (pieces : List Piece) (text : Bytes) : Prop where
  fits : ∀ piece ∈ pieces, piece.Fits size
  text_eq : (pieces.map Piece.input).flatten = text

/-- Processes one piece after another: what each call answers and the stream after it. -/
def processAll (cipher : BlockCipher σ) :
    Cbc → List Piece → StateM σ (List (Except Fault Unit × Bytes × Cbc))
  | _, [] => return []
  | stream, piece :: rest => do
      let answer ← piece.process cipher stream
      let later ← processAll cipher answer.2.2 rest
      return answer :: later

/-- What calls wrote over the length of their inputs, one after another. -/
def written (pieces : List Piece) (answers : List (Except Fault Unit × Bytes × Cbc)) : Bytes :=
  (List.zipWith (fun piece answer => answer.2.1.take piece.input.length) pieces answers).flatten

def lastBlock (size : Nat) (bytes : Bytes) : Bytes := bytes.drop (bytes.length - size)

/-- The answers of calls that succeed: each writes its part of the output, leaves what is beyond
it alone, and chains the stream to the last block of the ciphertext so far, whose beginning is
the past of the stream. -/
def answers (direction : Direction) (size : Nat) :
    (past ciphertext output : Bytes) → List Piece → List (Except Fault Unit × Bytes × Cbc)
  | _, _, _, [] => []
  | past, ciphertext, output, piece :: rest =>
      let length := piece.input.length
      let past := past ++ ciphertext.take length
      (.ok (), output.take length ++ piece.beyond, { direction, chain := lastBlock size past }) ::
        answers direction size past (ciphertext.drop length) (output.drop length) rest

theorem written_answers {direction : Direction} {size : Nat} {past ciphertext output : Bytes}
    {pieces : List Piece} (covered : (pieces.map Piece.input).flatten.length = output.length) :
    written pieces (answers direction size past ciphertext output pieces) = output := by
  induction pieces generalizing past ciphertext output with
  | nil => exact (List.eq_nil_of_length_eq_zero covered.symm).symm
  | cons piece rest ih =>
      rw [List.map_cons, List.flatten_cons, List.length_append] at covered
      have front : piece.input.length ≤ output.length := by omega
      have back : (rest.map Piece.input).flatten.length =
          (output.drop piece.input.length).length := by
        rw [List.length_drop]
        omega
      have later : written rest (answers direction size
          (past ++ ciphertext.take piece.input.length) (ciphertext.drop piece.input.length)
          (output.drop piece.input.length) rest) = output.drop piece.input.length := ih back
      rw [written] at later
      rw [written, answers, List.zipWith_cons_cons, List.flatten_cons, later,
        List.take_left' (List.length_take_of_le front), List.take_append_drop]

/-! ## One piece -/

theorem lastBlock_append_flatten {size : Nat} {past chain : Bytes} {blocks : List Bytes}
    (uniform : Bytes.Uniform size blocks) (last : lastBlock size past = chain) :
    lastBlock size (past ++ blocks.flatten) = blocks.getLastD chain := by
  induction blocks generalizing past chain with
  | nil => rwa [List.flatten_nil, List.append_nil]
  | cons block rest ih =>
      have size_eq := uniform block List.mem_cons_self
      have first : lastBlock size (past ++ block) = block := by
        rw [lastBlock, List.length_append, size_eq, Nat.add_sub_cancel, List.drop_left]
      rw [List.flatten_cons, ← List.append_assoc, List.getLastD_cons,
        ih (fun other member => uniform other (List.mem_cons_of_mem _ member)) first]

section

variable {cipher : BlockCipher σ} {encrypt decrypt : Bytes → Bytes} {steady : σ → Prop}
  {state next : σ} {stream : Cbc} {direction : Direction}

theorem process_of_front {piece : Piece} {size count : Nat} {chain output last : Bytes}
    {result : Except CipherError Unit} (positive : 0 < size) (chainSize : chain.length = size)
    (fits : piece.Fits size) (length : piece.input.length = size * count)
    (ran : cryptFront cipher direction count chain piece.input state =
      ((result, output, last), next)) :
    piece.process cipher ⟨direction, chain⟩ state =
      ((result.mapError .error, output ++ piece.beyond, ⟨direction, last⟩), next) := by
  subst chainSize
  have counted : piece.input.length / chain.length = count := by
    rw [length, Nat.mul_div_cancel_left _ positive]
  have accepted : refusal? ⟨direction, chain⟩ piece.input = none := by
    rw [refusal?, blockSize, if_neg (Nat.ne_of_gt positive), if_neg (not_not_intro fits.whole)]
  have inPlace : cryptInPlace cipher ⟨direction, chain⟩ piece.input state =
      ((result.mapError .error, output, ⟨direction, last⟩), next) := by
    simp only [cryptInPlace, accepted, blockSize, counted, bind, StateT.bind, ran]
    rfl
  cases piece with
  | inPlace buffer =>
      rw [Piece.beyond, List.append_nil]
      exact inPlace
  | into source destination =>
      rw [Piece.input] at accepted inPlace
      simp only [Piece.process, crypt, accepted, if_neg (Nat.not_lt_of_le fits.2), bind,
        StateT.bind, inPlace]
      rfl

/-! ## All pieces -/

theorem processAll_cons {piece : Piece} {rest : List Piece} {middle final : σ}
    {answer : Except Fault Unit × Bytes × Cbc} {later : List (Except Fault Unit × Bytes × Cbc)}
    (first : piece.process cipher stream state = (answer, middle))
    (others : processAll cipher answer.2.2 rest middle = (later, final)) :
    processAll cipher stream (piece :: rest) state = (answer :: later, final) := by
  simp only [processAll, bind, StateT.bind, first, others]
  rfl

theorem length_reads {α : Type} {message ciphertext : List α} (direction : Direction)
    (same : ciphertext.length = message.length) :
    (direction.reads message ciphertext).length = message.length := by
  cases direction with
  | encrypt => rfl
  | decrypt => exact same

theorem uniform_reads {size : Nat} {message ciphertext : List Bytes} (direction : Direction)
    (plain : Bytes.Uniform size message) (encrypted : Bytes.Uniform size ciphertext) :
    Bytes.Uniform size (direction.reads message ciphertext) := by
  cases direction with
  | encrypt => exact plain
  | decrypt => exact encrypted

theorem length_flatten_reads {size : Nat} {message ciphertext : List Bytes}
    (direction : Direction) (same : ciphertext.length = message.length)
    (plain : Bytes.Uniform size message) (encrypted : Bytes.Uniform size ciphertext) :
    (direction.reads message ciphertext).flatten.length = size * message.length := by
  rw [(uniform_reads direction plain encrypted).length_flatten, length_reads direction same]

theorem length_flatten_writes {size : Nat} {message ciphertext : List Bytes}
    (direction : Direction) (same : ciphertext.length = message.length)
    (plain : Bytes.Uniform size message) (encrypted : Bytes.Uniform size ciphertext) :
    (direction.writes message ciphertext).flatten.length = size * message.length := by
  cases direction with
  | encrypt => exact same ▸ encrypted.length_flatten
  | decrypt => exact plain.length_flatten

/-- A piece at the front is the first of the blocks that are read. -/
theorem exists_front {size : Nat} {blocks : List Bytes} {input more : Bytes}
    (whole : input.length % size = 0) (uniform : Bytes.Uniform size blocks)
    (text : input ++ more = blocks.flatten) :
    ∃ count ≤ blocks.length, input.length = size * count := by
  have total : input.length + more.length = size * blocks.length := by
    rw [← uniform.length_flatten, ← text, List.length_append]
  refine ⟨input.length / size, Nat.div_le_of_le_mul (by omega), ?_⟩
  exact (Nat.mul_div_cancel' (Nat.dvd_of_mod_eq_zero whole)).symm

theorem processAll_of_invertible (positive : 0 < cipher.blockSize)
    (invertible : cipher.Invertible encrypt decrypt steady) (start : steady state)
    {blocks : List Bytes} (uniform : Bytes.Uniform cipher.blockSize blocks) {past chain : Bytes}
    (chainSize : chain.length = cipher.blockSize)
    (last : lastBlock cipher.blockSize past = chain) (direction : Direction)
    {pieces : List Piece} (cut : Cut cipher.blockSize pieces
      (direction.reads blocks (chained encrypt chain blocks)).flatten) :
    ∃ next, processAll cipher ⟨direction, chain⟩ pieces state =
      (answers direction cipher.blockSize past (chained encrypt chain blocks).flatten
        (direction.writes blocks (chained encrypt chain blocks)).flatten pieces, next) ∧
      steady next := by
  induction pieces generalizing state blocks past chain with
  | nil => exact ⟨state, rfl, start⟩
  | cons piece rest ih =>
      have fits := cut.fits piece List.mem_cons_self
      have text := cut.text_eq
      rw [List.map_cons, List.flatten_cons] at text
      have encrypted := uniform_chained invertible start chainSize uniform
      obtain ⟨count, within, size⟩ := exists_front fits.whole
        (uniform_reads direction uniform encrypted) text
      rw [length_reads direction (length_chained ..)] at within
      -- The first blocks are those of the piece, the others those of the pieces after it.
      obtain ⟨first, others, rfl, rfl⟩ : ∃ first others, blocks = first ++ others ∧
          count = first.length :=
        ⟨blocks.take count, blocks.drop count, (List.take_append_drop _ _).symm,
          (List.length_take_of_le within).symm⟩
      obtain ⟨firstUniform, othersUniform⟩ := Bytes.uniform_append.mp uniform
      rw [chained_append] at text encrypted ⊢
      obtain ⟨firstEncrypted, -⟩ := Bytes.uniform_append.mp encrypted
      have same := length_chained encrypt chain first
      obtain ⟨front, back⟩ := List.append_inj
        (text.trans (direction.flatten_reads_append _ _ _ _))
        (size.trans (length_flatten_reads direction same firstUniform firstEncrypted).symm)
      obtain ⟨middle, ran, stays⟩ :=
        cryptFront_of_invertible invertible start chainSize firstUniform direction
      rw [← front] at ran
      have processed := process_of_front positive chainSize fits size ran
      obtain ⟨next, later, ends⟩ := ih stays othersUniform
        (firstEncrypted.length_getLastD chainSize) (lastBlock_append_flatten firstEncrypted last)
        ⟨fun other member => cut.fits other (List.mem_cons_of_mem _ member), back⟩
      refine ⟨next, ?_, ends⟩
      have writes := length_flatten_writes direction same firstUniform firstEncrypted
      have ciphertext := firstEncrypted.length_flatten
      rw [same] at ciphertext
      rw [processAll_cons processed later, answers, direction.flatten_writes_append,
        List.flatten_append, size, List.take_left' ciphertext, List.drop_left' ciphertext,
        List.take_left' writes, List.drop_left' writes,
        lastBlock_append_flatten firstEncrypted last]
      rfl

end

/-! ## Ciphertexts -/

/-- The block of a number in a text. -/
def blockAt (size : Nat) (bytes : Bytes) (index : Nat) : Bytes :=
  (bytes.drop (size * index)).take size

/-- Each block of a ciphertext encrypts the block of the message together with the block before
it, the first one together with the initial block. -/
structure ChainedOf (encrypt : Bytes → Bytes) (size : Nat) (iv message ciphertext : Bytes) :
    Prop where
  length_eq : ciphertext.length = message.length
  block_eq : ∀ index, size * index < message.length →
    blockAt size ciphertext index =
      encrypt (Bytes.xor (blockAt size message index) (blockAt size (iv ++ ciphertext) index))

theorem blockAt_zero {size : Nat} {block : Bytes} (whole : block.length = size) (rest : Bytes) :
    blockAt size (block ++ rest) 0 = block := List.take_left' whole

theorem blockAt_succ {size : Nat} {block : Bytes} (whole : block.length = size) (rest : Bytes)
    (index : Nat) : blockAt size (block ++ rest) (index + 1) = blockAt size rest index := by
  rw [blockAt, Nat.mul_succ, Nat.add_comm, ← List.drop_drop, List.drop_left' whole, blockAt]

theorem chainedOf_chained {encrypt : Bytes → Bytes} {size : Nat} {chain : Bytes}
    {blocks : List Bytes} (chainSize : chain.length = size)
    (uniform : Bytes.Uniform size blocks)
    (encrypted : Bytes.Uniform size (chained encrypt chain blocks)) :
    ChainedOf encrypt size chain blocks.flatten (chained encrypt chain blocks).flatten := by
  constructor
  case length_eq => rw [uniform.length_flatten, encrypted.length_flatten, length_chained]
  case block_eq =>
    intro index within
    induction index generalizing chain blocks with
    | zero =>
        cases blocks with
        | nil => cases within
        | cons block rest =>
            rw [chained, List.flatten_cons, List.flatten_cons,
              blockAt_zero (encrypted _ List.mem_cons_self),
              blockAt_zero (uniform _ List.mem_cons_self), blockAt_zero chainSize]
    | succ index ih =>
        cases blocks with
        | nil => cases within
        | cons block rest =>
            have whole := uniform block List.mem_cons_self
            have next := encrypted (encrypt (Bytes.xor block chain)) List.mem_cons_self
            have later := ih next (fun other member => uniform other (List.mem_cons_of_mem _ member))
              (fun other member => encrypted other (List.mem_cons_of_mem _ member))
            rw [List.flatten_cons, List.length_append, whole, Nat.mul_succ] at within
            rw [chained, List.flatten_cons, List.flatten_cons, blockAt_succ next,
              blockAt_succ whole, blockAt_succ chainSize]
            exact later (by omega)

/-- Over a cipher whose calls succeed and of which one direction inverts the other, a message has
one ciphertext, into which an encrypting stream turns every cut of the message, and which a
decrypting stream turns back from every cut of the ciphertext. -/
theorem cuts_agree {cipher : BlockCipher σ} {encrypt decrypt : Bytes → Bytes}
    {steady : σ → Prop} (positive : 0 < cipher.blockSize)
    (invertible : cipher.Invertible encrypt decrypt steady) {initial : σ}
    (start : steady initial) {iv message : Bytes} (ivSize : iv.length = cipher.blockSize)
    (whole : message.length % cipher.blockSize = 0) :
    ∃ ciphertext, ChainedOf encrypt cipher.blockSize iv message ciphertext ∧
      ∀ direction, ∃ stream, Cbc.start cipher.blockSize direction iv = .ok stream ∧
        ∀ pieces, Cut cipher.blockSize pieces (direction.reads message ciphertext) →
          ∀ state, steady state → ∃ results next,
            processAll cipher stream pieces state = (results, next) ∧ steady next ∧
            results = answers direction cipher.blockSize iv ciphertext
              (direction.writes message ciphertext) pieces ∧
            written pieces results = direction.writes message ciphertext := by
  obtain ⟨blocks, uniform, rfl⟩ : ∃ blocks, Bytes.Uniform cipher.blockSize blocks ∧
      blocks.flatten = message := by
    have exact : cipher.blockSize * (message.length / cipher.blockSize) = message.length :=
      Nat.mul_div_cancel' (Nat.dvd_of_mod_eq_zero whole)
    refine ⟨Bytes.pieces cipher.blockSize (message.length / cipher.blockSize) message, ?_, ?_⟩
    · intro block member
      exact Bytes.length_of_mem_pieces (Nat.le_of_eq exact) member
    · rw [Bytes.flatten_pieces, exact, List.take_length]
  have encrypted := uniform_chained invertible start ivSize uniform
  have same := length_chained encrypt iv blocks
  have last : lastBlock cipher.blockSize iv = iv := by
    rw [lastBlock, ivSize, Nat.sub_self, List.drop_zero]
  refine ⟨_, chainedOf_chained ivSize uniform encrypted, ?_⟩
  intro direction
  refine ⟨⟨direction, iv⟩, by rw [Cbc.start, if_pos ivSize], ?_⟩
  intro pieces cut state ready
  rw [direction.reads_flatten] at cut
  obtain ⟨next, ran, ends⟩ :=
    processAll_of_invertible positive invertible ready uniform ivSize last direction cut
  rw [direction.writes_flatten]
  refine ⟨_, next, ran, ends, rfl, written_answers ?_⟩
  rw [cut.text_eq, length_flatten_reads direction same uniform encrypted,
    length_flatten_writes direction same uniform encrypted]

/-- Blocks of three bytes: a message of two blocks in three pieces, one of them empty and one
before two bytes that stay, and its ciphertext in one. -/
theorem cuts_agree_on_two_blocks :
    ∃ ciphertext,
      ChainedOf (RotatingCipher.encrypt ⟨3, 5, []⟩) 3 [7, 8, 9] [1, 2, 3, 4, 5, 6] ciphertext ∧
      (∃ results next, processAll (RotatingCipher.blockCipher ⟨3, 5, []⟩) ⟨.encrypt, [7, 8, 9]⟩
          [.inPlace [1, 2, 3], .into [] [42], .into [4, 5, 6] [0, 0, 0, 8, 9]] 0 =
        (results, next) ∧
        written [.inPlace [1, 2, 3], .into [] [42], .into [4, 5, 6] [0, 0, 0, 8, 9]] results =
          ciphertext) ∧
      ∃ results next, processAll (RotatingCipher.blockCipher ⟨3, 5, []⟩) ⟨.decrypt, [7, 8, 9]⟩
          [.inPlace ciphertext] 0 = (results, next) ∧
        written [.inPlace ciphertext] results = [1, 2, 3, 4, 5, 6] := by
  obtain ⟨ciphertext, chained, streams⟩ :=
    @cuts_agree Nat (RotatingCipher.blockCipher ⟨3, 5, []⟩) _ _ _ (by decide)
      (RotatingCipher.invertible rfl) 0 trivial [7, 8, 9] [1, 2, 3, 4, 5, 6] rfl (by decide)
  obtain ⟨encrypting, started, encrypts⟩ := streams .encrypt
  obtain ⟨decrypting, startedBack, decrypts⟩ := streams .decrypt
  cases started
  cases startedBack
  have cut : Cut 3 [.inPlace [1, 2, 3], .into [] [42], .into [4, 5, 6] [0, 0, 0, 8, 9]]
      [1, 2, 3, 4, 5, 6] := by
    constructor
    · simp [Piece.Fits]
    · rfl
  have whole : Cut 3 [.inPlace ciphertext] ciphertext := by
    constructor
    · simp [Piece.Fits, chained.length_eq]
    · simp [Piece.input]
  obtain ⟨results, next, ran, -, -, wrote⟩ := encrypts _ cut 0 trivial
  obtain ⟨back, last, ranBack, -, -, wroteBack⟩ := decrypts _ whole 0 trivial
  exact ⟨ciphertext, chained, ⟨results, next, ran, wrote⟩, back, last, ranBack, wroteBack⟩

end CipherModes.Cbc
