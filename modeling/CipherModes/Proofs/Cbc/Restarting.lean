import CipherModes.Proofs.Cbc.Resuming

/-!
# Restarting and random access

A stream keeps the block that it chains to and a block that it works in. What the
latter holds is overwritten before it is read, so a stream that is restarted cannot
be told from a fresh one, whatever was called on it before. And since decryption
chains to what it reads, it can start at any block of a ciphertext.
-/

set_option autoImplicit false

namespace CipherModes

variable {τ : Type}

/-- Any block cipher, as one whose calls never panic. -/
def BlockCipher.guarded (cipher : BlockCipher τ) : GuardedCipher τ where
  cipher := cipher
  attempt direction source := fun frame =>
    let ((result, buffer), world) := cipher.transform direction source frame.buffer frame.world
    (.ok result, ⟨world, buffer, ()⟩)
  attempt_of_full _ _ _ _ _ := rfl

/-- From steady states the calls on blocks succeed and compute one function, and the next state is
steady. -/
structure BlockCipher.Succeeds (cipher : BlockCipher τ) (direction : Direction)
    (function : Bytes → Bytes) (steady : τ → Prop) : Prop where
  called : ∀ source destination state, source.length = cipher.blockSize →
    destination.length = cipher.blockSize → steady state →
      ∃ next, cipher.transform direction source destination state =
        ((.ok (), function source), next) ∧ steady next

namespace BlockCipher.Succeeds

variable {cipher : BlockCipher τ} {direction : Direction} {function : Bytes → Bytes}
  {steady : τ → Prop} {state : τ}

theorem computes (succeeds : cipher.Succeeds direction function steady) :
    cipher.Computes direction function steady := by
  constructor
  case output_eq =>
    intro source destination state whole room ready _
    obtain ⟨next, called, -⟩ := succeeds.called source destination state whole room ready
    rw [called]
  case stays =>
    intro source destination state whole room ready
    obtain ⟨next, called, stays⟩ := succeeds.called source destination state whole room ready
    rwa [called]

theorem length_function (succeeds : cipher.Succeeds direction function steady)
    (ready : steady state) {block : Bytes} (whole : block.length = cipher.blockSize) :
    (function block).length = cipher.blockSize := by
  obtain ⟨next, called, -⟩ := succeeds.called block block state whole whole ready
  have kept := cipher.keepsLength direction block block state
  rw [called] at kept
  exact kept.trans whole

end BlockCipher.Succeeds

namespace Cbc

open Guarded

/-! ## What is asked of a stream and seen of it -/

/-- To process a piece, or to restart from another chaining block. -/
inductive Request
  | process (piece : Piece)
  | restart (iv : Bytes)

/-- How a call ends, what its buffer holds then, where the stream stands, and what has become of
the cipher. -/
structure Seen (τ : Type) where
  result : Except Panic (Except CipherError Unit)
  buffer : Bytes
  stream : Cbc
  world : τ

namespace Request

/-- The buffer that the call may write. -/
def buffer : Request → Bytes
  | process (.inPlace buffer) => buffer
  | process (.into _ destination) => destination
  | restart _ => []

def call (cipher : GuardedCipher τ) :
    Request → Guarded (Frame τ Held) (Except CipherError Unit)
  | process (.inPlace _) => cryptInPlaceGuarded cipher
  | process (.into source _) => cryptGuarded cipher source
  | restart iv => do
      restartGuarded iv
      return .ok ()

/-- The call on a stream while the cipher is in some state. -/
def make (cipher : GuardedCipher τ) (held : Held) (world : τ) (request : Request) :
    Except Panic (Except CipherError Unit) × Frame τ Held :=
  request.call cipher ⟨world, request.buffer, held⟩

/-- What the call does, as far as it does not depend on the block to work in. -/
def answer (cipher : BlockCipher τ) (stream : Cbc) (world : τ) :
    Request → (Except Fault Unit × Bytes × Cbc) × τ
  | process piece => piece.process cipher stream world
  | restart iv =>
      match stream.restart iv with
      | .ok next => ((.ok (), [], next), world)
      | .error precondition => ((.error (.broken precondition), [], stream), world)

end Request

namespace Seen

def ofCall (made : Except Panic (Except CipherError Unit) × Frame τ Held) : Seen τ :=
  ⟨made.1, made.2.buffer, made.2.kept.stream, made.2.world⟩

def ofAnswer (answer : (Except Fault Unit × Bytes × Cbc) × τ) : Seen τ :=
  ⟨outcome answer.1.1, answer.1.2.1, answer.1.2.2, answer.2⟩

end Seen

/-- What is seen of requests in turn, each of which finds the cipher in some state. -/
def answersTo (cipher : GuardedCipher τ) : Held → List (τ × Request) → List (Seen τ)
  | _, [] => []
  | held, (world, request) :: rest =>
      let made := request.make cipher held world
      .ofCall made :: answersTo cipher made.2.kept rest

section

variable {cipher : GuardedCipher τ} {held other : Held}

private theorem seen_of_documented
    {call : Guarded (Frame τ Held) (Except CipherError Unit)}
    {operation : Bytes → Cbc → StateM τ (Except Fault Unit × Bytes × Cbc)}
    {improper : Bytes → Held → Prop} {frame : Frame τ Held}
    (documented : Documented call Held.stream operation improper frame) :
    Seen.ofCall (call frame) =
      .ofAnswer (operation frame.buffer frame.kept.stream frame.world) := by
  rw [Seen.ofCall, Seen.ofAnswer, documented.result_eq, documented.buffer_eq, documented.kept_eq,
    documented.world_eq]

/-- Nothing that is seen of a call depends on the block that the stream works in. -/
theorem seen_make (reached : held.Reached cipher) (world : τ) (request : Request) :
    Seen.ofCall (request.make cipher held world) =
      .ofAnswer (request.answer cipher.cipher held.stream world) := by
  have sound := reached.sound
  match request with
  | .process (.inPlace buffer) =>
      exact @seen_of_documented _ _ _ _ ⟨world, buffer, held⟩ (cryptInPlaceGuarded_documented sound)
  | .process (.into source destination) =>
      exact @seen_of_documented _ _ _ _ ⟨world, destination, held⟩
        (cryptGuarded_documented sound source)
  | .restart iv =>
      exact seen_of_documented (restartGuarded_documented iv ⟨world, [], held⟩ sound)

theorem reached_make (reached : held.Reached cipher) (world : τ) (request : Request) :
    (request.make cipher held world).2.kept.Reached cipher := by
  match request with
  | .process (.inPlace buffer) =>
      exact @Held.Reached.cryptedInPlace _ _ ⟨world, buffer, held⟩ reached
  | .process (.into source destination) =>
      exact @Held.Reached.crypted _ _ ⟨world, destination, held⟩ source reached
  | .restart iv =>
      have restarted := @Held.Reached.restarted _ _ ⟨world, [], held⟩ iv reached
      have same : ((Request.restart iv).make cipher held world).2 =
          (restartGuarded iv ⟨world, [], held⟩).2 := by
        rw [Request.make, Request.call, Request.buffer, bind_apply]
        rcases restartGuarded iv ⟨world, [], held⟩ with ⟨_ | _, next⟩
        · rfl
        · rfl
      rwa [same]

/-- Streams that stand at the same block in the same direction answer alike for good. -/
theorem answersTo_eq (reached : held.Reached cipher) (otherReached : other.Reached cipher)
    (same : held.stream = other.stream) (requests : List (τ × Request)) :
    answersTo cipher held requests = answersTo cipher other requests := by
  induction requests generalizing held other with
  | nil => rfl
  | cons first rest ih =>
      obtain ⟨world, request⟩ := first
      have alike : Seen.ofCall (request.make cipher held world) =
          .ofCall (request.make cipher other world) := by
        rw [seen_make reached, seen_make otherReached, same]
      have later := ih (reached_make reached world request)
        (reached_make otherReached world request) (congrArg Seen.stream alike)
      rw [answersTo, answersTo, alike, later]

end

/-! ## Decryption from any block on -/

/-- The blocks of a text from one number to another. -/
def blocksBetween (size : Nat) (bytes : Bytes) (first last : Nat) : Bytes :=
  (bytes.take (size * last)).drop (size * first)

section

variable {size first last count index : Nat} {bytes front middle rest input iv : Bytes}
  {decrypt : Bytes → Bytes}

theorem blocksBetween_append (ordered : first ≤ last) (frontSize : front.length = size * first)
    (middleSize : middle.length = size * (last - first)) (rest : Bytes) :
    blocksBetween size (front ++ (middle ++ rest)) first last = middle := by
  have whole : (front ++ middle).length = size * last := by
    rw [List.length_append, frontSize, middleSize, ← Nat.mul_add, Nat.add_sub_cancel' ordered]
  rw [blocksBetween, ← List.append_assoc, List.take_left' whole, List.drop_left' frontSize]

theorem blockAt_eq_blocksBetween (size : Nat) (bytes : Bytes) (index : Nat) :
    blockAt size bytes index = blocksBetween size bytes index (index + 1) := by
  rw [blockAt, blocksBetween, List.drop_take, Nat.mul_succ, Nat.add_sub_cancel_left]

/-- Any blocks are a middle part of their text. -/
theorem exists_between (whole : bytes.length = size * count) (ordered : first ≤ last)
    (inside : last ≤ count) :
    ∃ front middle rest, bytes = front ++ (middle ++ rest) ∧ front.length = size * first ∧
      middle.length = size * (last - first) ∧ rest.length = size * (count - last) := by
  have sum : size * first + size * (last - first) + size * (count - last) = bytes.length := by
    rw [whole, ← Nat.mul_add, ← Nat.mul_add]
    congr 1
    omega
  refine ⟨bytes.take (size * first), (bytes.drop (size * first)).take (size * (last - first)),
    (bytes.drop (size * first)).drop (size * (last - first)), ?_, ?_, ?_, ?_⟩
  · rw [List.take_append_drop, List.take_append_drop]
  · exact List.length_take_of_le (by omega)
  · exact List.length_take_of_le (by rw [List.length_drop]; omega)
  · rw [List.length_drop, List.length_drop]
    omega

theorem length_chainBlocks (sized : ∀ block, block.length = size → (decrypt block).length = size)
    (ivSize : iv.length = size) (whole : input.length = size * count) :
    (chainBlocks .decrypt decrypt size count iv input).1.length = size * count := by
  induction count generalizing iv input with
  | zero => rfl
  | succ count ih =>
      obtain ⟨read, more, rfl, readSize, moreSize⟩ := cut_front whole
      simp only [chainBlocks, chainBlock, List.take_left' readSize, List.drop_left' readSize,
        List.length_append, Bytes.length_xor, sized read readSize, ivSize, Nat.min_self,
        ih readSize moreSize]
      rw [Nat.mul_succ, Nat.add_comm]

/-- Decryption chains to the last block that it read. -/
theorem chain_chainBlocks (ivSize : iv.length = size) (whole : input.length = size * count) :
    (chainBlocks .decrypt decrypt size count iv input).2 = blockAt size (iv ++ input) count := by
  induction count generalizing iv input with
  | zero => exact (blockAt_zero ivSize input).symm
  | succ count ih =>
      obtain ⟨read, more, rfl, readSize, moreSize⟩ := cut_front whole
      rw [blockAt_succ ivSize, ← ih readSize moreSize]
      simp only [chainBlocks, chainBlock, List.take_left' readSize, List.drop_left' readSize]

/-- The plaintext of whole blocks after a block to chain to. -/
def decrypted (decrypt : Bytes → Bytes) (size : Nat) (iv ciphertext : Bytes) : Bytes :=
  (chainBlocks .decrypt decrypt size (ciphertext.length / size) iv ciphertext).1

theorem decrypted_eq (positive : 0 < size) (whole : input.length = size * count) :
    decrypted decrypt size iv input = (chainBlocks .decrypt decrypt size count iv input).1 := by
  rw [decrypted, whole, Nat.mul_div_cancel_left _ positive]

theorem decrypted_append (positive : 0 < size) (ivSize : iv.length = size)
    (frontSize : front.length = size * first) (restSize : rest.length = size * count) :
    decrypted decrypt size iv (front ++ rest) =
      decrypted decrypt size iv front ++
        decrypted decrypt size (blockAt size (iv ++ front) first) rest := by
  have total : (front ++ rest).length = size * (first + count) := by
    rw [List.length_append, frontSize, restSize, Nat.mul_add]
  rw [decrypted_eq positive total, decrypted_eq positive frontSize, decrypted_eq positive restSize,
    ← chain_chainBlocks ivSize frontSize]
  exact congrArg Prod.fst (chainBlocks_append .decrypt decrypt count iv frontSize rest)

theorem length_blockAt (inside : size * (index + 1) ≤ bytes.length) :
    (blockAt size bytes index).length = size := by
  apply List.length_take_of_le
  rw [Nat.mul_succ] at inside
  rw [List.length_drop]
  omega

theorem blockAt_append (inside : size * (index + 1) ≤ front.length) (rest : Bytes) :
    blockAt size (front ++ rest) index = blockAt size front index := by
  rw [Nat.mul_succ] at inside
  have enough : size ≤ (front.drop (size * index)).length := by
    rw [List.length_drop]
    omega
  rw [blockAt, blockAt, List.drop_append_of_le_length (by omega),
    List.take_append_of_le_length enough]

section

variable (positive : 0 < size)
  (sized : ∀ block, block.length = size → (decrypt block).length = size)

include positive sized

theorem length_decrypted (ivSize : iv.length = size) (whole : input.length = size * count) :
    (decrypted decrypt size iv input).length = size * count := by
  rw [decrypted_eq positive whole, length_chainBlocks sized ivSize whole]

/-- The plaintext of some blocks is theirs alone, after the block before them. -/
theorem blocksBetween_decrypted (ivSize : iv.length = size) (whole : input.length = size * count)
    (ordered : first ≤ last) (inside : last ≤ count) :
    blocksBetween size (decrypted decrypt size iv input) first last =
      decrypted decrypt size (blockAt size (iv ++ input) first)
        (blocksBetween size input first last) := by
  obtain ⟨front, middle, rest, rfl, frontSize, middleSize, restSize⟩ :=
    exists_between whole ordered inside
  have chained : size * (first + 1) = (iv ++ front).length := by
    rw [List.length_append, ivSize, frontSize, Nat.mul_succ, Nat.add_comm]
  have chainSize := length_blockAt (Nat.le_of_eq chained)
  have chain_eq : blockAt size (iv ++ (front ++ (middle ++ rest))) first =
      blockAt size (iv ++ front) first := by
    rw [← List.append_assoc, blockAt_append (Nat.le_of_eq chained)]
  have backSize : (middle ++ rest).length = size * (last - first + (count - last)) := by
    rw [List.length_append, middleSize, restSize, Nat.mul_add]
  rw [blocksBetween_append ordered frontSize middleSize, chain_eq,
    decrypted_append positive ivSize frontSize backSize,
    decrypted_append positive chainSize middleSize restSize, blocksBetween_append ordered]
  · exact length_decrypted positive sized ivSize frontSize
  · exact length_decrypted positive sized chainSize middleSize

/-- A block of plaintext is told by its own block and the block before it. -/
theorem blockAt_decrypted (ivSize : iv.length = size) (whole : input.length = size * count)
    (inside : index < count) :
    blockAt size (decrypted decrypt size iv input) index =
      decrypted decrypt size (blockAt size (iv ++ input) index) (blockAt size input index) := by
  rw [blockAt_eq_blocksBetween, blockAt_eq_blocksBetween _ input,
    blocksBetween_decrypted positive sized ivSize whole (Nat.le_succ index) inside]

end

/-- The blocks to chain to are those of the ciphertext, one later. -/
theorem blockAt_iv_append_eq {other : Bytes} {changed : Nat} (ivSize : iv.length = size)
    (same : ∀ index, index ≠ changed → blockAt size other index = blockAt size input index)
    (apart : index ≠ changed + 1) :
    blockAt size (iv ++ other) index = blockAt size (iv ++ input) index := by
  cases index with
  | zero => rw [blockAt_zero ivSize, blockAt_zero ivSize]
  | succ index => rw [blockAt_succ ivSize, blockAt_succ ivSize, same index (by omega)]

end

section

variable {cipher : BlockCipher τ} {direction : Direction} {function : Bytes → Bytes}
  {steady : τ → Prop} {state : τ} {chain block : Bytes} {count : Nat}

theorem cryptBlock_succeeds (succeeds : cipher.Succeeds direction function steady)
    (ready : steady state) (chainSize : chain.length = cipher.blockSize)
    (whole : block.length = cipher.blockSize) :
    (cryptBlock cipher direction chain block state).1.1 = .ok () := by
  cases direction with
  | encrypt =>
      have mixed : (Bytes.xor block chain).length = cipher.blockSize := by
        rw [Bytes.length_xor, whole, chainSize, Nat.min_self]
      obtain ⟨next, called, -⟩ := succeeds.called _ block state mixed whole ready
      rw [cryptBlock_encrypt called]
  | decrypt =>
      obtain ⟨next, called, -⟩ := succeeds.called block block state whole whole ready
      rw [cryptBlock_decrypt called]

theorem cryptFront_succeeds (succeeds : cipher.Succeeds direction function steady)
    (ready : steady state) (chainSize : chain.length = cipher.blockSize) {buffer : Bytes}
    (whole : buffer.length = cipher.blockSize * count) :
    (cryptFront cipher direction count chain buffer state).1.1 = .ok () := by
  cases ended : (cryptFront cipher direction count chain buffer state).1.1 with
  | ok done => rfl
  | error error =>
      obtain ⟨before, more, front, block, rest, output, next, middle, -, rfl, frontSize, blockSize,
        ran, fails⟩ := exists_stop chainSize whole ended
      have stays := (cryptFront_computes succeeds.computes ready chainSize frontSize).1
      have lengths := length_cryptFront cipher direction chainSize frontSize state
      rw [ran] at stays lengths
      rw [cryptBlock_succeeds succeeds stays lengths.2 blockSize] at fails
      cases fails

end

section

variable {cipher : GuardedCipher τ} {held : Held} {decrypt : Bytes → Bytes} {steady : τ → Prop}
  {initial : τ}

/-- From a block to chain to, decryption makes this plaintext of this ciphertext, on any stream
that stands there, by either call and from any steady state. -/
def Deciphers (cipher : GuardedCipher τ) (steady : τ → Prop) (iv ciphertext plaintext : Bytes) :
    Prop :=
  ∀ held : Held, held.Reached cipher → held.stream = ⟨.decrypt, iv⟩ →
    ∀ piece : Piece, piece.input = ciphertext → piece.Fits cipher.cipher.blockSize →
      ∀ world, steady world →
        let seen := Seen.ofCall ((Request.process piece).make cipher held world)
        seen.result = .ok (.ok ()) ∧ seen.buffer = plaintext ++ piece.beyond ∧ steady seen.world

theorem deciphers (positive : 0 < cipher.cipher.blockSize)
    (succeeds : cipher.cipher.Succeeds .decrypt decrypt steady) {iv : Bytes}
    (ivSize : iv.length = cipher.cipher.blockSize) (ciphertext : Bytes) :
    Deciphers cipher steady iv ciphertext
      (decrypted decrypt cipher.cipher.blockSize iv ciphertext) := by
  rintro held reached stands piece rfl fits world ready
  have total := fits.counted
  have ended := cryptFront_succeeds succeeds ready ivSize total
  obtain ⟨stays, output_eq⟩ := cryptFront_computes succeeds.computes ready ivSize total
  have standing : Cbc.blockSize ⟨.decrypt, iv⟩ = cipher.cipher.blockSize := ivSize
  have processed := process_eq positive standing fits total world
  have seen_eq := seen_make reached world (.process piece)
  rw [stands, Request.answer, processed] at seen_eq
  rw [seen_eq]
  refine ⟨?_, ?_, stays⟩
  · simp only [Seen.ofAnswer, ended]
    rfl
  · simp only [Seen.ofAnswer, output_eq ended]
    rfl

/-- A restart succeeds, and so does a fresh start in the same direction. No requests tell the two
streams apart. -/
def RestartsAsFresh (cipher : GuardedCipher τ) (held : Held) (iv : Bytes) : Prop :=
  ∀ (world : τ) (buffer : Bytes), ∃ next fresh : Held,
    restartGuarded iv ⟨world, buffer, held⟩ = (.ok (), ⟨world, buffer, next⟩) ∧
    startGuarded cipher.cipher.blockSize held.stream.direction iv ⟨world, buffer, ()⟩ =
      (.ok fresh, ⟨world, buffer, ()⟩) ∧
    next.Reached cipher ∧ next.stream = ⟨held.stream.direction, iv⟩ ∧
    ∀ requests, answersTo cipher next requests = answersTo cipher fresh requests

theorem restartsAsFresh (reached : held.Reached cipher) {iv : Bytes}
    (ivSize : iv.length = cipher.cipher.blockSize) : RestartsAsFresh cipher held iv := by
  intro world buffer
  have same : iv.length = held.stream.blockSize := ivSize.trans reached.sound.length_chain.symm
  have restarted := @restartGuarded_of_block _ iv ⟨world, buffer, held⟩ same
  have started : startGuarded cipher.cipher.blockSize held.stream.direction iv
      ⟨world, buffer, ()⟩ =
        (.ok ⟨⟨held.stream.direction, iv⟩, Bytes.zeros cipher.cipher.blockSize⟩,
          ⟨world, buffer, ()⟩) := by
    simp only [startGuarded, bind_apply, require_of_holds ivSize, pure_apply]
  have next := @Held.Reached.restarted _ _ ⟨world, buffer, held⟩ iv reached
  rw [restarted] at next
  exact ⟨_, _, restarted, started, next, rfl, answersTo_eq next (.started started) rfl⟩

/-- Whatever part of a ciphertext is decrypted by itself, from the block before it, comes out as in
the plaintext of the whole. A block of the ciphertext matters for two of the plaintext. -/
structure RandomAccess (cipher : GuardedCipher τ) (steady : τ → Prop)
    (plaintext : Bytes → Bytes → Bytes) (iv ciphertext : Bytes) : Prop where
  length_eq : (plaintext iv ciphertext).length = ciphertext.length
  whole : Deciphers cipher steady iv ciphertext (plaintext iv ciphertext)
  part : ∀ first last, first ≤ last → last ≤ ciphertext.length / cipher.cipher.blockSize →
    Deciphers cipher steady (blockAt cipher.cipher.blockSize (iv ++ ciphertext) first)
      (blocksBetween cipher.cipher.blockSize ciphertext first last)
      (blocksBetween cipher.cipher.blockSize (plaintext iv ciphertext) first last)
  change : ∀ other : Bytes, other.length = ciphertext.length → ∀ changed,
    (∀ index, index ≠ changed → blockAt cipher.cipher.blockSize other index =
      blockAt cipher.cipher.blockSize ciphertext index) →
    ∀ index, index ≠ changed → index ≠ changed + 1 →
      blockAt cipher.cipher.blockSize (plaintext iv other) index =
        blockAt cipher.cipher.blockSize (plaintext iv ciphertext) index

theorem randomAccess_of_succeeds (positive : 0 < cipher.cipher.blockSize)
    (succeeds : cipher.cipher.Succeeds .decrypt decrypt steady) (start : steady initial)
    {iv ciphertext : Bytes} (ivSize : iv.length = cipher.cipher.blockSize)
    (whole : ciphertext.length % cipher.cipher.blockSize = 0) :
    RandomAccess cipher steady (decrypted decrypt cipher.cipher.blockSize) iv ciphertext := by
  have sized : ∀ block, block.length = cipher.cipher.blockSize →
      (decrypt block).length = cipher.cipher.blockSize :=
    fun block => succeeds.length_function start
  obtain ⟨count, total⟩ := Nat.dvd_of_mod_eq_zero whole
  have length_eq : ∀ other : Bytes, other.length = ciphertext.length →
      (decrypted decrypt cipher.cipher.blockSize iv other).length = ciphertext.length :=
    fun other same => (length_decrypted positive sized ivSize (same.trans total)).trans total.symm
  constructor
  case length_eq => exact length_eq ciphertext rfl
  case whole => exact deciphers positive succeeds ivSize ciphertext
  case part =>
    intro first last ordered inside
    rw [total, Nat.mul_div_cancel_left _ positive] at inside
    rw [blocksBetween_decrypted positive sized ivSize total ordered inside]
    apply deciphers positive succeeds
    apply length_blockAt
    rw [List.length_append, ivSize, total, Nat.mul_succ, Nat.add_comm]
    exact Nat.add_le_add_left (Nat.mul_le_mul_left _ (Nat.le_trans ordered inside)) _
  case change =>
    intro other sameLength changed same index apart next
    by_cases inside : index < count
    · rw [blockAt_decrypted positive sized ivSize total inside,
        blockAt_decrypted positive sized ivSize (sameLength.trans total) inside, same index apart,
        blockAt_iv_append_eq ivSize same next]
    · have beyond : ciphertext.length ≤ cipher.cipher.blockSize * index := by
        rw [total]
        exact Nat.mul_le_mul_left _ (Nat.le_of_not_lt inside)
      rw [blockAt, blockAt, List.drop_of_length_le ((length_eq other sameLength).trans_le beyond),
        List.drop_of_length_le ((length_eq ciphertext rfl).trans_le beyond)]

end

/-- After any calls on a stream, a restart makes it one that nothing tells from a fresh stream. So
over a cipher that decrypts every block by one function, decryption can start at any block. -/
theorem restarted_stream_is_fresh {cipher : GuardedCipher τ}
    (positive : 0 < cipher.cipher.blockSize) :
    (∀ held : Held, held.Reached cipher → ∀ iv : Bytes, iv.length = cipher.cipher.blockSize →
      RestartsAsFresh cipher held iv) ∧
    ∀ decrypt steady, cipher.cipher.Succeeds .decrypt decrypt steady →
      ∀ initial, steady initial → ∃ plaintext, ∀ iv ciphertext : Bytes,
        iv.length = cipher.cipher.blockSize → ciphertext.length % cipher.cipher.blockSize = 0 →
          RandomAccess cipher steady plaintext iv ciphertext := by
  constructor
  · intro held reached iv ivSize
    exact restartsAsFresh reached ivSize
  · intro decrypt steady succeeds initial start
    exact ⟨_, fun iv ciphertext => randomAccess_of_succeeds positive succeeds start⟩

/-- Of two blocks the second fails, and an input that is no block panics. The restarted stream is
as good as new, and without failures the last two of three blocks can be decrypted alone. -/
theorem restarted_stream_is_fresh_after_failure :
    let cipher := (RotatingCipher.blockCipher ⟨3, 5, [2]⟩).guarded
    let calm := (RotatingCipher.blockCipher ⟨3, 5, []⟩).guarded
    (∃ held : Held, held.Reached cipher ∧ held.stream.chain ≠ [7, 8, 9] ∧
      held.scratch ≠ Bytes.zeros 3 ∧ RestartsAsFresh cipher held [7, 8, 9]) ∧
    ∃ plaintext, Deciphers calm (fun _ => True) [7, 8, 9] [1, 2, 3, 4, 5, 6, 7, 8, 9] plaintext ∧
      Deciphers calm (fun _ => True) [1, 2, 3] [4, 5, 6, 7, 8, 9]
        (blocksBetween 3 plaintext 1 3) := by
  intro cipher calm
  constructor
  · have fresh : Held.Reached cipher ⟨⟨.encrypt, [7, 8, 9]⟩, Bytes.zeros 3⟩ :=
      @Held.Reached.started _ _ ⟨0, [], ()⟩ ⟨0, [], ()⟩ .encrypt [7, 8, 9] _ rfl
    have failed := @Held.Reached.cryptedInPlace _ _ ⟨0, [1, 2, 3, 4, 5, 6], _⟩ fresh
    have panicked := @Held.Reached.crypted _ _ ⟨2, [], _⟩ [1] failed
    exact ⟨_, panicked, by decide +kernel, by decide +kernel,
      (restarted_stream_is_fresh (by decide)).1 _ panicked [7, 8, 9] rfl⟩
  · have succeeds : calm.cipher.Succeeds .decrypt (RotatingCipher.decrypt ⟨3, 5, []⟩)
        fun _ => True := ⟨(RotatingCipher.invertible rfl).decrypts⟩
    obtain ⟨plaintext, access⟩ :=
      (@restarted_stream_is_fresh _ calm (by decide)).2 _ _ succeeds 0 trivial
    have random := access [7, 8, 9] [1, 2, 3, 4, 5, 6, 7, 8, 9] rfl (by decide)
    exact ⟨_, random.whole, random.part 1 3 (by decide) (by decide)⟩

end Cbc

end CipherModes
