import CipherModes.Cbc
import CipherModes.Proofs.Bytes.Blocks
import CipherModes.Proofs.Engine.BlockLength
import CipherModes.RotatingCipher

/-!
# Chained blocks

Over a cipher whose calls succeed, a stream of either direction walks along a
message and its ciphertext side by side: one direction reads the message and
writes the ciphertext, the other reads the ciphertext and writes the message.
Both chain to the ciphertext.
-/

set_option autoImplicit false

namespace CipherModes

variable {σ : Type}

/-- From steady states both directions succeed on single blocks and compute functions of which
one inverts the other, and the next state is steady. -/
structure BlockCipher.Invertible (cipher : BlockCipher σ) (encrypt decrypt : Bytes → Bytes)
    (steady : σ → Prop) : Prop where
  encrypts : ∀ source destination state, source.length = cipher.blockSize →
    destination.length = cipher.blockSize → steady state →
      ∃ next, cipher.transform .encrypt source destination state =
        ((.ok (), encrypt source), next) ∧ steady next
  decrypts : ∀ source destination state, source.length = cipher.blockSize →
    destination.length = cipher.blockSize → steady state →
      ∃ next, cipher.transform .decrypt source destination state =
        ((.ok (), decrypt source), next) ∧ steady next
  inverts : ∀ block : Bytes, block.length = cipher.blockSize → decrypt (encrypt block) = block

theorem BlockCipher.Invertible.length_encrypt {cipher : BlockCipher σ}
    {encrypt decrypt : Bytes → Bytes} {steady : σ → Prop} {state : σ} {block : Bytes}
    (invertible : cipher.Invertible encrypt decrypt steady) (start : steady state)
    (whole : block.length = cipher.blockSize) : (encrypt block).length = cipher.blockSize := by
  obtain ⟨next, called, -⟩ := invertible.encrypts block block state whole whole start
  have kept := cipher.keepsLength .encrypt block block state
  rw [called] at kept
  exact kept.trans whole

namespace Direction

variable {α : Type}

/-- What a stream reads, of a message and its ciphertext. -/
def reads : Direction → (message ciphertext : α) → α
  | encrypt, message, _ => message
  | decrypt, _, ciphertext => ciphertext

/-- What a stream writes, of a message and its ciphertext. -/
def writes : Direction → (message ciphertext : α) → α
  | encrypt, _, ciphertext => ciphertext
  | decrypt, message, _ => message

theorem reads_flatten (direction : Direction) (message ciphertext : List Bytes) :
    direction.reads message.flatten ciphertext.flatten =
      (direction.reads message ciphertext).flatten := by
  cases direction <;> rfl

theorem writes_flatten (direction : Direction) (message ciphertext : List Bytes) :
    direction.writes message.flatten ciphertext.flatten =
      (direction.writes message ciphertext).flatten := by
  cases direction <;> rfl

theorem flatten_reads_append (direction : Direction)
    (message ciphertext rest restCiphertext : List Bytes) :
    (direction.reads (message ++ rest) (ciphertext ++ restCiphertext)).flatten =
      (direction.reads message ciphertext).flatten ++
        (direction.reads rest restCiphertext).flatten := by
  cases direction <;> exact List.flatten_append

theorem flatten_writes_append (direction : Direction)
    (message ciphertext rest restCiphertext : List Bytes) :
    (direction.writes (message ++ rest) (ciphertext ++ restCiphertext)).flatten =
      (direction.writes message ciphertext).flatten ++
        (direction.writes rest restCiphertext).flatten := by
  cases direction <;> exact List.flatten_append

end Direction

/-! ## Chaining -/

namespace Cbc

variable {cipher : BlockCipher σ} {encrypt decrypt : Bytes → Bytes} {steady : σ → Prop}
  {state : σ} {chain : Bytes}

/-- The ciphertext of blocks: each is encrypted together with the one before it. -/
def chained (encrypt : Bytes → Bytes) : (chain : Bytes) → List Bytes → List Bytes
  | _, [] => []
  | chain, block :: rest =>
      encrypt (Bytes.xor block chain) :: chained encrypt (encrypt (Bytes.xor block chain)) rest

@[simp]
theorem length_chained (encrypt : Bytes → Bytes) (chain : Bytes) (blocks : List Bytes) :
    (chained encrypt chain blocks).length = blocks.length := by
  induction blocks generalizing chain with
  | nil => rfl
  | cons block rest ih => rw [chained, List.length_cons, ih, List.length_cons]

/-- The ciphertext goes on from the last block before. -/
theorem chained_append (encrypt : Bytes → Bytes) (chain : Bytes) (first last : List Bytes) :
    chained encrypt chain (first ++ last) = chained encrypt chain first ++
      chained encrypt ((chained encrypt chain first).getLastD chain) last := by
  induction first generalizing chain with
  | nil => rfl
  | cons block rest ih =>
      rw [List.cons_append, chained, ih, chained, List.getLastD_cons, List.cons_append]

theorem uniform_chained (invertible : cipher.Invertible encrypt decrypt steady)
    (start : steady state) (chainSize : chain.length = cipher.blockSize) {blocks : List Bytes}
    (uniform : Bytes.Uniform cipher.blockSize blocks) :
    Bytes.Uniform cipher.blockSize (chained encrypt chain blocks) := by
  induction blocks generalizing chain with
  | nil => nofun
  | cons block rest ih =>
      have mixed : (Bytes.xor block chain).length = cipher.blockSize := by
        rw [Bytes.length_xor, uniform block List.mem_cons_self, chainSize, Nat.min_self]
      have first := invertible.length_encrypt start mixed
      have later := ih first fun other member => uniform other (List.mem_cons_of_mem _ member)
      intro other member
      cases member with
      | head => exact first
      | tail _ member => exact later other member

/-- One block of either direction: what is read, what is written, and the ciphertext to chain
to. -/
theorem cryptBlock_of_invertible (invertible : cipher.Invertible encrypt decrypt steady)
    (start : steady state) (chainSize : chain.length = cipher.blockSize) {block : Bytes}
    (whole : block.length = cipher.blockSize) (direction : Direction) :
    ∃ next, cryptBlock cipher direction chain
        (direction.reads block (encrypt (Bytes.xor block chain))) state =
      ((.ok (), direction.writes block (encrypt (Bytes.xor block chain)),
        encrypt (Bytes.xor block chain)), next) ∧ steady next := by
  have mixed : (Bytes.xor block chain).length = cipher.blockSize := by
    rw [Bytes.length_xor, whole, chainSize, Nat.min_self]
  cases direction with
  | encrypt =>
      obtain ⟨next, called, stays⟩ := invertible.encrypts (Bytes.xor block chain) block state mixed
        whole start
      refine ⟨next, ?_, stays⟩
      simp only [cryptBlock, Direction.reads, Direction.writes, bind, StateT.bind, called]
      rfl
  | decrypt =>
      have size := invertible.length_encrypt start mixed
      obtain ⟨next, called, stays⟩ := invertible.decrypts (encrypt (Bytes.xor block chain))
        (encrypt (Bytes.xor block chain)) state size size start
      have undone : Bytes.xor (decrypt (encrypt (Bytes.xor block chain))) chain = block := by
        rw [invertible.inverts _ mixed, Bytes.xor_xor_cancel (Nat.le_of_eq (whole.trans chainSize.symm))]
      refine ⟨next, ?_, stays⟩
      simp only [cryptBlock, Direction.reads, Direction.writes, bind, StateT.bind, called]
      rw [undone]
      rfl

theorem cryptFront_succ {direction : Direction} {count : Nat}
    {read more block next last rest : Bytes} {middle final : σ}
    {result : Except CipherError Unit} (size : read.length = chain.length)
    (first : cryptBlock cipher direction chain read state = ((.ok (), block, next), middle))
    (later : cryptFront cipher direction count next more middle = ((result, rest, last), final)) :
    cryptFront cipher direction (count + 1) chain (read ++ more) state =
      ((result, block ++ rest, last), final) := by
  simp only [cryptFront, bind, StateT.bind, List.take_left' size, List.drop_left' size, first,
    later]
  rfl

theorem cryptFront_of_invertible (invertible : cipher.Invertible encrypt decrypt steady)
    (start : steady state) (chainSize : chain.length = cipher.blockSize) {blocks : List Bytes}
    (uniform : Bytes.Uniform cipher.blockSize blocks) (direction : Direction) :
    ∃ next, cryptFront cipher direction blocks.length chain
        (direction.reads blocks (chained encrypt chain blocks)).flatten state =
      ((.ok (), (direction.writes blocks (chained encrypt chain blocks)).flatten,
        (chained encrypt chain blocks).getLastD chain), next) ∧ steady next := by
  induction blocks generalizing chain state with
  | nil =>
      refine ⟨state, ?_, start⟩
      cases direction <;> rfl
  | cons block rest ih =>
      have whole := uniform block List.mem_cons_self
      have mixed : (Bytes.xor block chain).length = cipher.blockSize := by
        rw [Bytes.length_xor, whole, chainSize, Nat.min_self]
      have size := invertible.length_encrypt start mixed
      obtain ⟨middle, first, stays⟩ :=
        cryptBlock_of_invertible invertible start chainSize whole direction
      obtain ⟨next, later, ends⟩ :=
        ih stays size fun other member => uniform other (List.mem_cons_of_mem _ member)
      have readSize : (direction.reads block (encrypt (Bytes.xor block chain))).length =
          chain.length := by
        cases direction with
        | encrypt => exact whole.trans chainSize.symm
        | decrypt => exact size.trans chainSize.symm
      have run := cryptFront_succ readSize first later
      refine ⟨next, ?_, ends⟩
      rw [chained, List.getLastD_cons]
      cases direction with
      | encrypt => exact run
      | decrypt => exact run

end Cbc

/-! ## Ciphers to chain -/

namespace RotatingCipher

variable {cipher : RotatingCipher}

theorem decrypt_encrypt {block : Bytes} (whole : block.length = cipher.blockSize) :
    cipher.decrypt (cipher.encrypt block) = block := by
  apply List.ext_getElem
  · rw [decrypt, List.length_map, List.length_range, whole]
  intro place _ inBlock
  have positive : 0 < cipher.blockSize := by omega
  -- The place before, around the end, is the one whose byte moved here.
  have earlier : (place + cipher.blockSize - 1) % cipher.blockSize < cipher.blockSize :=
    Nat.mod_lt _ positive
  have next : ((place + cipher.blockSize - 1) % cipher.blockSize + 1) % cipher.blockSize =
      place := by
    rw [Nat.mod_add_mod, Nat.sub_add_cancel (by omega), Nat.add_mod_right,
      Nat.mod_eq_of_lt (by omega)]
  simp only [decrypt, encrypt, List.getElem_map, List.getElem_range, List.getD_eq_getElem?_getD,
    List.getElem?_map, List.getElem?_range earlier, Option.map_some, Option.getD_some, next,
    List.getElem?_eq_getElem inBlock, UInt8.add_sub_cancel]

theorem transform_of_whole (never : cipher.failsAt = []) (direction : Direction)
    (source : Bytes) {destination : Bytes} (room : destination.length = cipher.blockSize)
    (made : Nat) :
    cipher.transform direction source destination made =
      ((.ok (), match direction with
        | .encrypt => cipher.encrypt source
        | .decrypt => cipher.decrypt source), made + 1) := by
  have size : ∀ block : Bytes, block.length = cipher.blockSize →
      (Bytes.overlay block destination).take destination.length = block := by
    intro block whole
    rw [Bytes.overlay, room, ← whole, List.take_left]
  simp only [transform, never, List.contains_nil]
  cases direction with
  | encrypt => rw [size _ (by rw [encrypt, List.length_map, List.length_range])]; rfl
  | decrypt => rw [size _ (by rw [decrypt, List.length_map, List.length_range])]; rfl

theorem invertible (never : cipher.failsAt = []) :
    cipher.blockCipher.Invertible cipher.encrypt cipher.decrypt fun _ => True where
  encrypts source _ made _ room _ :=
    ⟨made + 1, cipher.transform_of_whole never .encrypt source room made, trivial⟩
  decrypts source _ made _ room _ :=
    ⟨made + 1, cipher.transform_of_whole never .decrypt source room made, trivial⟩
  inverts _ whole := cipher.decrypt_encrypt whole

end RotatingCipher

/-- A cipher of a token can be chained as long as its key lives. -/
theorem AesCipher.invertible {cipher : AesCipher} (schedule : Aes.Schedule)
    (small : cipher.blockSize < 0x100000000) (whole : cipher.blockSize % Aes.blockLength = 0) :
    (cipher.blockCipher Token.backend).Invertible (Token.cryptBlocks schedule .encrypt)
      (Token.cryptBlocks schedule .decrypt)
      fun token => token.material? cipher.key.raw = some (.blocks schedule) := by
  have transforms (direction : Direction) (source destination : Bytes) (token : Token)
      (block : source.length = cipher.blockSize) (room : destination.length = cipher.blockSize)
      (lives : token.material? cipher.key.raw = some (.blocks schedule)) :
      (cipher.blockCipher Token.backend).transform direction source destination token =
        ((.ok (), Token.cryptBlocks schedule direction source), token) := by
    rw [transform_of_whole lives small whole (Nat.le_of_eq block.symm) (Nat.le_of_eq room.symm),
      List.take_of_length_le (Nat.le_of_eq block), List.drop_eq_nil_of_le (Nat.le_of_eq room),
      List.append_nil]
  constructor
  case encrypts =>
    intro source destination token block room lives
    exact ⟨token, transforms .encrypt source destination token block room lives, lives⟩
  case decrypts =>
    intro source destination token block room lives
    exact ⟨token, transforms .decrypt source destination token block room lives, lives⟩
  case inverts =>
    intro block size
    exact Token.decryptBlocks_encryptBlocks schedule (size.symm ▸ whole)

end CipherModes
