import CipherModes.Proofs.Cbc.Cuts
import CipherModes.Proofs.Token.GivenBack

/-!
# Keys for single blocks

A live key for single blocks was made of a secret that was imported for it. It
makes of each block what the block cipher of that secret makes of it, wherever
the block stands and in whatever company, and each direction undoes the other.
-/

set_option autoImplicit false

namespace CipherModes.Token

variable {settings : Settings} {token : Token} {key provider : Handle} {object : KeyObject}
  {schedule : Aes.Schedule} {direction : Direction} {events : List Event} {input output : Bytes}

/-! ## The secrets of live keys -/

/-- A key was imported into its provider, and its material made of the secret. -/
def MadeIn (events : List Event) (key : Handle) (object : KeyObject) : Prop :=
  ∃ secret reply mode, ⟨.importKey object.provider secret, reply⟩ ∈ events ∧
    reply.result = .ok key ∧ KeyMaterial.ofSecret mode secret = .ok object.material

theorem MadeIn.later (made : MadeIn events key object) (event : Event) :
    MadeIn (events ++ [event]) key object := by
  obtain ⟨secret, reply, mode, recorded, success, material⟩ := made
  exact ⟨secret, reply, mode, List.mem_append_left _ recorded, success, material⟩

/-- The keys on a token were made in the calls of a record. -/
def KeysMadeIn (events : List Event) (token : Token) : Prop :=
  ∀ key object, token.keys.get? key = some object → MadeIn events key object

theorem keysMadeIn_fresh (settings : Settings) : KeysMadeIn [] (fresh settings) :=
  fun _ _ live => nomatch live

theorem KeysMadeIn.answer (made : KeysMadeIn events token) (call : Call) :
    KeysMadeIn (events ++ [⟨call, (token.answer call).1⟩]) (token.answer call).2 := by
  have outcome := token.answer_outcome call
  generalize token.answer call = answered at outcome ⊢
  obtain ⟨reply, next⟩ := answered
  intro key object live
  cases outcome with
  | refused | answered | opened | closed | switched => exact (made key object live).later _
  | @destroyed other =>
      by_cases same : key = other
      · rw [same, HandleTable.get?_erase_self] at live
        cases live
      · rw [HandleTable.get?_erase_ne same] at live
        exact (made key object live).later _
  | @imported provider secret mode material present ofSecret =>
      by_cases same : key = .issuedAfter token.issued
      · rw [same, HandleTable.get?_insert_self] at live
        cases live
        exact ⟨secret, _, mode, List.mem_append_right _ (.head _), congrArg _ same.symm, ofSecret⟩
      · rw [HandleTable.get?_insert_ne same] at live
        exact (made key object live).later _

theorem KeysMadeIn.along {initial last : Token} (made : KeysMadeIn [] initial)
    (leads : backend.Leads initial events last) : KeysMadeIn events last := by
  induction leads with
  | nothing => exact made
  | answer before call ih => exact ih.answer call

theorem ofSecret?_of_blocks {mode : ChainingMode} {secret : Bytes}
    (made : KeyMaterial.ofSecret mode secret = .ok (.blocks schedule)) :
    secret.length ∈ [16, 24, 32] ∧ Aes.Schedule.ofSecret? secret = some schedule := by
  obtain ⟨other, expanded, ⟨-, same⟩ | ⟨-, same⟩⟩ := KeyMaterial.ofSecret_eq_ok made
  · cases same
    refine ⟨?_, expanded⟩
    rw [Aes.Schedule.ofSecret?] at expanded
    split at expanded
    · rename_i size
      simpa using size
    · cases expanded
  · cases same

/-! ## Blocks -/

/-- The block of a number in the output is made of the one in the input. -/
theorem blockAt_cryptBlocks (whole : input.length % Aes.blockLength = 0) {index : Nat}
    (inside : index < input.length / Aes.blockLength) :
    Cbc.blockAt Aes.blockLength (cryptBlocks schedule direction input) index =
      schedule.transform direction (Cbc.blockAt Aes.blockLength input index) := by
  obtain ⟨blocks, uniform, rfl⟩ := Bytes.exists_blocks whole
  rw [uniform.length_flatten, Nat.mul_div_cancel_left _ (by decide)] at inside
  have transformed : index < (blocks.map (schedule.transform direction)).length := by
    rwa [List.length_map]
  rw [cryptBlocks_flatten uniform, Cbc.blockAt, Cbc.blockAt,
    (uniform_transforms blocks).take_drop_flatten transformed, uniform.take_drop_flatten inside,
    List.getD_eq_getElem?_getD, List.getD_eq_getElem?_getD, List.getElem?_map,
    List.getElem?_eq_getElem inside]
  rfl

/-- An input of whole blocks whose length can be reported, and an output with room for it. -/
structure WholeBlocks (input output : Bytes) : Prop where
  whole : input.length % Aes.blockLength = 0
  fits : input.length < 0x100000000
  room : input.length ≤ output.length

/-- What a call writes at the front of its output. -/
def written (token : Token) (key : Handle) (direction : Direction) (input output : Bytes) : Bytes :=
  (token.answer (.crypt direction key input output)).1.output.take input.length

/-- What a key does that makes of each block what a transform makes of it. -/
structure TransformsBlocks (token : Token) (key : Handle) (transform : Direction → Bytes → Bytes) :
    Prop where
  block_back : ∀ direction block, block.length = Aes.blockLength →
    transform direction.opposite (transform direction block) = block
  answers : ∀ direction input output, WholeBlocks input output →
    let (reply, next) := token.answer (.crypt direction key input output)
    reply.result = .ok input.length ∧ reply.output.length = output.length ∧
      reply.output.drop input.length = output.drop input.length ∧ next = token
  blocks : ∀ direction input output, WholeBlocks input output →
    ∀ index < input.length / Aes.blockLength,
      Cbc.blockAt Aes.blockLength (token.written key direction input output) index =
        transform direction (Cbc.blockAt Aes.blockLength input index)
  repeats : ∀ direction input output, WholeBlocks input output →
    ∀ index < input.length / Aes.blockLength, ∀ other < input.length / Aes.blockLength,
      Cbc.blockAt Aes.blockLength input index = Cbc.blockAt Aes.blockLength input other →
        Cbc.blockAt Aes.blockLength (token.written key direction input output) index =
          Cbc.blockAt Aes.blockLength (token.written key direction input output) other
  joins : ∀ direction first rest firstOutput restOutput output, WholeBlocks first firstOutput →
    WholeBlocks rest restOutput → WholeBlocks (first ++ rest) output →
      token.written key direction (first ++ rest) output =
        token.written key direction first firstOutput ++
          token.written key direction rest restOutput
  back : ∀ direction input output other, WholeBlocks input output → WholeBlocks input other →
    token.written key direction.opposite (token.written key direction input output) other = input
  /-- Only a length that cannot be reported is refused. -/
  refuses_long : ∀ direction input output, 0x100000000 ≤ input.length →
    token.answer (.crypt direction key input output) = (.fail .invalidBufferSize, token)

theorem written_eq (made : token.material? key = some (.blocks schedule))
    (whole : WholeBlocks input output) :
    token.written key direction input output = cryptBlocks schedule direction input := by
  rw [written, answer, crypt_of_whole made whole.fits whole.whole whole.room]
  exact List.take_left' (length_cryptBlocks whole.whole)

theorem transformsBlocks_of_material (made : token.material? key = some (.blocks schedule)) :
    token.TransformsBlocks key schedule.transform := by
  have blocks : ∀ direction input output, WholeBlocks input output →
      ∀ index < input.length / Aes.blockLength,
        Cbc.blockAt Aes.blockLength (token.written key direction input output) index =
          schedule.transform direction (Cbc.blockAt Aes.blockLength input index) := by
    intro direction input output whole index inside
    rw [written_eq made whole, blockAt_cryptBlocks whole.whole inside]
  constructor
  case block_back => exact fun direction block => schedule.transform_transform direction
  case blocks => exact blocks
  case answers =>
    intro direction input output whole
    have size : (cryptBlocks schedule direction input).length = input.length :=
      length_cryptBlocks whole.whole
    have room : (cryptBlocks schedule direction input).length ≤ output.length :=
      size.symm ▸ whole.room
    rw [answer, crypt_of_whole made whole.fits whole.whole whole.room]
    refine ⟨rfl, Bytes.length_overlay _ _ room, ?_, rfl⟩
    rw [Bytes.overlay, List.drop_left' size, size]
  case repeats =>
    intro direction input output whole index inside other otherInside same
    rw [blocks _ _ _ whole index inside, blocks _ _ _ whole other otherInside, same]
  case joins =>
    intro direction first rest firstOutput restOutput output firstWhole restWhole whole
    rw [written_eq made whole, written_eq made firstWhole, written_eq made restWhole,
      cryptBlocks_append firstWhole.whole restWhole.whole]
  case back =>
    intro direction input output other whole otherWhole
    have size : (cryptBlocks schedule direction input).length = input.length :=
      length_cryptBlocks whole.whole
    have again : WholeBlocks (cryptBlocks schedule direction input) other :=
      ⟨size.symm ▸ whole.whole, size.symm ▸ whole.fits, size.symm ▸ otherWhole.room⟩
    rw [written_eq made whole, written_eq made again,
      cryptBlocks_cryptBlocks schedule direction whole.whole]
  case refuses_long => exact fun direction input output => crypt_of_long

theorem live_key_transforms_each_block {calls : List Call}
    (live : ((fresh settings).afterCalls calls).keys.get? key = some object)
    (single : object.material = .blocks schedule) :
    (∃ secret reply, ⟨.importKey object.provider secret, reply⟩ ∈ (fresh settings).trace calls ∧
      reply.result = .ok key ∧ secret.length ∈ [16, 24, 32] ∧
      Aes.Schedule.ofSecret? secret = some schedule) ∧
    ((fresh settings).afterCalls calls).TransformsBlocks key schedule.transform := by
  have made : KeysMadeIn ((fresh settings).trace calls) ((fresh settings).afterCalls calls) :=
    (keysMadeIn_fresh settings).along (leads_trace (fresh settings) calls)
  obtain ⟨secret, reply, mode, recorded, success, material⟩ := made key object live
  rw [single] at material
  refine ⟨⟨secret, reply, recorded, success, ofSecret?_of_blocks material⟩, ?_⟩
  apply transformsBlocks_of_material
  rw [material?, live, ← single]
  rfl

/-- A key of 24 bytes among others. Of two blocks and room for more, the second is the first one
again. -/
theorem live_key_transforms_each_block_of_two :
    let calls : List Call :=
      [.openProvider aesAlgorithm .none,
        .setProperty (.issuedAfter 0) PropertyName.chainingMode (encodeWide ChainingMode.ecb.text),
        .importKey (.issuedAfter 0) (Bytes.zeros 16), .importKey (.issuedAfter 0) (Bytes.zeros 24),
        .destroyKey (.issuedAfter 1)]
    let token := (fresh {}).afterCalls calls
    let key := Handle.issuedAfter 2
    token.TransformsBlocks key (Aes.Schedule.expand 6 (Bytes.zeros 24)).transform ∧
      (token.answer (.crypt .decrypt key (Bytes.zeros 32) (Bytes.zeros 40))).1.result = .ok 32 ∧
      token.written key .encrypt (token.written key .decrypt (Bytes.zeros 32) (Bytes.zeros 40))
        (Bytes.zeros 32) = Bytes.zeros 32 := by
  intro calls token key
  have live : token.keys.get? key =
      some ⟨.issuedAfter 0, 192, .blocks (Aes.Schedule.expand 6 (Bytes.zeros 24))⟩ := by
    decide +kernel
  have transforms : token.TransformsBlocks key (Aes.Schedule.expand 6 (Bytes.zeros 24)).transform :=
    (live_key_transforms_each_block live rfl).2
  have roomy : WholeBlocks (Bytes.zeros 32) (Bytes.zeros 40) := ⟨rfl, by decide, by decide⟩
  have tight : WholeBlocks (Bytes.zeros 32) (Bytes.zeros 32) := ⟨rfl, by decide, by decide⟩
  exact ⟨transforms, (transforms.answers .decrypt _ _ roomy).1,
    transforms.back .decrypt _ _ _ roomy tight⟩

/-- Lengths are reported as 32-bit numbers, so that a live key refuses the least number of whole
blocks that is too long for one, although the output has room for what they make. -/
theorem refuses_blocks_too_long_to_report :
    let calls : List Call :=
      [.openProvider aesAlgorithm .none,
        .setProperty (.issuedAfter 0) PropertyName.chainingMode (encodeWide ChainingMode.ecb.text),
        .importKey (.issuedAfter 0) (Bytes.zeros 16)]
    let token := (fresh {}).afterCalls calls
    let key := Handle.issuedAfter 1
    let input := Bytes.zeros 0x100000000
    let output := Bytes.zeros 0x100000000
    token.keys.get? key =
        some ⟨.issuedAfter 0, 128, .blocks (Aes.Schedule.expand 4 (Bytes.zeros 16))⟩ ∧
      input.length % Aes.blockLength = 0 ∧ input.length ≤ output.length ∧
      token.answer (.crypt .encrypt key input output) = (.fail .invalidBufferSize, token) ∧
      (token.answer (.crypt .encrypt key input output)).1.result ≠ .ok input.length := by
  intro calls token key input output
  have live : token.keys.get? key =
      some ⟨.issuedAfter 0, 128, .blocks (Aes.Schedule.expand 4 (Bytes.zeros 16))⟩ := by
    decide +kernel
  have length : input.length = 0x100000000 := Bytes.length_zeros _
  have refused : token.answer (.crypt .encrypt key input output) =
      (.fail .invalidBufferSize, token) := crypt_of_long (Nat.le_of_eq length.symm)
  refine ⟨live, by rw [length]; rfl, Nat.le_refl _, refused, ?_⟩
  rw [refused]
  exact nofun

end CipherModes.Token
