import CipherModes.Backend.Query

/-!
# Reading values from bytes

Four bytes are one number and twelve bytes one table of key lengths, and each has
one string of bytes. Over any backend a value is read just where the backend says
that it wrote all of its bytes, so nothing that a buffer held before is taken for
a value.
-/

set_option autoImplicit false

namespace CipherModes

variable {bytes : Bytes} {word : UInt32} {lengths : KeyLengths}

/-! ## Numbers and tables -/

/-- Four bytes are a number, the lowest first. -/
structure HoldsWord (bytes : Bytes) (word : UInt32) : Prop where
  size : bytes.length = 4
  value : word.toNat = Bytes.ofLittleEndian bytes

/-- Twelve bytes are the three numbers of a table, one after the other. -/
def HoldsTable (bytes : Bytes) (lengths : KeyLengths) : Prop :=
  ∃ least greatest step, bytes = least ++ greatest ++ step ∧ HoldsWord least lengths.min ∧
    HoldsWord greatest lengths.max ∧ HoldsWord step lengths.increment

theorem decodeWord_encodeWord (word : UInt32) : decodeWord (encodeWord word) = word := by
  have read := decodeWord_encodeWord_append word []
  rwa [List.append_nil] at read

theorem holdsWord_take (enough : 4 ≤ bytes.length) :
    HoldsWord (bytes.take 4) (decodeWord bytes) := by
  have size : (bytes.take 4).length = 4 := List.length_take_of_le enough
  have fits : Bytes.ofLittleEndian (bytes.take 4) < 2 ^ 32 :=
    Nat.lt_of_lt_of_eq (Bytes.ofLittleEndian_lt _) (congrArg Bytes.capacity size)
  refine ⟨size, ?_⟩
  rw [decodeWord, UInt32.toNat_ofNat', Nat.mod_eq_of_lt fits]

theorem holdsWord_decodeWord (size : bytes.length = 4) : HoldsWord bytes (decodeWord bytes) := by
  have holds := holdsWord_take (Nat.le_of_eq size.symm)
  rwa [List.take_of_length_le (Nat.le_of_eq size)] at holds

theorem HoldsWord.eq_encodeWord (holds : HoldsWord bytes word) : bytes = encodeWord word := by
  have written := Bytes.littleEndian_ofLittleEndian bytes
  rw [holds.size, ← holds.value] at written
  exact written.symm

theorem holdsTable_decode (size : bytes.length = KeyLengths.size) :
    HoldsTable bytes (KeyLengths.decode bytes) := by
  have length : bytes.length = 12 := size
  have pieces : bytes.take 4 ++ (bytes.drop 4).take 4 ++ (bytes.drop 8).take 4 = bytes := by
    rw [← List.take_add, ← List.take_add, List.take_of_length_le (Nat.le_of_eq length)]
  refine ⟨_, _, _, pieces.symm, holdsWord_take ?_, holdsWord_take ?_, holdsWord_take ?_⟩
  · omega
  · rw [List.length_drop]
    omega
  · rw [List.length_drop]
    omega

theorem HoldsTable.eq_encode (holds : HoldsTable bytes lengths) : bytes = lengths.encode := by
  obtain ⟨least, greatest, step, rfl, first, second, third⟩ := holds
  rw [first.eq_encodeWord, second.eq_encodeWord, third.eq_encodeWord]
  rfl

theorem KeyLengths.encode_decode (size : bytes.length = KeyLengths.size) :
    (decode bytes).encode = bytes :=
  (holdsTable_decode size).eq_encode.symm

/-! ## Over any backend -/

namespace Backend

variable {σ α : Type} {backend : Backend σ} {handle : Handle} {name : String} {size written : Nat}
  {decode : Bytes → α} {state next : σ} {error : BackendError}
  {reply : Reply (.getProperty handle name (Bytes.zeros size))}

/-- Reading is one question, and what is made of the reply. -/
theorem reading_apply (backend : Backend σ) (decode : Bytes → α) (handle : Handle) (name : String)
    (size : Nat) (state : σ) :
    (decode <$> backend.getExact handle name size) state =
      let (reply, next) := backend.answer (.getProperty handle name (Bytes.zeros size)) state
      (reply.result.bind fun written =>
        if written = size then .ok (decode reply.output)
        else .error ⟨Operation.getProperty.name, .invalidBufferSize⟩, next) := by
  simp only [Functor.map, ExceptT.map, ExceptT.mk, bind, StateT.bind, getExact]
  cases (backend.answer (.getProperty handle name (Bytes.zeros size)) state).1.result with
  | error error => rfl
  | ok written =>
      by_cases whole : written = size
      · simp only [Except.bind, if_pos whole]
        rfl
      · simp only [Except.bind, if_neg whole]
        rfl

theorem reading_of_whole
    (answered : backend.answer (.getProperty handle name (Bytes.zeros size)) state = (reply, next))
    (whole : reply.result = .ok size) :
    (decode <$> backend.getExact handle name size) state = (.ok (decode reply.output), next) := by
  simp only [reading_apply, answered, whole, Except.bind, if_true]

theorem reading_of_other
    (answered : backend.answer (.getProperty handle name (Bytes.zeros size)) state = (reply, next))
    (counted : reply.result = .ok written) (other : written ≠ size) :
    (decode <$> backend.getExact handle name size) state =
      (.error ⟨Operation.getProperty.name, .invalidBufferSize⟩, next) := by
  simp only [reading_apply, answered, counted, Except.bind, if_neg other]

theorem reading_of_error
    (answered : backend.answer (.getProperty handle name (Bytes.zeros size)) state = (reply, next))
    (failed : reply.result = .error error) :
    (decode <$> backend.getExact handle name size) state = (.error error, next) := by
  simp only [reading_apply, answered, failed, Except.bind]

/-- How a property of so many bytes is read: with one question, and by what the backend says that
it wrote. -/
structure ReadsExactly (backend : Backend σ) (handle : Handle) (name : String) (size : Nat)
    (holds : Bytes → α → Prop) (reading : ExceptT BackendError (StateM σ) α) : Prop where
  takes : ∀ state reply next,
    backend.answer (.getProperty handle name (Bytes.zeros size)) state = (reply, next) →
      reply.result = .ok size →
        ∃ value, holds reply.output value ∧ reading state = (.ok value, next)
  takes_only : ∀ state value next, reading state = (.ok value, next) →
    ∃ reply, backend.answer (.getProperty handle name (Bytes.zeros size)) state = (reply, next) ∧
      reply.result = .ok size ∧ holds reply.output value
  refuses : ∀ state reply next written,
    backend.answer (.getProperty handle name (Bytes.zeros size)) state = (reply, next) →
      reply.result = .ok written → written ≠ size →
        reading state = (.error ⟨"GetProperty", .invalidBufferSize⟩, next)
  passes : ∀ state reply next error,
    backend.answer (.getProperty handle name (Bytes.zeros size)) state = (reply, next) →
      reply.result = .error error → reading state = (.error error, next)

theorem readsExactly (backend : Backend σ) (handle : Handle) (name : String)
    {holds : Bytes → α → Prop}
    (decodes : ∀ bytes, bytes.length = size → holds bytes (decode bytes)) :
    backend.ReadsExactly handle name size holds (decode <$> backend.getExact handle name size) := by
  have held : ∀ state reply next,
      backend.answer (.getProperty handle name (Bytes.zeros size)) state = (reply, next) →
        holds reply.output (decode reply.output) := by
    intro state reply next answered
    have kept := (backend.keepsLengths (.getProperty handle name (Bytes.zeros size)) state).1
    rw [answered] at kept
    exact decodes _ (kept.trans (Bytes.length_zeros size))
  constructor
  case takes =>
    intro state reply next answered whole
    exact ⟨_, held state reply next answered, reading_of_whole answered whole⟩
  case refuses => exact fun _ _ _ _ => reading_of_other
  case passes => exact fun _ _ _ _ => reading_of_error
  case takes_only =>
    intro state value next read
    cases answered : backend.answer (.getProperty handle name (Bytes.zeros size)) state with
    | mk reply later =>
        cases replied : reply.result with
        | error error =>
            rw [reading_of_error answered replied] at read
            cases read
        | ok written =>
            by_cases whole : written = size
            · rw [whole] at replied
              rw [reading_of_whole answered replied] at read
              cases read
              exact ⟨reply, rfl, replied, held _ _ _ answered⟩
            · rw [reading_of_other answered replied whole] at read
              cases read

theorem getWord_readsExactly (backend : Backend σ) (handle : Handle) (name : String) :
    backend.ReadsExactly handle name 4 HoldsWord (backend.getWord handle name) :=
  backend.readsExactly handle name fun _ => holdsWord_decodeWord

theorem getKeyLengths_readsExactly (backend : Backend σ) (handle : Handle) :
    backend.ReadsExactly handle PropertyName.keyLengths 12 HoldsTable
      (backend.getKeyLengths handle) :=
  backend.readsExactly handle PropertyName.keyLengths fun _ => holdsTable_decode

end Backend

end CipherModes
