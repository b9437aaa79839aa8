import CipherModes.Proofs.Toml.Values
import CipherModes.Settings.Toml

/-!
# Settings that come back

Written settings are a document of known lines, so reading them gives the table
from which the same settings are made. The latency is the one number that can be
too large to be written, and no document holds one that is.
-/

set_option autoImplicit false

namespace CipherModes.Settings

open Toml

variable {key : String} {rest : List Char} {count : Nat} {later : List Statement}

/-! ## Lines -/

theorem readValue_array {items : List Value} {depth : Nat} {chars : List Char}
    (reads : readItems (readValue depth) (chars.length + 1) chars = some (items, rest)) :
    readValue (depth + 1) ('[' :: chars) = some (.array items, rest) := by
  rw [readValue, reads]
  rfl

theorem readValue_strings (texts : List String) (rest : List Char) :
    readValue nestingLimit (writeStrings texts ++ '\n' :: rest) =
      some (.array (texts.map .text), '\n' :: rest) := by
  match texts with
  | [] => rfl
  | [text] =>
      have reads := readValue_text text 78 (by simp : (']' :: '\n' :: rest).head? ≠ some '"') (by simp)
      have single : writeStrings [text] ++ '\n' :: rest =
          '[' :: (writeText text.toList ++ ']' :: '\n' :: rest) := by
        simp [writeStrings]
      rw [single]
      exact readValue_array (readItems_single (skipFiller_writeText _ _)
        (head?_writeText_append _ _ (by decide) (by decide)) reads rfl)
  | first :: second :: others =>
      have several : writeStrings (first :: second :: others) ++ '\n' :: rest =
          '[' :: '\n' :: ((first :: second :: others).flatMap textLine ++ ']' :: '\n' :: rest) := by
        simp only [writeStrings, List.cons_append, List.append_assoc]
        rfl
      have long := length_le_flatMap_textLine (first :: second :: others)
      rw [several]
      refine readValue_array (readItems_lines _ ?_ 78 _)
      simp only [List.length_cons, List.length_append] at long ⊢
      omega

theorem isBlank_front_writeStrings (texts : List String) (rest : List Char) :
    ∀ char ∈ (writeStrings texts ++ rest).head?, isBlank char = false := by
  intro char member
  have bracket : (writeStrings texts ++ rest).head? = some '[' := by
    match texts with
    | [] => rfl
    | [text] => rfl
    | first :: second :: others => rfl
  cases bracket.symm.trans member
  rfl

theorem isBlank_front_truth (value : Bool) (rest : List Char) :
    ∀ char ∈ ((toString value).toList ++ rest).head?, isBlank char = false := by
  intro char member
  cases value with
  | false =>
      cases member
      rfl
  | true =>
      cases member
      rfl

theorem readsLines_line (plain : Plain key) {written : List Char} {value : Value}
    (solid : ∀ char ∈ (written ++ '\n' :: rest).head?, isBlank char = false)
    (reads : readValue nestingLimit (written ++ '\n' :: rest) = some (value, '\n' :: rest))
    (others : ReadsLines count rest later) :
    ReadsLines (count + 1) (writeLine key written ++ rest) (.pair [] key value :: later) := by
  have line := ReadsLines.cons (plain.readStatement_line solid reads) (by simp) others
  simpa [writeLine] using line

theorem readsLines_number (plain : Plain key) {number : Nat} (small : number < 0x8000000000000000)
    (others : ReadsLines count rest later) :
    ReadsLines (count + 1) (writeLine key (writeNumber number) ++ rest)
      (.pair [] key (.integer number) :: later) := by
  refine readsLines_line plain ?_ (readValue_number small nestingLimit rest) others
  intro char member
  rw [writeNumber, List.head?_append, Option.or_of_isSome (by simp)] at member
  have digit := isDigit_of_mem_toDigits (List.mem_of_mem_head? member)
  cases blank : isBlank char with
  | false => rfl
  | true =>
      rw [isBlank, Bool.or_eq_true, beq_iff_eq, beq_iff_eq] at blank
      rcases blank with rfl | rfl <;> cases digit

theorem readsLines_header (path : List String) (key : String)
    (single : ((String.intercalate "." (path ++ [key])).toList ++ ']' :: '\n' :: rest).head? ≠
      some '[')
    (reads : readKeyParts keyLimit
      ((String.intercalate "." (path ++ [key])).toList ++ ']' :: '\n' :: rest) =
        some (path ++ [key], ']' :: '\n' :: rest))
    (others : ReadsLines count rest later) :
    ReadsLines (count + 2) (writeHeader (path ++ [key]) ++ rest) (.header path key :: later) := by
  have header := ReadsLines.cons (readStatement_header single reads) (by simp) others
  have empty := ReadsLines.cons (readStatement_empty _) (by simp) header
  simpa [writeHeader] using empty

def statements (settings : Settings) : List Statement :=
  [.pair [] Key.fipsMode (.truth settings.fipsMode),
    .pair [] Key.disabledAlgorithms (.array (settings.disabledAlgorithms.map .text)),
    .pair [] Key.openLatency (.integer settings.openLatency.toNat),
    .header [] Key.aes,
    .pair [] Key.blockLength (.integer settings.blockLength.toNat),
    .header [Key.aes] Key.keyLengths,
    .pair [] Key.min (.integer settings.keyLengths.min.toNat),
    .pair [] Key.max (.integer settings.keyLengths.max.toNat),
    .pair [] Key.increment (.integer settings.keyLengths.increment.toNat)]

def lengthsTable (settings : Settings) : Value :=
  .table .header
    [(Key.min, .integer settings.keyLengths.min.toNat),
      (Key.max, .integer settings.keyLengths.max.toNat),
      (Key.increment, .integer settings.keyLengths.increment.toNat)]

def aesTable (settings : Settings) : Value :=
  .table .header
    [(Key.blockLength, .integer settings.blockLength.toNat),
      (Key.keyLengths, settings.lengthsTable)]

def entries (settings : Settings) : Entries :=
  [(Key.fipsMode, .truth settings.fipsMode),
    (Key.disabledAlgorithms, .array (settings.disabledAlgorithms.map .text)),
    (Key.openLatency, .integer settings.openLatency.toNat),
    (Key.aes, settings.aesTable)]

theorem ofStatements?_statements (settings : Settings) :
    Entries.ofStatements? settings.statements = some settings.entries := by
  rfl

theorem mapM_readString (texts : List String) :
    (texts.map Value.text).mapM readString = some texts := by
  induction texts with
  | nil => rfl
  | cons text texts ih => simp [readString, ih]

theorem readWord_toNat (word : UInt32) : readWord (.integer word.toNat) = some word := by
  have small := word.toNat_lt
  rw [readWord, readNumber, if_pos ⟨by omega, by omega⟩]
  simp

theorem readLongWord_toNat (word : UInt64) : readLongWord (.integer word.toNat) = some word := by
  have small := word.toNat_lt
  rw [readLongWord, readNumber, if_pos ⟨by omega, by omega⟩]
  simp

/-! ## The settings of a table -/

section

variable {value first second third : Value}

theorem readOptional_some {α : Type} (read : Value → Option α) (absent : α) (value : Value) :
    readOptional read absent (some value) = read value := rfl

-- The values are any, so that no number in them is ever evaluated.
theorem readKeyLengths_of_group {min max increment : UInt32}
    (group : readGroup [Key.min, Key.max, Key.increment] value =
      some [some first, some second, some third])
    (readMin : readWord first = some min) (readMax : readWord second = some max)
    (readIncrement : readWord third = some increment) :
    readKeyLengths value = some ⟨min, max, increment⟩ := by
  simp [readKeyLengths, group, readMin, readMax, readIncrement]

theorem readAes_of_group {settings : Settings} {blockLength : UInt32} {keyLengths : KeyLengths}
    (group : readGroup [Key.blockLength, Key.keyLengths] value = some [some first, some second])
    (readLength : readWord first = some blockLength)
    (readLengths : readKeyLengths second = some keyLengths) :
    readAes settings value = some { settings with blockLength, keyLengths } := by
  simp [readAes, group, readOptional_some, readLength, readLengths]

theorem ofEntries?_of_values {entries : Entries} {aes : Value} {settings : Settings}
    (fips : entries.get? Key.fipsMode = some first)
    (disabled : entries.get? Key.disabledAlgorithms = some second)
    (latency : entries.get? Key.openLatency = some third)
    (group : entries.get? Key.aes = some aes)
    (readFips : readTruth first = some settings.fipsMode)
    (readDisabled : readStrings second = some settings.disabledAlgorithms)
    (readLatency : readLongWord third = some settings.openLatency)
    (readGroup : ∀ base, readAes base aes = some
      { base with blockLength := settings.blockLength, keyLengths := settings.keyLengths }) :
    ofEntries? entries = some settings := by
  simp [ofEntries?, fips, disabled, latency, group, readOptional_some, readFips, readDisabled,
    readLatency, readGroup]

end

theorem ofEntries?_entries (settings : Settings) : ofEntries? settings.entries = some settings := by
  have lengths : readKeyLengths settings.lengthsTable = some settings.keyLengths :=
    readKeyLengths_of_group rfl (readWord_toNat _) (readWord_toNat _) (readWord_toNat _)
  exact ofEntries?_of_values rfl rfl rfl rfl rfl (mapM_readString _) (readLongWord_toNat _)
    fun base => readAes_of_group rfl (readWord_toNat _) lengths

/-! ## The document -/

theorem readKeyParts_aes (rest : List Char) :
    readKeyParts keyLimit (Key.aes.toList ++ ']' :: '\n' :: rest) =
      some ([Key.aes], ']' :: '\n' :: rest) :=
  Plain.readKeyParts_last (by decide) 78 (by simp; decide) (by simp [skipBlanks, isBlank])

theorem readKeyParts_keyLengths (rest : List Char) :
    readKeyParts keyLimit (Key.aes.toList ++ '.' :: (Key.keyLengths.toList ++ ']' :: '\n' :: rest)) =
      some ([Key.aes, Key.keyLengths], ']' :: '\n' :: rest) :=
  Plain.readKeyParts_dot (by decide)
    (Plain.readKeyParts_last (by decide) 77 (by simp; decide) (by simp [skipBlanks, isBlank]))

theorem readsLines_write {settings : Settings}
    (writable : settings.openLatency.toNat < 0x8000000000000000) :
    ReadsLines 11 settings.write settings.statements := by
  have word (value : UInt32) : value.toNat < 0x8000000000000000 :=
    Nat.lt_trans value.toNat_lt (by decide)
  have increment := readsLines_number (by decide : Plain Key.increment)
    (word settings.keyLengths.increment) .nil
  have max := readsLines_number (by decide : Plain Key.max) (word settings.keyLengths.max) increment
  have min := readsLines_number (by decide : Plain Key.min) (word settings.keyLengths.min) max
  have lengths := readsLines_header [Key.aes] Key.keyLengths (by simp; decide)
    (readKeyParts_keyLengths _) min
  have blockLength := readsLines_number (by decide : Plain Key.blockLength)
    (word settings.blockLength) lengths
  have aes := readsLines_header [] Key.aes (by simp; decide) (readKeyParts_aes _) blockLength
  have latency := readsLines_number (by decide : Plain Key.openLatency) writable aes
  have disabled := readsLines_line (by decide : Plain Key.disabledAlgorithms)
    (isBlank_front_writeStrings _ _) (readValue_strings settings.disabledAlgorithms _) latency
  have fips := readsLines_line (by decide : Plain Key.fipsMode) (isBlank_front_truth _ _)
    (readValue_truth settings.fipsMode _ _) disabled
  simp only [List.append_nil] at fips
  simp only [write, List.append_assoc]
  exact fips

theorem readDocument?_write {settings : Settings}
    (writable : settings.openLatency.toNat < 0x8000000000000000) :
    readDocument? settings.write = some settings.entries := by
  have long : 11 ≤ settings.write.length := by
    simp only [write, writeLine, writeHeader, List.length_append, List.length_cons]
    omega
  have front : skipByteOrderMark settings.write = settings.write := rfl
  rw [readDocument?, front]
  simp only [readsLines_write writable _ long, Option.bind_eq_bind, Option.bind_some]
  exact ofStatements?_statements settings

theorem ofToml_write {settings : Settings}
    (writable : settings.openLatency.toNat < 0x8000000000000000) :
    ofToml (String.ofList settings.write) = .ok settings := by
  rw [ofToml, String.toList_ofList, readDocument?_write writable, Option.bind_some,
    ofEntries?_entries]
  rfl

/-! ## Numbers of a document -/

/-- If the value is an integer, it is one of 64 bits. -/
def Small (value : Value) : Prop := ∀ number, value = .integer number → number < 0x8000000000000000

theorem small_table (origin : Origin) (entries : Entries) : Small (.table origin entries) := by
  intro number same
  cases same

theorem small_tables (elements : List Entries) : Small (.tables elements) := by
  intro number same
  cases same

def Bounded (entries : Entries) : Prop := ∀ entry ∈ entries, Small entry.2

theorem bounded_nil : Bounded [] := List.forall_mem_nil _

theorem checkedInteger?_lt {value checked : Int} (accepted : checkedInteger? value = some checked) :
    checked < 0x8000000000000000 := by
  unfold checkedInteger? at accepted
  split at accepted
  · rename_i within
    cases accepted
    exact within.2
  · cases accepted

theorem integer?_lt {token : List Char} {value : Int} (read : integer? token = some value) :
    value < 0x8000000000000000 := by
  unfold integer? at read
  split at read <;> obtain ⟨_, -, accepted⟩ := Option.bind_eq_some_iff.mp read <;>
    exact checkedInteger?_lt accepted

theorem scalar?_lt {token : List Char} {value : Int} (read : scalar? token = some (.integer value)) :
    value < 0x8000000000000000 := by
  rw [scalar?] at read
  cases found : integer? token with
  | some integer =>
      rw [found] at read
      split at read
      · cases read
      · split at read
        · cases read
        · cases read
          exact integer?_lt found
  | none =>
      rw [found] at read
      split_ifs at read <;> cases read

theorem readScalar_lt {chars : List Char} {value : Int}
    (read : readScalar chars = some (.integer value, rest)) : value < 0x8000000000000000 := by
  obtain ⟨scalar, found, later⟩ := Option.bind_eq_some_iff.mp read
  have same : scalar = .integer value := by
    split at later
    · split_ifs at later
      · cases later
        rfl
      · cases later
        rfl
    · cases later
      rfl
  exact scalar?_lt (same ▸ found)

theorem readValue_lt {depth : Nat} {chars : List Char} {value : Int}
    (read : readValue depth chars = some (.integer value, rest)) : value < 0x8000000000000000 := by
  unfold readValue at read
  split at read
  · obtain ⟨_, -, returned⟩ := Option.bind_eq_some_iff.mp read
    cases returned
  · obtain ⟨_, -, returned⟩ := Option.bind_eq_some_iff.mp read
    cases returned
  · obtain ⟨_, -, returned⟩ := Option.bind_eq_some_iff.mp read
    cases returned
  · split at read
    · cases read
    · obtain ⟨_, -, entered⟩ := Option.bind_eq_some_iff.mp read
      obtain ⟨_, -, returned⟩ := Option.bind_eq_some_iff.mp entered
      cases returned
  · exact readScalar_lt read

/-- The value of a pair is small. -/
def Modest : Statement → Prop
  | .pair _ _ value => Small value
  | _ => True

theorem readHeader_modest {chars : List Char} {statement : Statement}
    (read : readHeader chars = some (statement, rest)) : Modest statement := by
  unfold readHeader at read
  split at read
  · obtain ⟨⟨⟨path, key⟩, _⟩, -, later⟩ := Option.bind_eq_some_iff.mp read
    obtain ⟨_, -, more⟩ := Option.bind_eq_some_iff.mp later
    obtain ⟨_, -, returned⟩ := Option.bind_eq_some_iff.mp more
    cases returned
    trivial
  · obtain ⟨⟨⟨path, key⟩, _⟩, -, later⟩ := Option.bind_eq_some_iff.mp read
    obtain ⟨_, -, returned⟩ := Option.bind_eq_some_iff.mp later
    cases returned
    trivial

theorem readPair_modest {depth : Nat} {chars : List Char} {path : List String} {value : Value}
    (read : readPair (readValue depth) chars = some ((path, key, value), rest)) :
    Modest (.pair path key value) := by
  obtain ⟨⟨⟨_, _⟩, _⟩, -, later⟩ := Option.bind_eq_some_iff.mp read
  obtain ⟨_, -, more⟩ := Option.bind_eq_some_iff.mp later
  obtain ⟨⟨_, _⟩, found, returned⟩ := Option.bind_eq_some_iff.mp more
  cases returned
  rintro number rfl
  exact readValue_lt found

theorem readStatement_modest {chars : List Char} {statement : Statement}
    (read : readStatement chars = some (some statement, rest)) : Modest statement := by
  unfold readStatement at read
  split at read
  · obtain ⟨⟨header, _⟩, found, later⟩ := Option.bind_eq_some_iff.mp read
    obtain ⟨_, -, returned⟩ := Option.bind_eq_some_iff.mp later
    cases returned
    exact readHeader_modest found
  · split at read
    · cases read
    · obtain ⟨⟨⟨path, key, value⟩, after⟩, found, later⟩ := Option.bind_eq_some_iff.mp read
      obtain ⟨_, -, returned⟩ := Option.bind_eq_some_iff.mp later
      cases returned
      exact readPair_modest found

theorem readStatements_modest {limit : Nat} {chars : List Char} {statements : List Statement}
    (read : readStatements limit chars = some statements) :
    ∀ statement ∈ statements, Modest statement := by
  induction limit generalizing chars statements with
  | zero =>
      cases chars with
      | nil =>
          cases read
          nofun
      | cons char chars => cases read
  | succ limit ih =>
      cases chars with
      | nil =>
          cases read
          nofun
      | cons char chars =>
          obtain ⟨⟨first, rest⟩, found, later⟩ := Option.bind_eq_some_iff.mp read
          obtain ⟨others, more, returned⟩ := Option.bind_eq_some_iff.mp later
          cases returned
          intro statement member
          rcases List.mem_append.mp member with here | there
          · cases Option.mem_toList.mp here
            exact readStatement_modest found
          · exact ih more statement there

section

variable {entries next : Entries} {value : Value}

theorem Bounded.concat (bounded : Bounded entries) (small : Small value) (key : String) :
    Bounded (entries ++ [(key, value)]) := by
  intro entry member
  rcases List.mem_append.mp member with before | last
  · exact bounded entry before
  · cases List.mem_singleton.mp last
    exact small

theorem Bounded.set (bounded : Bounded entries) (small : Small value) (key : String) :
    Bounded (entries.set key value) := by
  unfold Entries.set
  split
  · intro entry member
    obtain ⟨old, before, rfl⟩ := List.mem_map.mp member
    split
    · exact small
    · exact bounded old before
  · exact bounded.concat small key

theorem Bounded.alter {walker : Entries.Walker} {change : Origin → Entries → Option Entries}
    {path : List String} {origin : Origin} (bounded : Bounded entries)
    (kept : ∀ origin entries next, Bounded entries → change origin entries = some next → Bounded next)
    (altered : Entries.alter walker change path origin entries = some next) : Bounded next := by
  cases path with
  | nil => exact kept _ _ _ bounded altered
  | cons key path =>
      rw [Entries.alter] at altered
      split at altered
      · obtain ⟨inner, -, returned⟩ := Option.bind_eq_some_iff.mp altered
        cases returned
        exact bounded.set (small_table _ _) key
      · split at altered
        · obtain ⟨inner, -, returned⟩ := Option.bind_eq_some_iff.mp altered
          cases returned
          exact bounded.set (small_table _ _) key
        · cases altered
      · obtain ⟨last, -, later⟩ := Option.bind_eq_some_iff.mp altered
        obtain ⟨inner, -, returned⟩ := Option.bind_eq_some_iff.mp later
        cases returned
        exact bounded.set (small_tables _) key
      · cases altered

theorem Bounded.addPair {path : List String} (bounded : Bounded entries)
    (small : Small value)
    (added : entries.addPair path key value = some next) : Bounded next := by
  refine bounded.alter (fun origin entries next bounded changed => ?_) added
  split_ifs at changed
  cases changed
  exact bounded.concat small key

theorem Bounded.add {outline last : Outline} {statement : Statement}
    (bounded : Bounded outline.root) (modest : Modest statement)
    (added : outline.add statement = some last) : Bounded last.root := by
  cases statement with
  | pair path key value =>
      obtain ⟨root, altered, returned⟩ := Option.bind_eq_some_iff.mp added
      cases returned
      exact bounded.alter (fun _ _ _ bounded pair => bounded.addPair modest pair) altered
  | header path key =>
      obtain ⟨root, opened, returned⟩ := Option.bind_eq_some_iff.mp added
      cases returned
      refine bounded.alter (fun origin entries next bounded changed => ?_) opened
      split at changed
      · cases changed
        exact bounded.concat (small_table _ _) key
      · cases changed
        exact bounded.set (small_table _ _) key
      · cases changed
  | element path key =>
      obtain ⟨root, opened, returned⟩ := Option.bind_eq_some_iff.mp added
      cases returned
      refine bounded.alter (fun origin entries next bounded changed => ?_) opened
      split at changed
      · cases changed
        exact bounded.concat (small_tables _) key
      · cases changed
        exact bounded.set (small_tables _) key
      · cases changed

theorem bounded_foldlM {statements : List Statement} {outline last : Outline}
    (bounded : Bounded outline.root) (modest : ∀ statement ∈ statements, Modest statement)
    (added : statements.foldlM Outline.add outline = some last) : Bounded last.root := by
  induction statements generalizing outline with
  | nil =>
      cases added
      exact bounded
  | cons statement statements ih =>
      obtain ⟨first, others⟩ := List.forall_mem_cons.mp modest
      rw [List.foldlM_cons] at added
      obtain ⟨middle, here, later⟩ := Option.bind_eq_some_iff.mp added
      exact ih (bounded.add first here) others later

end

theorem bounded_of_readDocument? {chars : List Char} {entries : Entries}
    (read : readDocument? chars = some entries) : Bounded entries := by
  obtain ⟨statements, found, later⟩ := Option.bind_eq_some_iff.mp read
  obtain ⟨outline, folded, returned⟩ := Option.bind_eq_some_iff.mp later
  cases returned
  exact bounded_foldlM bounded_nil (readStatements_modest found) folded

theorem openLatency_of_readAes {settings next : Settings} {value : Value}
    (read : readAes settings value = some next) : next.openLatency = settings.openLatency := by
  obtain ⟨group, -, later⟩ := Option.bind_eq_some_iff.mp read
  split at later
  · obtain ⟨_, -, more⟩ := Option.bind_eq_some_iff.mp later
    obtain ⟨_, -, returned⟩ := Option.bind_eq_some_iff.mp more
    cases returned
    rfl
  · cases later

theorem readLongWord_lt {value : Value} {word : UInt64} (small : Small value)
    (read : readLongWord value = some word) : word.toNat < 0x8000000000000000 := by
  obtain ⟨number, found, rfl⟩ := Option.map_eq_some_iff.mp read
  unfold readNumber at found
  split at found
  · rename_i value
    split_ifs at found
    cases found
    have below := small value rfl
    have wrapped := Nat.mod_le value.toNat (2 ^ 64)
    rw [UInt64.toNat_ofNat']
    omega
  · cases found

theorem openLatency_lt {entries : Entries} {settings : Settings} (bounded : Bounded entries)
    (read : ofEntries? entries = some settings) :
    settings.openLatency.toNat < 0x8000000000000000 := by
  obtain ⟨_, -, afterFips⟩ := Option.bind_eq_some_iff.mp read
  obtain ⟨_, -, afterDisabled⟩ := Option.bind_eq_some_iff.mp afterFips
  obtain ⟨latency, found, afterLatency⟩ := Option.bind_eq_some_iff.mp afterDisabled
  have same : settings.openLatency = latency := by
    cases group : entries.get? Key.aes with
    | none =>
        rw [group] at afterLatency
        cases afterLatency
        rfl
    | some value =>
        rw [group] at afterLatency
        exact openLatency_of_readAes afterLatency
  rw [same]
  cases given : entries.get? Key.openLatency with
  | none =>
      rw [given] at found
      cases found
      decide
  | some value =>
      rw [given, readOptional_some] at found
      obtain ⟨entry, first, rfl⟩ := Option.map_eq_some_iff.mp given
      exact readLongWord_lt (bounded entry (List.mem_of_find?_eq_some first)) found

/-! ## There and back -/

/-- Settings are written unless the latency is too large for a number of TOML. What was written is
read as the same settings, and so is what is written of settings that were read. -/
theorem settings_come_back :
    (∀ settings : Settings, settings.toToml = .error .unwritable ↔
      2 ^ 63 - 1 < settings.openLatency.toNat) ∧
    (∀ settings : Settings, settings.openLatency.toNat ≤ 2 ^ 63 - 1 →
      ∃ text, settings.toToml = .ok text ∧ ofToml text = .ok settings) ∧
    ∀ (text : String) (settings : Settings), ofToml text = .ok settings →
      ∃ written, settings.toToml = .ok written ∧ ofToml written = .ok settings := by
  have writes (settings : Settings) (writable : settings.openLatency.toNat < 0x8000000000000000) :
      ∃ text, settings.toToml = .ok text ∧ ofToml text = .ok settings :=
    ⟨_, if_pos writable, ofToml_write writable⟩
  refine ⟨fun settings => ?_, fun settings small => writes settings (by omega), ?_⟩
  · rw [toToml]
    split
    · simp
      omega
    · simp
      omega
  · intro text settings read
    refine writes settings ?_
    cases found : (readDocument? text.toList).bind ofEntries? with
    | none =>
        rw [ofToml, found] at read
        cases read
    | some other =>
        rw [ofToml, found] at read
        cases read
        obtain ⟨entries, document, made⟩ := Option.bind_eq_some_iff.mp found
        exact openLatency_lt (bounded_of_readDocument? document) made

/-- Names with every kind of character that changes how a text is written, the longest latency that
can be written and the shortest that cannot. -/
theorem odd_names_come_back :
    let settings : Settings :=
      { disabledAlgorithms :=
          ["", "\"AES\"", "a\\b", "'''", "one\ntwo\"\"\"", "'\r\n\x01", "🔑"]
        openLatency := 0x7fffffffffffffff }
    (∃ text, settings.toToml = .ok text ∧ ofToml text = .ok settings ∧
      ∃ written, settings.toToml = .ok written ∧ ofToml written = .ok settings) ∧
      Settings.toToml { openLatency := 0x8000000000000000 } = .error .unwritable := by
  intro settings
  obtain ⟨refuses, writes, reads⟩ := settings_come_back
  obtain ⟨text, written, read⟩ := writes settings (by decide)
  exact ⟨⟨text, written, read, reads text settings read⟩, (refuses _).mpr (by decide)⟩

end CipherModes.Settings
